import Sitecheck.Proofs.Json.Written
import Sitecheck.Proofs.Number.Fixed
import Sitecheck.Report.Html

/-!
# What a reader finds in a report

A reader goes by tags: one opens the block of a result and says what came of it, another one
opens the details of a failure.  Texts are put into a page as they are, and a
text between two tags adds the tags it holds to those of the page (`marksIn_html`).
-/

namespace Sitecheck

namespace Json

theorem numeric_fixedText (places : Nat) (x : Binary64) : Numeric (fixedText places x).toList := by
  cases x with
  | nan => exact List.all_eq_true.mp (by decide : "nan".toList.all isNumeric = true)
  | infinite negative =>
    cases negative with
    | false => exact List.all_eq_true.mp (by decide : "inf".toList.all isNumeric = true)
    | true => exact List.all_eq_true.mp (by decide : "-inf".toList.all isNumeric = true)
  | finite negative mantissa exponent =>
    rw [fixedText, String.toList_ofList, List.append_assoc]
    have hdigits := numeric_digits (NumberFormat.isDigit_pad
      (isDigit_toDigits (fixedUnits places mantissa exponent)) (places + 1))
    refine numeric_signed negative (numeric_append.mpr ⟨fun c hc => ?_, ?_⟩)
    · exact hdigits c (List.mem_of_mem_take hc)
    · split
      · exact numeric_nil
      · exact numeric_cons.mpr ⟨by decide, fun c hc => hdigits c (List.mem_of_mem_drop hc)⟩

theorem numeric_displayInt (value : Int) : Numeric (displayInt value).toList := by
  rw [displayInt, String.toList_ofList]
  exact numeric_intText value

end Json

namespace Report

variable {text front back chars : List Char} {found : List Mark}

/-! ## Tags -/

/-- The tags that a reader of a report looks for. -/
inductive Mark where
  | block (status : Status)
  | details
  deriving DecidableEq

namespace Mark

def tag : Mark → List Char
  | block status => "div class=\"test-result ".toList ++ status.name.toList ++ ['"']
  | details => "div class=\"error-details\"".toList

def all : List Mark := details :: Status.members.map fun member => block member.2

def isBlock : Mark → Bool
  | block _ => true
  | details => false

def ofTag? (tag : List Char) : Option Mark := all.find? fun mark => mark.tag == tag

theorem not_mem_of_ofTag? {tag : List Char} (h : ofTag? tag ≠ none) : '<' ∉ tag := by
  obtain ⟨mark, hmark⟩ := Option.ne_none_iff_exists'.mp h
  have htag : mark.tag = tag := by simpa using List.find?_some hmark
  rw [← htag]
  cases mark with
  | block status => cases status <;> decide
  | details => decide

end Mark

theorem bne_of_not_mem {c : Char} (h : c ∉ text) : ∀ d ∈ text, (d != c) = true :=
  fun _ hd => bne_iff_ne.mpr fun heq => h (heq ▸ hd)

/-- The rest of a tag that has been opened. -/
def tag? (text : List Char) : Option (List Char) :=
  if text.contains '>' then some (text.takeWhile (· != '>')) else none

def marks : List Char → List Mark
  | [] => []
  | c :: text => (if c = '<' then (tag? text).bind Mark.ofTag? else none).toList ++ marks text

/-- No tag is left open. -/
def isClosed : List Char → Bool
  | [] => true
  | c :: text => (c != '<' || text.contains '>') && isClosed text

theorem tag?_append (h : '>' ∈ front) (back : List Char) : tag? (front ++ back) = tag? front := by
  obtain ⟨before, after, rfl, hbefore⟩ := List.eq_append_cons_of_mem h
  simp [tag?, List.takeWhile_append_of_pos (bne_of_not_mem hbefore)]

theorem marks_append (h : isClosed front = true) (back : List Char) :
    marks (front ++ back) = marks front ++ marks back := by
  induction front with
  | nil => rfl
  | cons c front ih =>
    simp only [isClosed, Bool.and_eq_true, Bool.or_eq_true, bne_iff_ne, List.contains_iff_mem] at h
    rw [List.cons_append, marks, marks, ih h.2, List.append_assoc]
    split
    · next hopen => rw [tag?_append (h.1.resolve_left fun hne => hne hopen)]
    · rfl

/-- A tag that has been opened before another one is none that a reader looks for. -/
theorem marks_append_tag (front back : List Char) :
    marks (front ++ '<' :: back) = marks front ++ marks ('<' :: back) := by
  induction front with
  | nil => rfl
  | cons c front ih =>
    rw [List.cons_append, marks, ih, marks.eq_2 c front, List.append_assoc]
    split
    · by_cases hclosed : '>' ∈ front
      · rw [tag?_append hclosed]
      · have hnone : tag? front = none := by simp [tag?, hclosed]
        have hother : Mark.ofTag? (front ++ '<' :: back.takeWhile (· != '>')) = none := by
          by_contra hfound
          exact Mark.not_mem_of_ofTag? hfound (by simp)
        rw [hnone, tag?]
        split
        · simpa [List.takeWhile_append_of_pos (bne_of_not_mem hclosed)] using hother
        · rfl
    · rfl

theorem marks_of_not_mem (h : '<' ∉ text) : marks text = [] := by
  induction text with
  | nil => rfl
  | cons c text ih =>
    rw [List.mem_cons, not_or] at h
    rw [marks, if_neg (Ne.symm h.1), ih h.2]
    rfl

theorem isClosed_of_not_mem (h : '<' ∉ text) : isClosed text = true := by
  induction text with
  | nil => rfl
  | cons c text ih =>
    rw [List.mem_cons, not_or] at h
    simp [isClosed, Ne.symm h.1, ih h.2]

theorem isClosed_append (hfront : isClosed front = true) (hback : isClosed back = true) :
    isClosed (front ++ back) = true := by
  induction front with
  | nil => exact hback
  | cons c front ih =>
    simp only [isClosed, List.cons_append, Bool.and_eq_true, Bool.or_eq_true, bne_iff_ne,
      List.contains_iff_mem, List.mem_append] at hfront ⊢
    exact ⟨hfront.1.imp_right .inl, ih hfront.2⟩

/-- Whatever is open in front is closed by the end of a tag. -/
theorem isClosed_append_of_mem (hmem : '>' ∈ back) (hback : isClosed back = true)
    (front : List Char) : isClosed (front ++ back) = true := by
  induction front with
  | nil => exact hback
  | cons c front ih => simp [isClosed, ih, hmem]

/-! ## Texts between tags -/

def marksIn (text : String) : List Mark := marks text.toList

/-- No tag is left open, and these marks are found. -/
def isPiece (text : List Char) (found : List Mark) : Bool := isClosed text && marks text == found

def Piece (text : String) (found : List Mark) : Prop := isPiece text.toList found = true

theorem isPiece_iff : isPiece text found = true ↔ isClosed text = true ∧ marks text = found := by
  simp [isPiece]

theorem isPiece_append {others : List Mark} (hfront : isPiece front found = true)
    (hback : isPiece back others = true) :
    isPiece (front ++ back) (found ++ others) = true := by
  obtain ⟨hclosed, hfound⟩ := isPiece_iff.mp hfront
  obtain ⟨hclosed', hothers⟩ := isPiece_iff.mp hback
  rw [isPiece_iff, marks_append hclosed, hfound, hothers]
  exact ⟨isClosed_append hclosed hclosed', rfl⟩

/-- A text without marks that starts with a tag, so that no tag before it stays open. -/
structure Tagged (text : String) : Prop where
  first : ∃ rest, text.toList = '<' :: rest
  piece : Piece text []

theorem tagged_of_chars {text : String} (h : text = String.ofList ('<' :: chars))
    (hread : isPiece ('<' :: chars) [] = true) : Tagged text := by
  rw [← String.toList_ofList (l := '<' :: chars), ← h] at hread
  exact ⟨⟨chars, by rw [h, String.toList_ofList]⟩, hread⟩

namespace Piece

variable {front back text : String} {found others : List Mark}

theorem of_chars {chars : List Char} (h : text = String.ofList chars) (hread : isPiece chars found = true) :
    Piece text found := by
  rwa [Piece, h, String.toList_ofList]

theorem of_numeric (h : Json.Numeric text.toList) : Piece text [] := by
  have hnot : '<' ∉ text.toList := fun hmem => absurd (h _ hmem) (by decide)
  exact isPiece_iff.mpr ⟨isClosed_of_not_mem hnot, marks_of_not_mem hnot⟩

theorem append (hfront : Piece front found) (hback : Piece back others) :
    Piece (front ++ back) (found ++ others) := by
  rw [Piece, String.toList_append]
  exact isPiece_append hfront hback

theorem skip (hfront : Piece front found) (hback : Piece back []) : Piece (front ++ back) found := by
  simpa using hfront.append hback

theorem skip_skip (hfront : Piece front found) (htext : Piece text []) (hback : Piece back []) :
    Piece (front ++ text ++ back) found :=
  (hfront.skip htext).skip hback

/-- A text between tags adds its own marks. -/
theorem between (hfront : Piece front found) (hback : Tagged back) (text : String) :
    Piece (front ++ text ++ back) (found ++ marksIn text) := by
  obtain ⟨hclosed, hfound⟩ := isPiece_iff.mp hfront
  obtain ⟨⟨rest, hrest⟩, hpiece⟩ := hback
  obtain ⟨hclosed', hnone⟩ := isPiece_iff.mp hpiece
  rw [Piece, String.toList_append, isPiece_iff]
  rw [hrest] at hclosed' hnone ⊢
  have hend : '>' ∈ '<' :: rest := by
    simp only [isClosed, bne_self_eq_false, Bool.false_or, Bool.and_eq_true, List.contains_iff_mem] at hclosed'
    exact List.mem_cons_of_mem _ hclosed'.1
  refine ⟨isClosed_append_of_mem hend hclosed' _, ?_⟩
  rw [marks_append_tag, hnone, String.toList_append, marks_append hclosed, hfound, List.append_nil]
  rfl

end Piece

/-! ## Blocks -/

def shownAnalysis (analyses : List (String × Json)) (result : TestResult) : String :=
  ((Fields.get? result.testId analyses).getD (.str "No summary available")).display

def shownMessage (result : TestResult) : String := (firstText result.error none).getD "No error message"

theorem piece_errorBlock (result : TestResult) (analysis : Json) :
    Piece (errorBlock result analysis)
      ([.details] ++ marksIn analysis.display ++ marksIn (shownMessage result)) := by
  refine .between (.between ?_ ?_ _) ?_ _
  · exact .of_chars rfl (by decide +kernel)
  · exact tagged_of_chars rfl (by decide +kernel)
  · exact tagged_of_chars rfl (by decide +kernel)

theorem piece_class {front back : String} {rest : List Char} (hfront : front = String.ofList chars)
    (hback : back = String.ofList rest)
    (h : ∀ status : Status, isPiece (chars ++ status.name.toList ++ rest) [.block status] = true)
    (status : Status) : Piece (front ++ status.name ++ back) [.block status] := by
  rw [Piece, String.toList_append, String.toList_append, hfront, hback, String.toList_ofList,
    String.toList_ofList]
  exact h status

/-- What is found in the block of a result. -/
def blockMarks (analyses : List (String × Json)) (result : TestResult) : List Mark :=
  .block result.status :: marksIn result.testId ++
    match result.status with
    | .failed => .details :: marksIn (shownAnalysis analyses result) ++ marksIn (shownMessage result)
    | _ => []

theorem piece_resultBlock (analyses : List (String × Json)) (result : TestResult) :
    Piece (resultBlock analyses result) (blockMarks analyses result) := by
  have hmark : Piece (statusMark result.status) [] := by
    cases result.status <;> exact .of_chars rfl (by decide +kernel)
  have hduration : Piece (Json.displayInt result.duration) [] :=
    .of_numeric (Json.numeric_displayInt _)
  have herrors : Piece (match result.status with
      | .failed => errorBlock result ((Fields.get? result.testId analyses).getD (.str "No summary available"))
      | _ => "") (match result.status with
      | .failed => .details :: marksIn (shownAnalysis analyses result) ++ marksIn (shownMessage result)
      | _ => []) := by
    cases result.status with
    | failed => exact piece_errorBlock _ _
    | _ => rfl
  refine .skip (.append (.skip_skip (.between (.skip_skip (piece_class rfl rfl ?_ _) hmark ?_) ?_ _)
    hduration ?_) herrors) ?_
  · intro status
    cases status <;> decide +kernel
  · exact .of_chars rfl (by decide +kernel)
  · exact tagged_of_chars rfl (by decide +kernel)
  · exact .of_chars rfl (by decide +kernel)
  · exact .of_chars rfl (by decide +kernel)

theorem piece_blocks (analyses : List (String × Json)) (results : List TestResult) :
    Piece (Text.join "\n" (results.map (resultBlock analyses)))
      (results.flatMap (blockMarks analyses)) := by
  rw [Piece, Text.join, String.toList_ofList]
  induction results with
  | nil => rfl
  | cons result results ih =>
    have hblock : isPiece (resultBlock analyses result).toList _ = true := piece_resultBlock analyses result
    cases results with
    | nil => simpa [Chars.join] using hblock
    | cons =>
      have hbreak : isPiece "\n".toList [] = true := rfl
      simpa [Chars.join] using isPiece_append (isPiece_append hblock hbreak) ih

set_option maxRecDepth 100000 in
theorem piece_pageText (run : TestRun) {rate : String} {blocks : List String}
    (hrate : Piece rate []) (hblocks : Piece (Text.join "\n" blocks) found) :
    Piece (pageText run rate blocks)
      ([] ++ marksIn run.id ++ marksIn run.id ++ marksIn run.finishedAt ++ found) := by
  have hint (n : Int) : Piece (Json.displayInt n) [] := .of_numeric (Json.numeric_displayInt n)
  refine .skip (.append (.skip_skip (.skip_skip (.skip_skip (.skip_skip (.skip_skip (.skip_skip
    (.between (.between (.between ?_ ?_ _) ?_ _) ?_ _) (hint _) ?_) (hint _) ?_) (hint _) ?_) (hint _) ?_)
    hrate ?_) (hint _) ?_) hblocks) ?_
  any_goals exact Piece.of_chars rfl (by decide +kernel)
  all_goals exact tagged_of_chars rfl (by decide +kernel)

/-! ## Pages -/

theorem passRate_of_le {passed total : Int} (hnonneg : 0 ≤ passed) (hle : passed ≤ total) :
    ∃ rate, passRate passed total = .ok rate ∧ Json.Numeric rate.toList := by
  unfold passRate
  split
  · exact ⟨_, rfl, Json.numeric_fixedText _ _⟩
  · next hpos =>
    obtain ⟨share, hshare⟩ := Binary64.ofQuotient?_of_le hnonneg hle (not_le.mp hpos)
    rw [hshare]
    exact ⟨_, rfl, Json.numeric_fixedText _ _⟩

/-- Every page has a block for each result, in order, and the marks of the texts put in. -/
theorem marksIn_html {run : TestRun} (hnonneg : 0 ≤ run.passed) (hle : run.passed ≤ run.total)
    (analyses : List (String × Json)) :
    ∃ page, html run analyses = .ok page ∧
      marksIn page = marksIn run.id ++ marksIn run.id ++ marksIn run.finishedAt ++
        run.results.flatMap (blockMarks analyses) := by
  obtain ⟨rate, hrate, hnumeric⟩ := passRate_of_le hnonneg hle
  have hpage := piece_pageText run (.of_numeric hnumeric) (piece_blocks analyses run.results)
  refine ⟨pageText run rate (run.results.map (resultBlock analyses)), ?_, ?_⟩
  · rw [html, hrate]
    rfl
  · exact (isPiece_iff.mp hpage).2

/-! ## Pages that show the results and nothing else -/

/-- The marks of a result: its block, and the details of a failure. -/
def resultMarks (result : TestResult) : List Mark :=
  .block result.status :: if result.status = .failed then [.details] else []

/-- The texts of a result that its block shows. -/
def shownTexts (analyses : List (String × Json)) (result : TestResult) : List String :=
  result.testId :: if result.status = .failed then [shownAnalysis analyses result, shownMessage result] else []

theorem length_blockMarks (analyses : List (String × Json)) (result : TestResult) :
    (blockMarks analyses result).length =
      (resultMarks result).length + ((shownTexts analyses result).flatMap marksIn).length := by
  unfold blockMarks resultMarks shownTexts
  cases result.status <;> simp <;> omega

theorem blockMarks_of_plain {analyses : List (String × Json)} {result : TestResult}
    (h : ∀ text ∈ shownTexts analyses result, marksIn text = []) :
    blockMarks analyses result = resultMarks result := by
  unfold shownTexts at h
  unfold blockMarks resultMarks
  cases hstatus : result.status <;> simp_all

theorem flatMap_blockMarks_iff (front : List Mark) (analyses : List (String × Json))
    (results : List TestResult) :
    front ++ results.flatMap (blockMarks analyses) = results.flatMap resultMarks ↔
      front = [] ∧ ∀ text ∈ results.flatMap (shownTexts analyses), marksIn text = [] := by
  have hlength : (results.flatMap (blockMarks analyses)).length =
      (results.flatMap resultMarks).length +
        ((results.flatMap (shownTexts analyses)).flatMap marksIn).length := by
    induction results with
    | nil => rfl
    | cons result results ih =>
      simp only [List.flatMap_cons, List.flatMap_append, List.length_append, ih, length_blockMarks]
      omega
  constructor
  · intro h
    have hsame := congrArg List.length h
    rw [List.length_append, hlength] at hsame
    refine ⟨List.length_eq_zero_iff.mp (by omega), ?_⟩
    exact List.flatMap_eq_nil_iff.mp (List.length_eq_zero_iff.mp (by omega))
  · rintro ⟨rfl, hplain⟩
    refine List.flatMap_congr fun result hresult => blockMarks_of_plain fun text htext => ?_
    exact hplain text (List.mem_flatMap.mpr ⟨result, hresult, htext⟩)

end Report

end Sitecheck
