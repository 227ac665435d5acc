import Sitecheck.Proofs.Spec.Layout

/-!
# Values that stay where they are put

A value is contained if it is read back from the place it is put in: a literal
ends at the closing quote of its template and stands for the value, a pattern ends
at its closing slash, and a comment does not go beyond its line.  Whether it does
depends on the value alone, and not on the code behind it (`contained_iff`).
Selectors and expected values have their quotes escaped, but not their backslashes;
all other values in literals are put there as they are.
-/

namespace Sitecheck.Spec

open Script

/-- From its opening quote on, a literal is read as a value, and the rest is left. -/
def ReadsAs (text value rest : String) : Prop :=
  literalAt? (text ++ rest).toList = some (textUnits value.toList, rest.toList)

namespace Piece

/-- The value of a piece, with the rest of the code behind it, stays in its place. -/
def Contained (piece : Piece) (rest : String) : Prop :=
  match piece with
  | .template _ => True
  | .bare _ => True
  | .plain value => ReadsAs piece.text value rest
  | .quoted value => ReadsAs piece.text value rest
  | .selector given => ReadsAs piece.text (Locator.normalize given) rest
  | .pattern value =>
    pattern? (piece.text ++ rest).toList = some ((escapeQuotes value).toList, rest.toList)
  | .comment _ _ => piece.text.toList <+: line (piece.text ++ rest).toList

/-- What a value must be for that.  A selector has to be written as its normalized
form, with quotes and backslashes escaped. -/
def Harmless : Piece → Prop
  | .template _ => True
  | .bare _ => True
  | .plain value => ∀ c ∈ value.toList, c ≠ '\'' ∧ c ≠ '\\' ∧ isBreak c = false
  | .quoted value => ∀ c ∈ value.toList, c ≠ '\\' ∧ isBreak c = false
  | .selector given =>
    written given.toList = escaped (normalized given.toList) ∧
      ∀ c ∈ normalized given.toList, isBreak c = false
  | .pattern value => IsPattern value.toList
  | .comment _ value => ∀ c ∈ value.toList, isLineEnd c = false

instance : DecidablePred Harmless
  | .template _ => inferInstanceAs (Decidable True)
  | .bare _ => inferInstanceAs (Decidable True)
  | .plain value => List.decidableBAll _ value.toList
  | .quoted value => List.decidableBAll _ value.toList
  | .selector given =>
    have := List.decidableBAll (isBreak · = false) (normalized given.toList)
    inferInstanceAs (Decidable (_ = _ ∧ _))
  | .pattern value => inferInstanceAs (Decidable (IsPattern value.toList))
  | .comment _ value => List.decidableBAll _ value.toList

end Piece

/-! ## Literals -/

theorem readsAs_literal (raw value rest : String) :
    ReadsAs (literal raw) value rest ↔
      literal? (raw.toList ++ '\'' :: rest.toList) = some (textUnits value.toList, rest.toList) := by
  have hcode : (literal raw ++ rest).toList = '\'' :: (raw.toList ++ '\'' :: rest.toList) := by
    simp [literal]
  rw [ReadsAs, hcode, literalAt?]

theorem readsAs_plain_iff (value rest : String) :
    ReadsAs (literal value) value rest ↔
      ∀ c ∈ value.toList, c ≠ '\'' ∧ c ≠ '\\' ∧ isBreak c = false := by
  rw [readsAs_literal, literal?_eq_some_iff_escaped (Nat.le_add_right _ _), eq_escaped_iff]
  constructor
  · rintro ⟨⟨hquote, hslash⟩, hbreak⟩ c hc
    exact ⟨fun heq => hquote (heq ▸ hc), fun heq => hslash (heq ▸ hc), hbreak c hc⟩
  · intro h
    exact ⟨⟨fun hc => (h _ hc).1 rfl, fun hc => (h _ hc).2.1 rfl⟩, fun c hc => (h c hc).2.2⟩

theorem readsAs_quoted_iff (value rest : String) :
    ReadsAs (literal (escapeQuotes value)) value rest ↔
      ∀ c ∈ value.toList, c ≠ '\\' ∧ isBreak c = false := by
  have hroom := two_mul_textUnits_quotesEscaped value.toList
  rw [readsAs_literal, toList_escapeQuotes, literal?_eq_some_iff_escaped (by omega),
    quotesEscaped_eq_escaped_iff]
  constructor
  · rintro ⟨hslash, hbreak⟩ c hc
    exact ⟨fun heq => hslash (heq ▸ hc), hbreak c hc⟩
  · intro h
    exact ⟨fun hc => (h _ hc).1 rfl, fun c hc => (h c hc).2⟩

theorem readsAs_selector_iff (given rest : String) :
    ReadsAs (literal (Locator.normalize (escapeQuotes given))) (Locator.normalize given) rest ↔
      written given.toList = escaped (normalized given.toList) ∧
        ∀ c ∈ normalized given.toList, isBreak c = false := by
  rw [readsAs_literal, toList_normalize, toList_normalize, toList_escapeQuotes]
  exact literal?_written_iff given.toList rest.toList

/-! ## Patterns and comments -/

theorem pattern?_escapeQuotes_iff (value rest : String) :
    pattern? ("/" ++ escapeQuotes value ++ "/" ++ rest).toList =
        some ((escapeQuotes value).toList, rest.toList) ↔
      IsPattern value.toList := by
  rw [← isPattern_quotesEscaped, ← toList_escapeQuotes, ← pattern?_eq_some_iff _ rest.toList]
  simp

theorem isLineEnd_of_mem_displayInt {number : Int} {c : Char}
    (h : c ∈ (Json.displayInt number).toList) : isLineEnd c = false := by
  have hdigit : c = '-' ∨ c.isDigit := by
    simp only [Json.displayInt, Json.intText, String.toList_ofList, List.mem_append] at h
    rcases h with h | h
    · split at h
      · exact Or.inl (List.mem_singleton.mp h)
      · cases h
    · exact Or.inr (Nat.isDigit_of_mem_toDigits (by decide) (by decide) h)
  by_contra hend
  simp only [isLineEnd, Bool.not_eq_false, Bool.or_eq_true, decide_eq_true_eq] at hend
  rcases hend with ((rfl | rfl) | rfl) | rfl <;> simp at hdigit

private theorem isLineEnd_of_all {text : String} {c : Char}
    (h : (text.toList.all fun c => !isLineEnd c) = true) (hc : c ∈ text.toList) :
    isLineEnd c = false := by
  simpa using List.all_eq_true.mp h c hc

namespace Remark

variable {remark : Remark}

theorem isLineEnd_of_mem_lead {c : Char} (h : c ∈ remark.lead.toList) : isLineEnd c = false := by
  cases remark with
  | step =>
    simp only [lead, String.toList_append, List.mem_append] at h
    rcases h with (h | h) | h
    · exact isLineEnd_of_all (by decide +kernel) h
    · exact isLineEnd_of_mem_displayInt h
    · exact isLineEnd_of_all (by decide +kernel) h
  | _ => exact isLineEnd_of_all (by decide +kernel) h

theorem isLineEnd_of_mem_tail {c : Char} (h : c ∈ remark.tail.toList) : isLineEnd c = false := by
  cases remark with
  | step => simp [tail] at h
  | _ => exact isLineEnd_of_all (by decide +kernel) h

end Remark

theorem comment_in_line_iff (remark : Remark) (value rest : String) :
    (Piece.comment remark value).text.toList <+:
        line ((Piece.comment remark value).text ++ rest).toList ↔
      ∀ c ∈ value.toList, isLineEnd c = false := by
  rw [String.toList_append, prefix_line_iff]
  simp only [Piece.text, String.toList_append, List.mem_append]
  constructor
  · intro h c hc
    exact h c (Or.inl (Or.inr hc))
  · rintro h c (((hc | hc) | hc) | hc)
    · exact isLineEnd_of_all (by decide +kernel) hc
    · exact Remark.isLineEnd_of_mem_lead hc
    · exact h c hc
    · exact Remark.isLineEnd_of_mem_tail hc

/-! ## Compiled suites -/

theorem Piece.contained_iff (piece : Piece) (rest : String) :
    piece.Contained rest ↔ piece.Harmless := by
  cases piece with
  | template | bare => exact Iff.rfl
  | plain value => exact readsAs_plain_iff value rest
  | quoted value => exact readsAs_quoted_iff value rest
  | selector given => exact readsAs_selector_iff given rest
  | pattern value => exact pattern?_escapeQuotes_iff value rest
  | comment remark value => exact comment_in_line_iff remark value rest

/-- The file of a suite is its layout, written out, and a value of the suite stays
in its place there exactly if it is harmless. -/
theorem contained_in_compiled_iff_harmless (suite : Suite) :
    compile suite = (do
      let settings ← Settings.current
      save settings.base.storage (suite.id ++ ".spec.ts") (render (suiteLayout suite))) ∧
    ∀ before piece after, suiteLayout suite = before ++ piece :: after →
      (Piece.Contained piece (render after) ↔ piece.Harmless) := by
  refine ⟨?_, fun before piece after _ => piece.contained_iff (render after)⟩
  rw [← suiteCode_eq_render]
  rfl

def nameSuite : Suite where
  id := "names"
  name := "Names"
  baseUrl := "https://example.com/"
  cases :=
    [{ id := "t", name := "fills a name", description := "A name with a quote", tags := []
       preconditions := [], assertions := []
       steps :=
         [{ action := .fill, selector := some "[title='Name']", strategy := some .css
            value := some "O'Brien", description := "Fill it", expected := none, url := none
            assertion := none }] }]

/-- The quotes of the selector stay in its literal; the quote of the name ends the
literal of the name. -/
theorem contained_in_compiled_nameSuite :
    (∃ before after, suiteLayout nameSuite = before ++ .selector "[title='Name']" :: after ∧
      Piece.Contained (.selector "[title='Name']") (render after)) ∧
    ∃ before after, suiteLayout nameSuite = before ++ .plain "O'Brien" :: after ∧
      ¬ Piece.Contained (.plain "O'Brien") (render after) := by
  have hselector : suiteLayout nameSuite = (suiteLayout nameSuite).take 27 ++
      .selector "[title='Name']" :: (suiteLayout nameSuite).drop 28 := rfl
  have hvalue : suiteLayout nameSuite = (suiteLayout nameSuite).take 31 ++
      .plain "O'Brien" :: (suiteLayout nameSuite).drop 32 := rfl
  have hiff := (contained_in_compiled_iff_harmless nameSuite).2
  refine ⟨⟨_, _, hselector, (hiff _ _ _ hselector).mpr ?_⟩,
    ⟨_, _, hvalue, fun h => absurd ((hiff _ _ _ hvalue).mp h) ?_⟩⟩
  · decide +kernel
  · decide +kernel

end Sitecheck.Spec
