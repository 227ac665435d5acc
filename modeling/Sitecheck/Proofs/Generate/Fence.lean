import Sitecheck.Generate.Suite
import Sitecheck.Proofs.Text

/-!
# Documents between fences

A reply holds its document bare, between plain fences or between tagged ones, with
prose around it.  The fences are found by cutting the reply at every place where one
stands, so a document with backticks in it may be cut short.  One that has no fence in
it and no backtick at its ends is found whole, whichever way it is wrapped
(`payload_tagged`, `payload_plain`).
-/

namespace Sitecheck.Chars

variable {pattern front rest text : List Char}

theorem after?_eq_none_iff (pattern text : List Char) :
    after? pattern text = none ↔ ¬ pattern <+: text := by
  rw [← startsWith_iff]
  simp [startsWith]

theorem cut?_append_of_no_start
    (h : ∀ part, part ≠ [] → part <:+ front → ¬ pattern <+: part ++ rest) :
    cut? pattern (front ++ rest) =
      (cut? pattern rest).map fun (before, after) => (front ++ before, after) := by
  induction front with
  | nil => simp
  | cons c front ih =>
    have hhere : after? pattern (c :: (front ++ rest)) = none :=
      (after?_eq_none_iff _ _).mpr (h (c :: front) (by simp) (List.suffix_refl _))
    have hbehind := ih fun part hne hpart => h part hne (hpart.trans (List.suffix_cons c front))
    rw [List.cons_append, cut?, hhere]
    simp [hbehind, Function.comp_def]

theorem cut?_append_of_not_mem {c : Char} (h : c ∉ front) (rest : List Char) :
    cut? (c :: pattern) (front ++ rest) =
      (cut? (c :: pattern) rest).map fun (before, after) => (front ++ before, after) := by
  refine cut?_append_of_no_start fun part hne hpart hprefix => h ?_
  obtain ⟨d, part, rfl⟩ := List.exists_cons_of_ne_nil hne
  obtain rfl : c = d := (List.cons_prefix_cons.mp hprefix).1
  exact hpart.subset List.mem_cons_self

/-- What stands before the first place of a pattern, or the whole text. -/
def upTo (pattern text : List Char) : List Char := ((cut? pattern text).map Prod.fst).getD text

theorem upTo_of_cut? (h : cut? pattern text = some (front, rest)) : upTo pattern text = front := by
  rw [upTo, h]
  rfl

theorem upTo_of_not_infix (h : ¬ pattern <:+: text) : upTo pattern text = text := by
  rw [upTo, (cut?_eq_none_iff pattern text).mpr h]
  rfl

theorem head?_splitOn (hne : pattern ≠ []) (text : List Char) :
    (splitOn pattern text).head? = some (upTo pattern text) := by
  cases hcut : cut? pattern text with
  | none =>
    rw [splitOn_of_cut?_none hcut, upTo, hcut]
    rfl
  | some =>
    rw [splitOn_of_cut? hne hcut, upTo_of_cut? hcut]
    rfl

end Sitecheck.Chars

namespace Sitecheck.Generate

variable {opening text document : List Char}

open Chars

/-! ## What a fence holds -/

theorem fence_ne_nil : fence ≠ [] := by simp [fence]

theorem taggedFence_ne_nil : taggedFence ≠ [] := by simp [taggedFence, fence]

theorem fenced?_of_cut? {before rest : List Char} (hne : opening ≠ [])
    (h : cut? opening text = some (before, rest)) :
    fenced? opening text = some (upTo fence (upTo opening rest)) := by
  have hhead := head?_splitOn hne rest
  rw [fenced?, splitOn_of_cut? hne h]
  cases hparts : splitOn opening rest with
  | nil => exact absurd hparts (splitOn_ne_nil _ _)
  | cons =>
    rw [hparts] at hhead
    cases hhead
    exact head?_splitOn fence_ne_nil _

theorem fenced?_eq_none_iff (hne : opening ≠ []) (text : List Char) :
    fenced? opening text = none ↔ ¬ opening <:+: text := by
  rw [← cut?_eq_none_iff]
  cases hcut : cut? opening text with
  | none => simp [fenced?, splitOn_of_cut?_none hcut]
  | some => simp [fenced?_of_cut? hne hcut]

/-! ## Documents that a fence can be put around -/

def tag : List Char := ['j', 's', 'o', 'n']

theorem taggedFence_eq : taggedFence = fence ++ tag := rfl

/-- No fence stands in the document, none arises where it begins or ends, and its first
characters are not taken for a tag. -/
structure Fenceable (document : List Char) : Prop where
  no_fence : ¬ fence <:+: document
  untagged : ¬ tag <+: document
  first : document.head? ≠ some '`'
  last : document.getLast? ≠ some '`'

/-- What stands around the fences: it has no backticks, and its first characters are not
taken for the tag of the closing fence. -/
structure Prose (before after : List Char) : Prop where
  no_fence_before : '`' ∉ before
  no_fence_after : '`' ∉ after
  untagged : ¬ tag <+: after

theorem no_start_of_no_fence (hfence : ¬ fence <:+: document) (hlast : document.getLast? ≠ some '`')
    (tagging rest : List Char) :
    ∀ part, part ≠ [] → part <:+ document → ¬ fence ++ tagging <+: part ++ rest := by
  intro part hne hpart hprefix
  have hstart : fence <+: part ++ rest := (List.prefix_append _ _).trans hprefix
  have hend : document.getLast? = part.getLast? := by
    obtain ⟨front, rfl⟩ := hpart
    exact List.getLast?_append_of_ne_nil _ hne
  rw [hend] at hlast
  -- a fence that starts near the end would end the document with one or two backticks
  match part, hne with
  | [a], _ =>
    have ha : a = '`' := ((List.cons_prefix_cons.mp hstart).1).symm
    exact hlast (by simp [ha])
  | [a, b], _ =>
    have htail := (List.cons_prefix_cons.mp hstart).2
    have hb : b = '`' := ((List.cons_prefix_cons.mp htail).1).symm
    exact hlast (by simp [hb])
  | a :: b :: c :: part, _ =>
    have hlong : fence <+: a :: b :: c :: part := by
      simpa [fence, List.cons_prefix_cons] using hstart
    exact hfence (hlong.isInfix.trans hpart.isInfix)

theorem not_tag_prefix_append (h : ¬ tag <+: document) (rest : List Char) :
    ¬ tag <+: document ++ fence ++ rest := by
  intro hprefix
  rw [List.append_assoc] at hprefix
  rcases List.prefix_or_prefix_of_prefix hprefix (List.prefix_append document _) with hlong | hshort
  · exact h hlong
  -- a document that is shorter than the tag is followed by a backtick
  · obtain ⟨more, hmore⟩ := hshort
    rw [← hmore, List.prefix_append_right_inj] at hprefix
    cases more with
    | nil => exact h (hmore ▸ by simp)
    | cons c =>
      have hc : c = '`' := (List.cons_prefix_cons.mp hprefix).1
      have hmem : '`' ∈ tag := hmore ▸ hc ▸ by simp
      exact absurd hmem (by decide)

theorem cut?_taggedFence_fence (h : ∀ count < 3, ¬ List.replicate count '`' ++ tag <+: text) :
    cut? taggedFence (fence ++ text) =
      (cut? taggedFence text).map fun (before, after) => (fence ++ before, after) := by
  refine cut?_append_of_no_start fun part hne hpart hprefix => ?_
  have hparts : part = ['`', '`', '`'] ∨ part = ['`', '`'] ∨ part = ['`'] := by
    simpa [fence, List.suffix_cons_iff, hne] using hpart
  rw [taggedFence_eq] at hprefix
  rcases hparts with rfl | rfl | rfl
  · exact h 0 (by decide) (by simpa [fence] using hprefix)
  · exact h 1 (by decide) (by simpa [fence] using hprefix)
  · exact h 2 (by decide) (by simpa [fence] using hprefix)

theorem not_infix_closing {after : List Char} (hfence : '`' ∉ after) (htag : ¬ tag <+: after) :
    ¬ taggedFence <:+: fence ++ after := by
  have hnone : cut? taggedFence after = none := by
    rw [cut?_eq_none_iff]
    exact fun hinside => hfence (hinside.subset (by decide))
  rw [← cut?_eq_none_iff, cut?_taggedFence_fence, hnone]
  · rfl
  · intro count hcount hstart
    match count with
    | 0 => exact htag hstart
    | count + 1 => exact hfence (hstart.subset (by simp [List.replicate_succ]))

section

variable {document before after : List Char}

theorem cut?_document (hdocument : Fenceable document) (tagging rest : List Char) :
    cut? (fence ++ tagging) (document ++ rest) =
      (cut? (fence ++ tagging) rest).map fun (before, after) => (document ++ before, after) :=
  cut?_append_of_no_start (no_start_of_no_fence hdocument.no_fence hdocument.last tagging rest)

theorem not_infix_document_closing (hdocument : Fenceable document) (hprose : Prose before after) :
    ¬ taggedFence <:+: document ++ (fence ++ after) := by
  have hnone := not_infix_closing hprose.no_fence_after hprose.untagged
  rw [← cut?_eq_none_iff] at hnone ⊢
  rw [taggedFence_eq] at hnone ⊢
  rw [cut?_document hdocument, hnone]
  rfl

theorem upTo_document_closing (hdocument : Fenceable document) (after : List Char) :
    upTo fence (document ++ (fence ++ after)) = document := by
  have hcut := cut?_document hdocument [] (fence ++ after)
  simpa using upTo_of_cut? hcut

theorem cut?_prose (hbefore : '`' ∉ before) (tagging rest : List Char) :
    cut? (fence ++ tagging) (before ++ (fence ++ tagging ++ rest)) = some (before, rest) := by
  have hbehind : cut? (fence ++ tagging) (before ++ (fence ++ tagging ++ rest)) =
      (cut? (fence ++ tagging) (fence ++ tagging ++ rest)).map fun (front, after) =>
        (before ++ front, after) := cut?_append_of_not_mem hbefore _
  rw [hbehind, cut?_append (by simp [fence])]
  simp

theorem fenced?_tagged (hdocument : Fenceable document) (hprose : Prose before after) :
    fenced? taggedFence (before ++ (taggedFence ++ (document ++ (fence ++ after)))) =
      some document := by
  have hcut : cut? taggedFence (before ++ (taggedFence ++ (document ++ (fence ++ after)))) =
      some (before, document ++ (fence ++ after)) := cut?_prose hprose.no_fence_before tag _
  rw [fenced?_of_cut? taggedFence_ne_nil hcut,
    upTo_of_not_infix (not_infix_document_closing hdocument hprose), upTo_document_closing hdocument]

theorem not_tag_behind_opening (hdocument : Fenceable document) (after : List Char) :
    ∀ count < 3, ¬ List.replicate count '`' ++ tag <+: document ++ (fence ++ after) := by
  intro count hcount hprefix
  match count with
  | 0 => exact not_tag_prefix_append hdocument.untagged after (by simpa using hprefix)
  | count + 1 =>
    cases document with
    | cons c =>
      have hc : '`' = c := (List.cons_prefix_cons.mp hprefix).1
      exact hdocument.first (hc ▸ rfl)
    | nil =>
      match count with
      | 0 => simp [fence, tag, List.replicate_succ] at hprefix
      | 1 => simp [fence, tag, List.replicate_succ] at hprefix
      | _ + 2 => omega

theorem fenced?_taggedFence_plain (hdocument : Fenceable document) (hprose : Prose before after) :
    fenced? taggedFence (before ++ (fence ++ (document ++ (fence ++ after)))) = none := by
  have hclosing := not_infix_document_closing hdocument hprose
  have hbehind : cut? taggedFence (before ++ (fence ++ (document ++ (fence ++ after)))) =
      (cut? taggedFence (fence ++ (document ++ (fence ++ after)))).map fun (front, rest) =>
        (before ++ front, rest) := cut?_append_of_not_mem hprose.no_fence_before _
  rw [← cut?_eq_none_iff] at hclosing
  rw [fenced?_eq_none_iff taggedFence_ne_nil, ← cut?_eq_none_iff, hbehind,
    cut?_taggedFence_fence (not_tag_behind_opening hdocument after), hclosing]
  rfl

theorem fenced?_plain (hdocument : Fenceable document) (hbefore : '`' ∉ before) (after : List Char) :
    fenced? fence (before ++ (fence ++ (document ++ (fence ++ after)))) = some document := by
  have hcut : cut? fence (before ++ (fence ++ (document ++ (fence ++ after)))) =
      some (before, document ++ (fence ++ after)) := by
    simpa using cut?_prose hbefore [] (document ++ (fence ++ after))
  rw [fenced?_of_cut? fence_ne_nil hcut, upTo_document_closing hdocument,
    upTo_of_not_infix hdocument.no_fence]

theorem payload_bare (hfence : ¬ fence <:+: document) : payload document = trim Text.isBlank document := by
  have htagged : ¬ taggedFence <:+: document := fun hinside =>
    hfence ((List.prefix_append fence tag).isInfix.trans hinside)
  rw [payload, (fenced?_eq_none_iff taggedFence_ne_nil _).mpr htagged,
    (fenced?_eq_none_iff fence_ne_nil _).mpr hfence]
  rfl

theorem payload_tagged (hdocument : Fenceable document) (hprose : Prose before after) :
    payload (before ++ (taggedFence ++ (document ++ (fence ++ after)))) = payload document := by
  rw [payload_bare hdocument.no_fence, payload, fenced?_tagged hdocument hprose]
  rfl

theorem payload_plain (hdocument : Fenceable document) (hprose : Prose before after) :
    payload (before ++ (fence ++ (document ++ (fence ++ after)))) = payload document := by
  rw [payload_bare hdocument.no_fence, payload, fenced?_taggedFence_plain hdocument hprose,
    fenced?_plain hdocument hprose.no_fence_before]
  rfl

end

/-! ## Test cases in a reply -/

theorem casesInReply_eq (reply : String) :
    casesInReply reply =
      (Json.parse (String.ofList (payload reply.toList)) >>= casesOf).toOption.getD [] := by
  unfold casesInReply
  split
  · next cases hcases => rw [hcases]; rfl
  · next fault hfault => rw [hfault]; rfl

/-- A document without fences in it gives the same test cases bare, between tagged fences
and between plain ones, whatever prose without backticks stands around these: the test
cases that the document holds, and none if it holds no list of them. -/
theorem casesInReply_fenced {before document after : String} (hdocument : Fenceable document.toList)
    (hprose : Prose before.toList after.toList) :
    casesInReply (before ++ "```json" ++ document ++ "```" ++ after) = casesInReply document ∧
      casesInReply (before ++ "```" ++ document ++ "```" ++ after) = casesInReply document ∧
      casesInReply document = (Json.parse (Text.strip document) >>= casesOf).toOption.getD [] := by
  have htagged : (before ++ "```json" ++ document ++ "```" ++ after).toList =
      before.toList ++ (taggedFence ++ (document.toList ++ (fence ++ after.toList))) := by
    simp [taggedFence, fence]
  have hplain : (before ++ "```" ++ document ++ "```" ++ after).toList =
      before.toList ++ (fence ++ (document.toList ++ (fence ++ after.toList))) := by
    simp [fence]
  simp only [casesInReply_eq]
  refine ⟨?_, ?_, ?_⟩
  · rw [htagged, payload_tagged hdocument hprose]
  · rw [hplain, payload_plain hdocument hprose]
  · rw [payload_bare hdocument.no_fence]
    rfl

def menuDocument : String :=
  "\n[\x7b\"test_id\": \"t1\", \"name\": \"a ``menu``\", \"description\": \"\", \"steps\": []\x7d]\n"

/-- A document with backticks, between fences and with prose around them. -/
theorem casesInReply_fenced_menu :
    Fenceable menuDocument.toList ∧ Prose "The tests: ".toList " That is all.".toList ∧
      casesInReply ("The tests: " ++ "```json" ++ menuDocument ++ "```" ++ " That is all.") =
        casesInReply menuDocument ∧
      casesInReply ("The tests: " ++ "```" ++ menuDocument ++ "```" ++ " That is all.") =
        casesInReply menuDocument ∧
      (casesInReply menuDocument).map TestCase.name = ["a ``menu``"] := by
  have hdocument : Fenceable menuDocument.toList :=
    ⟨(cut?_eq_none_iff _ _).mp (by decide +kernel), by decide, by decide, by decide⟩
  have hprose : Prose "The tests: ".toList " That is all.".toList :=
    ⟨by decide, by decide, by decide⟩
  obtain ⟨htagged, hplain, -⟩ := casesInReply_fenced hdocument hprose
  exact ⟨hdocument, hprose, htagged, hplain, by decide +kernel⟩

end Sitecheck.Generate
