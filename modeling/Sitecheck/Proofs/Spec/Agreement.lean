import Mathlib.Data.Set.Basic
import Sitecheck.Analyze.Element
import Sitecheck.Proofs.Except
import Sitecheck.Proofs.Spec.Layout

/-!
# Locators that find the element they are made for

The selector of an element and its strategy are told by the page it stands on,
and a step that is done to the element is compiled to a statement with a locator.
A locator by label finds the elements with that label exactly if the label is
written as it is and not taken for an old form of a selector.  A locator by test id
finds other elements than those with the test id: the selector of such an element is
a style rule, and the rule as a whole is taken for the id.
-/

namespace Sitecheck.Spec

variable {back text front : List Char} {step : Step} {selector kind : String} {strategy : Strategy}
  {value : Option String} {node : Node} {element : Element}

open Script

/-! ## Literals that are read beyond their end -/

namespace Script

variable {text rest used raw : List Char} {units : List Nat}

theorem count_quote_charUnits (c : Char) :
    (charUnits c).count 39 = if c = '\'' then 1 else 0 := by
  unfold charUnits Json.units
  by_cases hquote : c = '\''
  · subst hquote
    rfl
  · have hcode : c.toNat ≠ 39 := fun h => hquote (Char.toNat_inj.mp (h.trans rfl))
    split
    · simp [hcode]
    · have hhigh : 0xd800 + (c.toNat - 0x10000) / 1024 ≠ 39 := by omega
      have hlow : 0xdc00 + (c.toNat - 0x10000) % 1024 ≠ 39 := by omega
      simp [hhigh, hlow]

theorem count_quote_textUnits (text : List Char) :
    (textUnits text).count 39 = text.count '\'' := by
  induction text with
  | nil => rfl
  | cons c text ih =>
    rw [textUnits_cons, List.count_append, count_quote_charUnits, ih, List.count_cons]
    simp only [beq_iff_eq]
    omega

/-- The characters are read as the units: each quote as one, and with a backslash
before it. -/
structure Quotes (used : List Char) (units : List Nat) : Prop where
  kept : used.count '\'' ≤ units.count 39
  spare : units.length + used.count '\'' ≤ (textUnits used).length

theorem Quotes.append {used' : List Char} {units' : List Nat} (h : Quotes used units)
    (h' : Quotes used' units') : Quotes (used ++ used') (units ++ units') := by
  have hkept := h.kept
  have hkept' := h'.kept
  have hspare := h.spare
  have hspare' := h'.spare
  constructor
  · simp only [List.count_append]
    omega
  · simp only [List.count_append, textUnits_append, List.length_append]
    omega

theorem quotes_char {c : Char} (h : c ≠ '\'') : Quotes [c] (charUnits c) where
  kept := by simp [h]
  spare := by simp [h]

theorem quotes_of_escape? (h : escape? text = some (units, rest)) :
    text = '\'' :: rest ∧ units = [39] ∨
      ∃ used, text = used ++ rest ∧ '\'' ∉ used ∧ Quotes ('\\' :: used) units := by
  have hslash : (charUnits '\\').length = 1 := rfl
  have hquotes {used : List Char} (hquote : '\'' ∉ used)
      (hroom : units.length ≤ (textUnits used).length + 1) : Quotes ('\\' :: used) units := by
    have hnone : ('\\' :: used).count '\'' = 0 := List.count_eq_zero.mpr (by simpa using hquote)
    refine ⟨by omega, ?_⟩
    simp only [hnone, textUnits_cons, List.length_append]
    omega
  rcases escape?_cases h with ⟨c, rfl | rfl, rfl, rfl⟩ | ⟨used, rfl, hquote, hroom⟩
  · exact Or.inl ⟨rfl, rfl⟩
  · exact Or.inr ⟨['\\'], rfl, by simp, hquotes (by simp) (by decide)⟩
  · exact Or.inr ⟨used, rfl, hquote, hquotes hquote (by omega)⟩

theorem quotes_of_overrun {tail : List Char}
    (h : literal? (raw ++ '\'' :: tail) = some (units, rest)) (hover : rest.length < tail.length) :
    ∃ front read more, raw = front ++ ['\\'] ∧ units = read ++ 39 :: more ∧ Quotes front read := by
  generalize htext : raw ++ '\'' :: tail = text at h
  fun_induction literal? text generalizing raw units rest with
  | case1 => cases h
  | case2 =>
    cases h
    have hlength := congrArg List.length htext
    simp only [List.length_append, List.length_cons] at hlength
    omega
  | case3 => cases h
  | case4 text front after hescape hquote ih =>
    obtain ⟨⟨more, rest'⟩, hread, heq⟩ := Option.map_eq_some_iff.mp h
    cases heq
    cases raw with
    | nil => simp at htext
    | cons c raw =>
      simp only [List.cons_append, List.cons.injEq] at htext
      obtain ⟨rfl, rfl⟩ := htext
      rcases quotes_of_escape? hescape with ⟨heq, rfl⟩ | ⟨used, heq, hused, hquotes⟩
      · cases raw with
        | nil => exact ⟨[], [], more, rfl, rfl, ⟨by simp, by simp⟩⟩
        | cons =>
          obtain ⟨rfl, rfl⟩ := heq
          obtain ⟨front, read, more', rfl, rfl, hfront⟩ := ih hover rfl hread
          have hquote : Quotes ['\\', '\''] [39] := ⟨by decide, by decide⟩
          exact ⟨_, _, more', rfl, rfl, hquote.append hfront⟩
      · -- the escape ends before the quote, which is not part of it
        obtain ⟨raw', rfl, rfl⟩ : ∃ raw', raw = used ++ raw' ∧ after = raw' ++ '\'' :: tail := by
          rcases List.append_eq_append_iff.mp heq with ⟨part, rfl, hpart⟩ | ⟨part, rfl, hpart⟩
          · cases part with
            | nil => exact ⟨[], by simp, by simpa using hpart.symm⟩
            | cons =>
              obtain ⟨rfl, -⟩ := hpart
              exact absurd (by simp) hused
          · exact ⟨part, rfl, hpart⟩
        obtain ⟨front', read, more', rfl, rfl, hfront⟩ := ih hover rfl hread
        exact ⟨_, _, more', by simp, by simp, hquotes.append hfront⟩
  | case5 => cases h
  | case6 c text hquote hbackslash hbreak ih =>
    obtain ⟨⟨more, rest'⟩, hread, heq⟩ := Option.map_eq_some_iff.mp h
    cases heq
    cases raw with
    | nil =>
      simp only [List.nil_append, List.cons.injEq] at htext
      exact absurd htext.1.symm hquote
    | cons =>
      obtain ⟨rfl, rfl⟩ := htext
      obtain ⟨front, read, more', rfl, rfl, hfront⟩ := ih hover rfl hread
      exact ⟨_, _, more', rfl, by simp, (quotes_char hquote).append hfront⟩

/-- A text that leaves no room to spare, and is read as a value no further than to
the quote behind it, is that value, escaped. -/
theorem eq_escaped_of_literal? {value after : List Char}
    (hroom : 2 * (textUnits raw).length ≤ 2 * (textUnits value).length + marks raw)
    (h : literal? (raw ++ '\'' :: rest) = some (textUnits value, after))
    (hover : rest.length ≤ after.length) :
    raw = escaped value ∧ ∀ c ∈ value, isBreak c = false := by
  obtain ⟨body, heq, hbody⟩ := tight_or_loose h
  have hspare := room_of_tight_or_loose hbody
  obtain ⟨part, rfl, hpart⟩ : ∃ part, raw = body ++ part ∧ '\'' :: after = part ++ '\'' :: rest := by
    rcases List.append_eq_append_iff.mp heq with ⟨part, rfl, hpart⟩ | ⟨part, rfl, hpart⟩
    · have hlength := congrArg List.length hpart
      simp only [List.length_append, List.length_cons] at hlength
      obtain rfl : part = [] := List.length_eq_zero_iff.mp (by omega)
      exact ⟨[], by simp, by simpa using hpart.symm⟩
    · exact ⟨part, rfl, hpart⟩
  have hmarks := marks_le_length part
  have hunits := length_le_textUnits part
  simp only [textUnits_append, List.length_append, marks_append] at hroom
  obtain rfl : part = [] := List.length_eq_zero_iff.mp (by omega)
  obtain rfl : rest = after := by simpa using hpart.symm
  rw [List.append_nil] at h ⊢
  exact (literal?_eq_some_iff_escaped hroom rest).mp h

end Script

/-! ## Selectors that are read back as they were given -/

theorem count_quotesEscaped (text : List Char) :
    (quotesEscaped text).count '\'' = text.count '\'' := by
  induction text with
  | nil => rfl
  | cons c text ih =>
    by_cases hquote : c = '\''
    · subst hquote
      simp [ih]
    · rw [quotesEscaped_cons hquote, List.count_cons_of_ne hquote, List.count_cons_of_ne hquote, ih]

theorem length_textUnits_quotesEscaped (text : List Char) :
    (textUnits (quotesEscaped text)).length = (textUnits text).length + text.count '\'' := by
  induction text with
  | nil => rfl
  | cons c text ih =>
    by_cases hquote : c = '\''
    · subst hquote
      have hslash : (charUnits '\\').length = 1 := rfl
      simp only [quotesEscaped_quote, textUnits_cons, List.length_append, List.count_cons_self, ih]
      omega
    · rw [quotesEscaped_cons hquote, List.count_cons_of_ne hquote]
      simp only [textUnits_cons, List.length_append, ih]
      omega

theorem prefix_quotesEscaped {found : List Char} (h : quotesEscaped text = found ++ back) :
    ∃ inner rest, text = inner ++ rest ∧
      (found = quotesEscaped inner ∨ found = quotesEscaped inner ++ ['\\']) := by
  induction text generalizing found with
  | nil =>
    obtain ⟨rfl, -⟩ := List.append_eq_nil_iff.mp h.symm
    exact ⟨[], [], rfl, Or.inl rfl⟩
  | cons c text ih =>
    cases found with
    | nil => exact ⟨[], c :: text, rfl, Or.inl rfl⟩
    | cons d found =>
      by_cases hquote : c = '\''
      · subst hquote
        simp only [quotesEscaped_quote, List.cons_append, List.cons.injEq] at h
        obtain ⟨rfl, h⟩ := h
        cases found with
        | nil => exact ⟨[], '\'' :: text, rfl, Or.inr rfl⟩
        | cons =>
          simp only [List.cons_append, List.cons.injEq] at h
          obtain ⟨rfl, h⟩ := h
          obtain ⟨inner, rest, rfl, hfound⟩ := ih h
          refine ⟨'\'' :: inner, rest, rfl, ?_⟩
          rcases hfound with rfl | rfl
          · exact Or.inl rfl
          · exact Or.inr rfl
      · rw [quotesEscaped_cons hquote] at h
        simp only [List.cons_append, List.cons.injEq] at h
        obtain ⟨rfl, h⟩ := h
        obtain ⟨inner, rest, rfl, hfound⟩ := ih h
        refine ⟨c :: inner, rest, rfl, ?_⟩
        rw [quotesEscaped_cons hquote]
        rcases hfound with rfl | rfl
        · exact Or.inl rfl
        · exact Or.inr rfl

/-- The opening of an old form, without quotes of its own. -/
structure IsOpening (front : List Char) : Prop where
  long : 2 ≤ front.length
  quote : '\'' ∉ front

/-- What is written for a selector is the selector with its quotes escaped, or for
an old form a part of it that stands behind the opening. -/
theorem written_part (selector : List Char) :
    written selector = quotesEscaped selector ∨
      ∃ front inner back, selector = front ++ (inner ++ back) ∧ IsOpening front ∧
        (written selector = quotesEscaped inner ∨
          written selector = quotesEscaped inner ++ ['\\']) := by
  have hopened := after?_linkOpening_quotesEscaped selector
  cases hlink : Locator.linkText? (quotesEscaped selector) with
  | none =>
    have hafter : Chars.after? textOpening (quotesEscaped selector) =
        (Chars.after? textOpening selector).map quotesEscaped :=
      after?_quotesEscaped (by simp [textOpening]) selector
    unfold written normalized
    rw [hlink, hafter]
    cases hopening : Chars.after? textOpening selector with
    | none => exact Or.inl rfl
    | some text =>
      refine Or.inr ⟨textOpening, text, [], ?_, ⟨by decide, by decide⟩, Or.inl rfl⟩
      simpa using Chars.eq_append_of_after? hopening
  | some =>
    refine Or.inr ?_
    rw [written, normalized_of_link hlink]
    cases hopening : Chars.after? linkOpening selector with
    | none =>
      rw [hopening] at hopened
      rw [linkText?_of_no_opening hopened] at hlink
      cases hlink
    | some text =>
      obtain rfl : selector = linkOpening ++ text := Chars.eq_append_of_after? hopening
      rcases text with _ | ⟨mark, text⟩
      · cases hlink
      by_cases hquote : mark = '\''
      · -- an escaped quote does not open the text of a link
        subst hquote
        have hnone := linkText?_opening '\\' ('\'' :: quotesEscaped text)
        exact absurd (hlink.symm.trans hnone) (by simp [Locator.isQuote])
      · have hescaped : quotesEscaped (linkOpening ++ mark :: text) =
            linkOpening ++ mark :: quotesEscaped text := by
          rw [quotesEscaped_append, quotesEscaped_cons hquote]
          rfl
        rw [hescaped, linkText?_opening] at hlink
        split at hlink
        · obtain ⟨-, back, hback⟩ := prefix_of_quotedText? hlink
          obtain ⟨inner, rest, rfl, hfound⟩ := prefix_quotesEscaped hback
          refine ⟨linkOpening ++ [mark], inner, rest, by simp, ⟨by simp [linkOpening], ?_⟩, hfound⟩
          simp [linkOpening, Ne.symm hquote]
        · cases hlink

theorem written_eq_escaped_iff (selector : List Char) :
    written selector = escaped selector ↔
      written selector = quotesEscaped selector ∧ '\\' ∉ selector := by
  constructor
  · intro h
    rcases written_part selector with hraw | ⟨front, inner, back, hselector, hfront, hraw⟩
    · exact ⟨hraw, (quotesEscaped_eq_escaped_iff selector).mp (hraw.symm.trans h)⟩
    · have hlong := hfront.long
      have hlength := congrArg List.length h
      rw [length_escaped, length_quotesEscaped] at hlength
      rcases hraw with hraw | hraw <;> rw [hraw] at hlength <;>
        simp only [hselector, List.length_append, List.length_cons, List.length_nil,
          List.count_append, length_quotesEscaped] at hlength <;>
        omega
  · rintro ⟨hraw, hslash⟩
    rw [hraw]
    exact (quotesEscaped_eq_escaped_iff selector).mpr hslash

private theorem eq_of_quotesEscaped_concat (h : quotesEscaped text = front ++ ['\\']) :
    ∃ inner, text = inner ++ ['\\'] ∧ front = quotesEscaped inner := by
  rcases List.eq_nil_or_concat text with rfl | ⟨inner, c, rfl⟩
  · simp at h
  · rw [List.concat_eq_append] at h ⊢
    rw [quotesEscaped_append] at h
    by_cases hquote : c = '\''
    · subst hquote
      have hlast := congrArg List.getLast? h
      simp at hlast
    · rw [quotesEscaped_cons hquote, quotesEscaped_nil] at h
      obtain ⟨hfront, hlast⟩ := List.append_inj' h rfl
      cases hlast
      exact ⟨inner, rfl, hfront.symm⟩

/-- The quote behind a part of a value is not passed: it would be one quote more than
the value has up to there. -/
private theorem no_overrun {value inner raw rest after : List Char}
    (hvalue : value = front ++ (inner ++ back)) (hquote : '\'' ∉ front)
    (hraw : raw = quotesEscaped inner ∨ raw = quotesEscaped inner ++ ['\\'] ∧ front ≠ [])
    (h : literal? (raw ++ '\'' :: rest) = some (textUnits value, after)) :
    rest.length ≤ after.length := by
  by_contra hover
  obtain ⟨passed, read, more, hpassed, hunits, hquotes⟩ := quotes_of_overrun h (by omega)
  have hspare := hquotes.spare
  have hkept := hquotes.kept
  have hfront := length_le_textUnits front
  have hcount : passed.count '\'' = inner.count '\'' ∧
      read.length + 1 ≤ (textUnits (front ++ inner)).length := by
    rcases hraw with hraw | ⟨hraw, hne⟩
    · obtain ⟨inner', rfl, rfl⟩ := eq_of_quotesEscaped_concat (hraw.symm.trans hpassed)
      have hslash : (charUnits '\\').length = 1 := rfl
      rw [count_quotesEscaped, length_textUnits_quotesEscaped] at hspare
      refine ⟨by simp [count_quotesEscaped], ?_⟩
      simp only [textUnits_append, textUnits_cons, textUnits_nil, List.length_append,
        List.length_nil]
      omega
    · obtain rfl : passed = quotesEscaped inner := List.append_cancel_right (hpassed.symm.trans hraw)
      have hpos := List.length_pos_iff.mpr hne
      rw [count_quotesEscaped, length_textUnits_quotesEscaped] at hspare
      refine ⟨count_quotesEscaped inner, ?_⟩
      simp only [textUnits_append, List.length_append]
      omega
  have hread : read ++ [39] <+: textUnits value := ⟨more, by simp [hunits]⟩
  have hpart : textUnits (front ++ inner) <+: textUnits value :=
    ⟨textUnits back, by simp [hvalue]⟩
  have hprefix := List.prefix_of_prefix_length_le hread hpart (by simpa using hcount.2)
  have hmore := hprefix.sublist.count_le 39
  have hnone := List.count_eq_zero.mpr hquote
  rw [count_quote_textUnits, List.count_append, List.count_append, List.count_singleton_self] at hmore
  omega

/-- A selector is read back as it was given, whatever stands behind it, exactly if it
is written as it is, has no backslash and is on one line. -/
theorem literal?_written_self_iff (selector rest after : List Char) :
    literal? (written selector ++ '\'' :: rest) = some (textUnits selector, after) ↔
      after = rest ∧ written selector = quotesEscaped selector ∧
        ∀ c ∈ selector, c ≠ '\\' ∧ isBreak c = false := by
  constructor
  · intro h
    have hescaped : written selector = escaped selector ∧ ∀ c ∈ selector, isBreak c = false := by
      rcases written_part selector with hraw | ⟨front, inner, back, hselector, hfront, hraw⟩
      · have hroom := two_mul_textUnits_quotesEscaped selector
        have hself : selector = [] ++ (selector ++ []) := by simp
        exact eq_escaped_of_literal? (by rw [hraw]; omega) h
          (no_overrun hself (by simp) (Or.inl hraw) h)
      · have hroom := two_mul_textUnits_quotesEscaped inner
        have hlong := hfront.long
        have hunits := length_le_textUnits front
        have hne : front ≠ [] := List.length_pos_iff.mp (by omega)
        refine eq_escaped_of_literal? ?_ h (no_overrun hselector hfront.quote ?_ h)
        · have hslash : (charUnits '\\').length = 1 := rfl
          rcases hraw with hraw | hraw <;> rw [hraw, hselector] <;>
            simp only [textUnits_append, textUnits_cons, textUnits_nil, List.length_append,
              marks_append, List.length_nil] <;>
            omega
        · exact hraw.imp_right fun hraw => ⟨hraw, hne⟩
    obtain ⟨hraw, hbreak⟩ := hescaped
    obtain ⟨hwritten, hslash⟩ := (written_eq_escaped_iff selector).mp hraw
    rw [hraw, literal?_escaped_append hbreak, literal?_quote] at h
    simp only [Option.map_some, Option.some.injEq, Prod.mk.injEq] at h
    exact ⟨h.2.symm, hwritten, fun c hc => ⟨fun heq => hslash (heq ▸ hc), hbreak c hc⟩⟩
  · rintro ⟨rfl, hraw, hplain⟩
    have hescaped := (written_eq_escaped_iff selector).mpr ⟨hraw, fun hc => (hplain _ hc).1 rfl⟩
    rw [hescaped, literal?_escaped_append fun c hc => (hplain c hc).2, literal?_quote]
    simp

/-! ## What a locator looks for -/

/-- What a locator of a script looks for, in UTF-16 units. -/
inductive Sought where
  | testId (value : List Nat)
  | label (value : List Nat)
  | text (value : List Nat)
  | rule (value : List Nat)

/-- How a browser tells which nodes have a label, show a text or match a rule. -/
structure Sight where
  labelled : List Nat → Set Node
  shows : List Nat → Set Node
  fits : List Nat → Set Node

def Sought.nodes (sight : Sight) : Sought → Set Node
  | .testId value =>
    {node | ∃ id, Fields.get? "data-testid" node.attributes = some id ∧ textUnits id.toList = value}
  | .label value => sight.labelled value
  | .text value => sight.shows value
  | .rule value => sight.fits value

/-- The units of a literal that is the only argument of a call. -/
def argument? (code : List Char) : Option (List Nat) := do
  let (units, rest) ← literalAt? code
  if rest.head? = some ')' then some units else none

def soughtAt? (code : List Char) : Option Sought :=
  match Chars.after? "page.getByTestId(".toList code with
  | some inner => (argument? inner).map .testId
  | none =>
    match Chars.after? "page.getByLabel(".toList code with
    | some inner => (argument? inner).map .label
    | none =>
      match Chars.after? "page.getByText(".toList code with
      | some inner => (argument? inner).map .text
      | none => ((Chars.after? "page.locator(".toList code).bind argument?).map .rule

/-- What the locator of a statement looks for: it stands at the front, or there in the
brackets of an expectation. -/
def sought? (statement : String) : Option Sought :=
  (Chars.after? "    await ".toList statement.toList).bind fun code =>
    soughtAt? ((Chars.after? "expect(".toList code).getD code)

theorem nodes_eq_labelled_iff (sought : Sought) (units : List Nat) :
    (∀ sight, sought.nodes sight = sight.labelled units) ↔ sought = .label units := by
  constructor
  · intro h
    -- a browser for which only this label is one, and one for which there is no label
    have hself : default ∈ sought.nodes ⟨fun value => {_node | value = units}, fun _ => ∅, fun _ => ∅⟩ := by
      rw [h]
      exact rfl
    have hnone : default ∉ sought.nodes ⟨fun _ => ∅, fun _ => ∅, fun _ => ∅⟩ := by
      rw [h]
      exact id
    cases sought with
    | testId => exact absurd hself hnone
    | label => exact congrArg Sought.label hself
    | text | rule => exact absurd hself hnone
  · rintro rfl sight
    rfl

def onElement : ActionKind → Bool
  | .click | .fill | .select | .submit | .hover | .check | .uncheck | .expect => true
  | .navigate | .goto | .goBack | .reload | .wait => false

/-- The statement of the step looks for its element: an expectation of the title does not,
and one that lacks its value is left out. -/
def Looks (step : Step) : Prop :=
  step.action = .expect →
    Text.lower (step.selector.getD "") ≠ "title" ∧
      (plainAssertions.contains ((firstText step.assertion none).getD "toBeVisible") = true ∨
        (firstText step.value none).isSome = true)

private theorem toList_await (code rest : String) :
    ("    await " ++ (code ++ rest)).toList =
      "    await ".toList ++ ([] ++ (code.toList ++ rest.toList)) := by
  simp

private theorem toList_await_expect (code rest : String) :
    ("    await expect(" ++ (code ++ rest)).toList =
      "    await ".toList ++ ("expect(".toList ++ (code.toList ++ rest.toList)) := by
  simp

theorem exists_statement_of_looks (haction : onElement step.action = true) (hlooks : Looks step)
    (timeout : Json) :
    ∃ lead tail, (lead = [] ∨ lead = "expect(".toList) ∧
      (statement step timeout).toList =
        "    await ".toList ++ (lead ++ ((target step).toList ++ tail)) := by
  cases hkind : step.action with
  | expect =>
    obtain ⟨htitle, hvalue⟩ := hlooks hkind
    simp only [statement, hkind, expectCode, beq_iff_eq, htitle, if_false, expectTarget]
    split
    · simp only [String.append_assoc]
      exact ⟨_, _, Or.inr rfl, toList_await_expect _ _⟩
    · next hassertion =>
      obtain ⟨value, hvalue⟩ := Option.isSome_iff_exists.mp (hvalue.resolve_left hassertion)
      simp only [hvalue, String.append_assoc]
      exact ⟨_, _, Or.inr rfl, toList_await_expect _ _⟩
  | navigate | goto | goBack | reload | wait => simp [onElement, hkind] at haction
  | _ =>
    simp only [statement, hkind, String.append_assoc]
    exact ⟨_, _, Or.inl rfl, toList_await _ _⟩

theorem sought?_of_not_looks (hlooks : ¬ Looks step) (timeout : Json) :
    sought? (statement step timeout) = none := by
  obtain ⟨hkind, hnone⟩ := Classical.not_imp.mp hlooks
  simp only [statement, hkind, expectCode]
  split
  · unfold expectTitle
    split
    · simp only [sought?, String.toList_append]
      with_unfolding_all rfl
    · rfl
  · next htitle =>
    obtain ⟨hassertion, hvalue⟩ := not_or.mp fun hsome => hnone ⟨by simpa using htitle, hsome⟩
    have hvalue : firstText step.value none = none := by simpa using hvalue
    simp only [sought?, expectTarget, hassertion, hvalue, Bool.false_eq_true, if_false, comment,
      String.toList_append]
    with_unfolding_all rfl

/-! ## The locator of a selector -/

def Sought.by : Strategy → List Nat → Sought
  | .testId => .testId
  | .ariaLabel => .label
  | .text => .text
  | .css => .rule
  | .xpath => .rule

theorem soughtAt?_locatorStart (strategy : Strategy) (inner : List Char) :
    soughtAt? ((locatorStart strategy).toList ++ inner) =
      (argument? inner).map (Sought.by strategy) := by
  cases strategy <;> with_unfolding_all rfl

theorem toList_target (hselector : step.selector = some selector) (hne : selector ≠ "")
    (hstrategy : step.strategy = some strategy) :
    ∃ tail, (target step).toList =
      (locatorStart strategy).toList ++
        '\'' :: (written selector.toList ++ '\'' :: ')' :: tail) := by
  have hend : ∃ tail, (locatorEnd strategy).toList = ')' :: tail := by
    cases strategy <;> exact ⟨_, rfl⟩
  have hfirst : firstText (some selector) none = some selector := by simp [firstText, hne]
  obtain ⟨tail, htail⟩ := hend
  simp [target, hselector, hfirst, hstrategy, Locator.ofSelector, code_ofStrategy, literal,
    toList_normalize, toList_escapeQuotes, written, htail]

theorem exists_sought? (hselector : step.selector = some selector) (hne : selector ≠ "")
    (hstrategy : step.strategy = some strategy) (haction : onElement step.action = true)
    (hlooks : Looks step) (timeout : Json) :
    ∃ tail, sought? (statement step timeout) =
      (argument? ('\'' :: (written selector.toList ++ '\'' :: ')' :: tail))).map
        (Sought.by strategy) := by
  obtain ⟨lead, tail, hlead, hcode⟩ := exists_statement_of_looks haction hlooks timeout
  obtain ⟨tail', htarget⟩ := toList_target hselector hne hstrategy
  refine ⟨tail' ++ tail, ?_⟩
  have hstart : Chars.after? "expect(".toList ((target step).toList ++ tail) = none := by
    rw [htarget]
    cases strategy <;> simp [locatorStart, Chars.after?]
  have hcall : (Chars.after? "expect(".toList (lead ++ ((target step).toList ++ tail))).getD
      (lead ++ ((target step).toList ++ tail)) = (target step).toList ++ tail := by
    rcases hlead with rfl | rfl
    · rw [List.nil_append, hstart, Option.getD_none]
    · rw [Chars.after?_append, Option.getD_some]
  rw [sought?, hcode, Chars.after?_append, Option.bind_some, hcall, htarget]
  simp only [List.append_assoc, List.cons_append]
  exact soughtAt?_locatorStart strategy _

theorem argument?_eq_some_iff (text : List Char) (units : List Nat) :
    argument? ('\'' :: text) = some units ↔
      ∃ after, literal? text = some (units, after) ∧ after.head? = some ')' := by
  simp only [argument?, literalAt?, bind, Option.bind_eq_some_iff, Prod.exists, ite_eq_iff]
  grind

theorem argument?_written_iff (selector tail : List Char) :
    argument? ('\'' :: (written selector ++ '\'' :: ')' :: tail)) = some (textUnits selector) ↔
      written selector = quotesEscaped selector ∧
        ∀ c ∈ selector, c ≠ '\\' ∧ isBreak c = false := by
  rw [argument?_eq_some_iff]
  constructor
  · rintro ⟨after, hread, -⟩
    exact ((literal?_written_self_iff selector _ after).mp hread).2
  · intro h
    exact ⟨_, (literal?_written_self_iff selector _ _).mpr ⟨rfl, h⟩, rfl⟩

/-! ## Elements with a test id or a label -/

open Analyze

def ruleOpening : List Char :=
  ['[', 'd', 'a', 't', 'a', '-', 't', 'e', 's', 't', 'i', 'd', '=', '\'']

theorem plain_of_all (h : text.all (fun c => decide (c ≠ '\\' ∧ isBreak c = false)) = true) :
    ∀ c ∈ text, c ≠ '\\' ∧ isBreak c = false := by
  simpa only [List.all_eq_true, decide_eq_true_eq] using h

theorem plain_ruleOpening : ∀ c ∈ ruleOpening, c ≠ '\\' ∧ isBreak c = false :=
  plain_of_all (by decide)

theorem toList_rule (id : String) :
    ("[data-testid='" ++ id ++ "']").toList = ruleOpening ++ (id.toList ++ ['\'', ']']) := by
  simp [ruleOpening]

theorem written_rule (text : List Char) :
    written (ruleOpening ++ text) = quotesEscaped (ruleOpening ++ text) := rfl

theorem argument?_rule_ne (id tail : List Char) :
    argument? ('\'' :: (written (ruleOpening ++ (id ++ ['\'', ']'])) ++ '\'' :: ')' :: tail)) ≠
      some (textUnits id) := by
  intro h
  obtain ⟨after, hread, -⟩ := (argument?_eq_some_iff _ _).mp h
  rw [written_rule, literal?_quotesEscaped_append plain_ruleOpening] at hread
  obtain ⟨⟨more, after'⟩, hmore, hunits⟩ := Option.map_eq_some_iff.mp hread
  exact not_read_as_inner (by decide) plain_ruleOpening id _ _ after' more hmore
    (congrArg Prod.fst hunits).symm

theorem getAttribute_eq_ok {name : String} (h : node.getAttribute name = .ok value) :
    value = Fields.get? name node.attributes := by
  unfold Node.getAttribute answerUnless at h
  split at h
  · cases h
  · cases h
    rfl

theorem selector_of_element? (h : element? node kind = some element) :
    ∃ text, Analyze.selector node kind = .ok (element.selector, element.strategy, text) := by
  unfold element? at h
  split at h
  · next selector strategy text hselector =>
    cases h
    exact ⟨text, hselector⟩
  · cases h

theorem element?_of_testId {id : String} (h : element? node kind = some element)
    (hid : filled (Fields.get? "data-testid" node.attributes) = some id) :
    element.selector = "[data-testid='" ++ id ++ "']" ∧ element.strategy = .testId := by
  obtain ⟨text, hselector⟩ := selector_of_element? h
  obtain ⟨value, hvalue, hrest⟩ := bind_eq_ok_iff.mp hselector
  rw [getAttribute_eq_ok hvalue, hid] at hrest
  obtain ⟨content, -, hresult⟩ := bind_eq_ok_iff.mp hrest
  obtain ⟨hselector, hstrategy, -⟩ : _ = element.selector ∧ _ = element.strategy ∧ _ := by
    simpa only [Prod.mk.injEq] using Except.ok.inj hresult
  exact ⟨hselector.symm, hstrategy.symm⟩

theorem element?_of_label {label : String} (h : element? node kind = some element)
    (hid : filled (Fields.get? "data-testid" node.attributes) = none)
    (hlabel : filled (Fields.get? "aria-label" node.attributes) = some label) :
    element.selector = label ∧ element.strategy = .ariaLabel := by
  obtain ⟨text, hselector⟩ := selector_of_element? h
  obtain ⟨value, hvalue, hrest⟩ := bind_eq_ok_iff.mp hselector
  rw [getAttribute_eq_ok hvalue, hid] at hrest
  obtain ⟨value', hvalue', hrest⟩ := bind_eq_ok_iff.mp hrest
  rw [getAttribute_eq_ok hvalue', hlabel] at hrest
  obtain ⟨content, -, hresult⟩ := bind_eq_ok_iff.mp hrest
  obtain ⟨hselector, hstrategy, -⟩ : _ = element.selector ∧ _ = element.strategy ∧ _ := by
    simpa only [Prod.mk.injEq] using Except.ok.inj hresult
  exact ⟨hselector.symm, hstrategy.symm⟩

theorem eq_some_of_filled {text : String} (h : filled value = some text) :
    value = some text ∧ text ≠ "" := by
  obtain ⟨hvalue, hne⟩ := Option.filter_eq_some_iff.mp h
  exact ⟨hvalue, by simpa using hne⟩

theorem written_eq_quotesEscaped_iff (selector : String) :
    written selector.toList = quotesEscaped selector.toList ↔
      Locator.normalize (escapeQuotes selector) = escapeQuotes selector := by
  rw [← String.toList_inj, toList_normalize, toList_escapeQuotes, written]

section

variable {step : Step} (haction : onElement step.action = true) (timeout : Json)

include haction

theorem units_ne_of_rule {id : String} (hselector : step.selector = some ("[data-testid='" ++ id ++ "']"))
    (hstrategy : step.strategy = some .testId) {sought : Sought}
    (hsought : sought? (statement step timeout) = some sought) :
    ∃ units, sought = .testId units ∧ units ≠ textUnits id.toList := by
  by_cases hlooks : Looks step
  · obtain ⟨tail, hread⟩ := exists_sought? hselector (by simp [← String.toList_inj]) hstrategy haction
      hlooks timeout
    rw [hsought, toList_rule] at hread
    obtain ⟨units, hunits, rfl⟩ := Option.map_eq_some_iff.mp hread.symm
    refine ⟨units, rfl, ?_⟩
    rintro rfl
    exact argument?_rule_ne id.toList tail hunits
  · rw [sought?_of_not_looks hlooks] at hsought
    cases hsought

theorem sought?_of_rule {id : String} (hselector : step.selector = some ("[data-testid='" ++ id ++ "']"))
    (hstrategy : step.strategy = some .testId) (hlooks : Looks step)
    (hplain : ∀ c ∈ id.toList, c ≠ '\\' ∧ isBreak c = false) :
    sought? (statement step timeout) =
      some (.testId (textUnits ("[data-testid='" ++ id ++ "']").toList)) := by
  obtain ⟨tail, hread⟩ := exists_sought? hselector (by simp [← String.toList_inj]) hstrategy haction
    hlooks timeout
  have hrule : ∀ c ∈ ruleOpening ++ (id.toList ++ ['\'', ']']), c ≠ '\\' ∧ isBreak c = false := by
    simp only [List.mem_append]
    rintro c (hc | hc | hc)
    · exact plain_ruleOpening c hc
    · exact hplain c hc
    · rcases List.mem_pair.mp hc with rfl | rfl <;> decide
  rw [hread, toList_rule, (argument?_written_iff _ tail).mpr ⟨written_rule _, hrule⟩]
  rfl

theorem sought?_eq_label_iff {label : String} (hselector : step.selector = some label)
    (hne : label ≠ "") (hstrategy : step.strategy = some .ariaLabel) :
    sought? (statement step timeout) = some (.label (textUnits label.toList)) ↔
      Looks step ∧ (∀ c ∈ label.toList, c ≠ '\\' ∧ isBreak c = false) ∧
        Locator.normalize (escapeQuotes label) = escapeQuotes label := by
  by_cases hlooks : Looks step
  · obtain ⟨tail, hread⟩ := exists_sought? hselector hne hstrategy haction hlooks timeout
    rw [hread, ← written_eq_quotesEscaped_iff, and_comm (a := ∀ c ∈ label.toList, _),
      ← argument?_written_iff label.toList tail]
    simp [Sought.by, hlooks]
  · simp [sought?_of_not_looks hlooks, hlooks]

end

/-- The step is done to the element, with its selector and its strategy as they are. -/
structure DoneTo (step : Step) (element : Element) : Prop where
  selector : step.selector = some element.selector
  strategy : step.strategy = some element.strategy
  action : onElement step.action = true

/-- A step that is done to an element is compiled with the selector and the strategy of
the element.  If the element has a test id, the statement does not find it: what is
looked for is the whole rule for the test id.  If it has a label, the statement looks for
the nodes with that label exactly if there is something to look for, and the label has no
backslash and no line break and is not an old form of a selector. -/
theorem sought?_of_element {node : Node} {kind : String} {element : Element}
    (helement : element? node kind = some element) {step : Step} (hdone : DoneTo step element)
    (timeout : Json) :
    (∀ id, filled (Fields.get? "data-testid" node.attributes) = some id →
      (∀ sought, sought? (statement step timeout) = some sought →
        ∀ sight, node ∉ sought.nodes sight) ∧
      (Looks step → (∀ c ∈ id.toList, c ≠ '\\' ∧ isBreak c = false) →
        sought? (statement step timeout) =
          some (.testId (textUnits ("[data-testid='" ++ id ++ "']").toList)))) ∧
    (filled (Fields.get? "data-testid" node.attributes) = none →
      ∀ label, filled (Fields.get? "aria-label" node.attributes) = some label →
        ((∃ sought, sought? (statement step timeout) = some sought ∧
            ∀ sight, sought.nodes sight = sight.labelled (textUnits label.toList)) ↔
          Looks step ∧ (∀ c ∈ label.toList, c ≠ '\\' ∧ isBreak c = false) ∧
            Locator.normalize (escapeQuotes label) = escapeQuotes label)) := by
  obtain ⟨hselector, hstrategy, haction⟩ := hdone
  constructor
  · intro id hid
    obtain ⟨hrule, htestId⟩ := element?_of_testId helement hid
    rw [hrule] at hselector
    rw [htestId] at hstrategy
    refine ⟨?_, sought?_of_rule haction timeout hselector hstrategy⟩
    intro sought hsought sight hmem
    obtain ⟨units, rfl, hunits⟩ := units_ne_of_rule haction timeout hselector hstrategy hsought
    obtain ⟨found, hfound, hvalue⟩ := hmem
    -- the node has one test id only
    obtain rfl : id = found := Option.some.inj ((eq_some_of_filled hid).1.symm.trans hfound)
    exact hunits hvalue.symm
  · intro hid label hlabel
    obtain ⟨htext, hlabelled⟩ := element?_of_label helement hid hlabel
    rw [htext] at hselector
    rw [hlabelled] at hstrategy
    simp only [nodes_eq_labelled_iff, exists_eq_right]
    exact sought?_eq_label_iff haction timeout hselector (eq_some_of_filled hlabel).2 hstrategy

def buttonNode (attributes : List (String × String)) : Node :=
  { attributes := attributes, text := none, data := .null, disabled := false, visible := true,
    children := [], faults := [] }

def elementStep (action : ActionKind) (selector : String) (strategy : Strategy) : Step :=
  { action := action, selector := some selector, strategy := some strategy, value := none,
    description := "", expected := none, url := none, assertion := none }

def saveNode : Node := buttonNode [("data-testid", "save"), ("aria-label", "Save")]

def saveStep : Step := elementStep .click "[data-testid='save']" .testId

def choiceNode : Node := buttonNode [("aria-label", "Editor's choice")]

def choiceStep : Step := elementStep .expect "Editor's choice" .ariaLabel

/-- A click on an element with a test id, and an expectation of one with a label. -/
theorem sought?_of_buttons :
    (∃ element, element? saveNode "button" = some element ∧ DoneTo saveStep element) ∧
    (∃ sought, sought? (statement saveStep .null) = some sought ∧
      ∀ sight, saveNode ∉ sought.nodes sight) ∧
    (∃ element, element? choiceNode "button" = some element ∧ DoneTo choiceStep element) ∧
    ∃ sought, sought? (statement choiceStep .null) = some sought ∧
      ∀ sight, sought.nodes sight = sight.labelled (textUnits "Editor's choice".toList) := by
  have hsave : ∃ element, element? saveNode "button" = some element ∧ DoneTo saveStep element :=
    ⟨_, rfl, rfl, rfl, rfl⟩
  have hchoice : ∃ element, element? choiceNode "button" = some element ∧
      DoneTo choiceStep element := ⟨_, rfl, rfl, rfl, rfl⟩
  refine ⟨hsave, ?_, hchoice, ?_⟩
  · obtain ⟨element, helement, hdone⟩ := hsave
    obtain ⟨hnever, hrule⟩ := (sought?_of_element helement hdone .null).1 "save" rfl
    have hsought := hrule (fun h => by cases h) (plain_of_all (by decide))
    exact ⟨_, hsought, hnever _ hsought⟩
  · obtain ⟨element, helement, hdone⟩ := hchoice
    refine ((sought?_of_element helement hdone .null).2 rfl "Editor's choice" rfl).mpr ?_
    exact ⟨fun _ => ⟨by decide, by decide⟩, plain_of_all (by decide),
      (written_eq_quotesEscaped_iff _).mp (by decide)⟩

end Sitecheck.Spec
