import Sitecheck.Proofs.Spec.Pattern
import Sitecheck.Proofs.Text
import Sitecheck.Spec.Step

/-!
# Texts with escaped quotes in literals and patterns

The quotes of a selector are escaped before the selector is normalized, so what
is written into a literal need not be the normalized selector with its quotes
escaped (`written_cases`).  It is read back as the normalized selector exactly if
it is that, with its quotes and backslashes escaped, and has no line break.
-/

namespace Sitecheck.Spec

variable {text found selector front : List Char}

open Script

/-! ## Escaping quotes -/

def quotesEscaped (text : List Char) : List Char :=
  text.flatMap fun c => if c = '\'' then ['\\', '\''] else [c]

theorem toList_escapeQuotes (text : String) :
    (escapeQuotes text).toList = quotesEscaped text.toList := by
  simp only [escapeQuotes, Text.replace, String.toList_ofList]
  exact Chars.replace_singleton '\'' _ _

@[simp] theorem quotesEscaped_nil : quotesEscaped [] = [] := rfl

@[simp] theorem quotesEscaped_quote (text : List Char) :
    quotesEscaped ('\'' :: text) = '\\' :: '\'' :: quotesEscaped text := rfl

theorem quotesEscaped_cons {c : Char} (h : c ≠ '\'') (text : List Char) :
    quotesEscaped (c :: text) = c :: quotesEscaped text := by
  simp [quotesEscaped, h]

@[simp] theorem quotesEscaped_append (front text : List Char) :
    quotesEscaped (front ++ text) = quotesEscaped front ++ quotesEscaped text := by
  simp [quotesEscaped]

/-- The backslashes and the breaks of a text are left as they are. -/
def leftAlone (text : List Char) : Nat := text.countP fun c => c = '\\' || isBreak c

theorem leftAlone_eq_zero_iff (text : List Char) :
    leftAlone text = 0 ↔ '\\' ∉ text ∧ ∀ c ∈ text, isBreak c = false := by
  simp only [leftAlone, List.countP_eq_zero, Bool.or_eq_true, decide_eq_true_eq, not_or,
    Bool.not_eq_true]
  constructor
  · intro h
    exact ⟨fun hmem => (h _ hmem).1 rfl, fun c hc => (h c hc).2⟩
  · rintro ⟨hslash, hbreak⟩ c hc
    exact ⟨fun heq => hslash (heq ▸ hc), hbreak c hc⟩

theorem two_mul_textUnits_quotesEscaped (text : List Char) :
    2 * (textUnits (quotesEscaped text)).length + leftAlone text =
      2 * (textUnits text).length + marks (quotesEscaped text) := by
  induction text with
  | nil => rfl
  | cons c text =>
    by_cases hquote : c = '\''
    · subst hquote
      have hslash : (charUnits '\\').length = 1 := rfl
      have hleft : leftAlone ('\'' :: text) = leftAlone text := by simp [leftAlone, isBreak]
      have hmarks : marks ('\\' :: '\'' :: quotesEscaped text) =
          2 + marks (quotesEscaped text) := by
        simp [marks_cons]
        omega
      simp only [quotesEscaped_quote, textUnits_cons, List.length_append]
      omega
    · rw [quotesEscaped_cons hquote, marks_cons]
      have hleft : leftAlone (c :: text) =
          (if c = '\\' ∨ isBreak c then 1 else 0) + leftAlone text := by
        simp only [leftAlone, List.countP_cons, Bool.or_eq_true, decide_eq_true_eq]
        omega
      simp only [hquote, false_or, textUnits_cons, List.length_append]
      omega

theorem length_quotesEscaped (text : List Char) :
    (quotesEscaped text).length = text.length + text.count '\'' := by
  induction text with
  | nil => rfl
  | cons c =>
    by_cases hquote : c = '\''
    · subst hquote
      simp only [quotesEscaped_quote, List.length_cons, List.count_cons_self]
      omega
    · rw [quotesEscaped_cons hquote, List.count_cons_of_ne hquote]
      simp only [List.length_cons]
      omega

theorem length_escaped (text : List Char) :
    (escaped text).length = (quotesEscaped text).length + text.count '\\' := by
  induction text with
  | nil => rfl
  | cons c text ih =>
    by_cases hquote : c = '\''
    · subst hquote
      simp [escaped_cons, ih, Nat.add_right_comm]
    · rw [quotesEscaped_cons hquote, escaped_cons]
      by_cases hslash : c = '\\'
      · subst hslash
        simp [ih]
        omega
      · simp [hquote, hslash, ih, Nat.add_right_comm]

theorem quotesEscaped_eq_escaped_iff (text : List Char) :
    quotesEscaped text = escaped text ↔ '\\' ∉ text := by
  constructor
  · intro h
    have hlength := length_escaped text
    rw [← h] at hlength
    exact List.count_eq_zero.mp (by omega)
  · intro h
    refine List.flatMap_congr fun c hc => ?_
    have hslash : c ≠ '\\' := fun heq => h (heq ▸ hc)
    by_cases hquote : c = '\''
    · simp [hquote]
    · simp [hquote, hslash]

theorem eq_escaped_iff (text : List Char) :
    text = escaped text ↔ '\'' ∉ text ∧ '\\' ∉ text := by
  constructor
  · intro h
    have hfirst := length_quotesEscaped text
    have hlength := length_escaped text
    rw [← h] at hlength
    exact ⟨List.count_eq_zero.mp (by omega), List.count_eq_zero.mp (by omega)⟩
  · rintro ⟨hquote, hslash⟩
    induction text with
    | nil => rfl
    | cons c text ih =>
      simp only [List.mem_cons, not_or] at hquote hslash
      rw [escaped_cons, ← ih hquote.2 hslash.2]
      simp [Ne.symm hquote.1, Ne.symm hslash.1]

/-! ## Patterns -/

theorem Script.Place.after?_quotesEscaped (place : Place) (text : List Char) :
    place.after? (quotesEscaped text) = place.after? text := by
  induction text generalizing place with
  | nil => rfl
  | cons c text ih =>
    by_cases hquote : c = '\''
    · subst hquote
      cases place <;> simp [Place.after?, Place.next?, isLineEnd, ih]
    · rw [quotesEscaped_cons hquote]
      simp [Place.after?, ih]

theorem isPattern_quotesEscaped (text : List Char) :
    IsPattern (quotesEscaped text) ↔ IsPattern text := by
  cases text with
  | nil => rfl
  | cons c text =>
    have hafter := Place.top.after?_quotesEscaped (c :: text)
    unfold IsPattern
    rw [hafter]
    by_cases hquote : c = '\''
    · subst hquote
      simp
    · rw [quotesEscaped_cons hquote]
      simp

/-! ## Normalized selectors -/

theorem points_cons {c : Char} (h : c ≠ Text.mark) (text : List Char) :
    Text.points (c :: text) = [c] :: Text.points text := by
  cases text with
  | nil => rfl
  | cons => simp [Text.points, h]

def linkOpening : List Char := ['a', ':', 't', 'e', 'x', 't', '(']

def textOpening : List Char := ['t', 'e', 'x', 't', '=']

/-- Normalizing, said on characters. -/
def normalized (selector : List Char) : List Char :=
  match Locator.linkText? selector with
  | some found => found
  | none => (Chars.after? textOpening selector).getD selector

theorem toList_normalize (selector : String) :
    (Locator.normalize selector).toList = normalized selector.toList := by
  unfold Locator.normalize normalized
  cases hlink : Locator.linkText? selector.toList with
  | some => simp
  | none =>
    have hopening : "text=".toList = textOpening := rfl
    simp only [Text.startsWith, Chars.startsWith, hopening]
    cases hafter : Chars.after? textOpening selector.toList with
    | none => simp
    | some rest =>
      have hselector : selector.toList = textOpening ++ rest := Chars.eq_append_of_after? hafter
      have hpoints : Text.points (textOpening ++ rest) =
          [['t'], ['e'], ['x'], ['t'], ['=']] ++ Text.points rest := by
        simp (disch := decide) only [textOpening, List.cons_append, List.nil_append, points_cons]
      simp [Text.drop, hselector, hpoints, Text.flatten_points]

theorem after?_quotesEscaped {pattern : List Char} (h : ∀ c ∈ pattern, c ≠ '\'' ∧ c ≠ '\\')
    (text : List Char) :
    Chars.after? pattern (quotesEscaped text) = (Chars.after? pattern text).map quotesEscaped := by
  induction pattern generalizing text with
  | nil => rfl
  | cons p pattern ih =>
    have hp := h p (by simp)
    have ih := ih fun c hc => h c (List.mem_cons_of_mem _ hc)
    cases text with
    | nil => rfl
    | cons c =>
      by_cases hquote : c = '\''
      · subst hquote
        simp [Chars.after?, hp.1, hp.2]
      · rw [quotesEscaped_cons hquote]
        by_cases hc : p = c
        · simp [Chars.after?, hc, ih]
        · simp [Chars.after?, hc]

theorem head?_quotesEscaped_eq (text : List Char) :
    (quotesEscaped text).head? = some ')' ↔ text.head? = some ')' := by
  cases text with
  | nil => simp
  | cons c =>
    by_cases hquote : c = '\''
    · subst hquote
      simp
    · rw [quotesEscaped_cons hquote]
      simp

/-- What stands before the closing bracket, its quotes escaped; behind it a
backslash is left if a single quote closes. -/
theorem beforeClosing?_quotesEscaped (text : List Char) :
    Locator.beforeClosing? text = none ∧ Locator.beforeClosing? (quotesEscaped text) = none ∨
      ∃ found, Locator.beforeClosing? text = some found ∧
        (Locator.beforeClosing? (quotesEscaped text) = some (quotesEscaped found) ∨
          Locator.beforeClosing? (quotesEscaped text) = some (quotesEscaped found ++ ['\\'])) := by
  induction text with
  | nil => exact Or.inl ⟨rfl, rfl⟩
  | cons c text ih =>
    have hhead := head?_quotesEscaped_eq text
    by_cases hquote : c = '\''
    · subst hquote
      by_cases hclose : text.head? = some ')'
      · -- the quote closes, and its backslash stays before it
        refine Or.inr ⟨[], by simp [Locator.beforeClosing?, Locator.isQuote, hclose], Or.inr ?_⟩
        simp [Locator.beforeClosing?, Locator.isQuote, hhead.mpr hclose]
      · have hopen : (quotesEscaped text).head? ≠ some ')' := fun h => hclose (hhead.mp h)
        rcases ih with ⟨hnone, hnone'⟩ | ⟨found, hfound, hwritten⟩
        · refine Or.inl ⟨?_, ?_⟩
          · simp [Locator.beforeClosing?, hclose, hnone]
          · simp [Locator.beforeClosing?, Locator.isQuote, hopen, hnone']
        · refine Or.inr ⟨'\'' :: found, by simp [Locator.beforeClosing?, hclose, hfound], ?_⟩
          rcases hwritten with hwritten | hwritten
          · exact Or.inl (by simp [Locator.beforeClosing?, Locator.isQuote, hopen, hwritten])
          · exact Or.inr (by simp [Locator.beforeClosing?, Locator.isQuote, hopen, hwritten])
    · rw [quotesEscaped_cons hquote]
      by_cases hclose : Locator.isQuote c = true ∧ text.head? = some ')'
      · refine Or.inr ⟨[], by simp [Locator.beforeClosing?, hclose], Or.inl ?_⟩
        simp [Locator.beforeClosing?, hclose.1, hhead.mpr hclose.2]
      · have hopen : ¬ (Locator.isQuote c = true ∧ (quotesEscaped text).head? = some ')') := by
          rwa [hhead]
        by_cases hbreak : c = '\n'
        · subst hbreak
          exact Or.inl ⟨by simp [Locator.beforeClosing?, Locator.isQuote],
            by simp [Locator.beforeClosing?, Locator.isQuote]⟩
        · rcases ih with ⟨hnone, hnone'⟩ | ⟨found, hfound, hwritten⟩
          · exact Or.inl ⟨by simp [Locator.beforeClosing?, hclose, hbreak, hnone],
              by simp [Locator.beforeClosing?, hopen, hbreak, hnone']⟩
          · refine Or.inr ⟨c :: found,
              by simp [Locator.beforeClosing?, hclose, hbreak, hfound], ?_⟩
            rw [quotesEscaped_cons hquote]
            rcases hwritten with hwritten | hwritten
            · exact Or.inl (by simp [Locator.beforeClosing?, hopen, hbreak, hwritten])
            · exact Or.inr (by simp [Locator.beforeClosing?, hopen, hbreak, hwritten])

theorem prefix_of_beforeClosing? (h : Locator.beforeClosing? text = some found) :
    ∃ back, text = found ++ back := by
  induction text generalizing found with
  | nil => simp [Locator.beforeClosing?] at h
  | cons c text ih =>
    simp only [Locator.beforeClosing?] at h
    split at h
    · cases h
      exact ⟨_, rfl⟩
    split at h
    · cases h
    · obtain ⟨front, hfront, rfl⟩ := Option.map_eq_some_iff.mp h
      obtain ⟨back, rfl⟩ := ih hfront
      exact ⟨back, rfl⟩

def written (selector : List Char) : List Char := normalized (quotesEscaped selector)

theorem after?_linkOpening_quotesEscaped (selector : List Char) :
    Chars.after? linkOpening (quotesEscaped selector) =
      (Chars.after? linkOpening selector).map quotesEscaped :=
  after?_quotesEscaped (by simp [linkOpening]) selector

private theorem written_of_no_link (h : Locator.linkText? selector = none)
    (h' : Locator.linkText? (quotesEscaped selector) = none) :
    written selector = quotesEscaped (normalized selector) := by
  have hafter : Chars.after? textOpening (quotesEscaped selector) =
      (Chars.after? textOpening selector).map quotesEscaped :=
    after?_quotesEscaped (by simp [textOpening]) selector
  unfold written normalized
  rw [h, h', hafter]
  cases Chars.after? textOpening selector <;> rfl

/-- The text of a link behind its opening quote. -/
def quotedText? : List Char → Option (List Char)
  | [] => none
  | first :: rest =>
    if first = '\n' then none else (Locator.beforeClosing? rest).map (first :: ·)

theorem linkText?_opening (mark : Char) (text : List Char) :
    Locator.linkText? (linkOpening ++ mark :: text) =
      if Locator.isQuote mark then quotedText? text else none := by
  have hafter : Chars.after? ['a', ':', 't', 'e', 'x', 't', '('] (linkOpening ++ mark :: text) =
      some (mark :: text) := Chars.after?_append linkOpening _
  rw [Locator.linkText?, hafter]
  cases text with
  | nil => simp [quotedText?]
  | cons first =>
    by_cases hbreak : first = '\n'
    · simp [quotedText?, hbreak]
    · simp [quotedText?, hbreak]

private theorem quotedText?_cases (text : List Char) :
    quotedText? text = none ∧ quotedText? (quotesEscaped text) = none ∨
      quotedText? (quotesEscaped text) = some ['\\'] ∨
      ∃ found, quotedText? text = some found ∧
        (quotedText? (quotesEscaped text) = some (quotesEscaped found) ∨
          quotedText? (quotesEscaped text) = some (quotesEscaped found ++ ['\\'])) := by
  cases text with
  | nil => exact Or.inl ⟨rfl, rfl⟩
  | cons first rest =>
    by_cases hquote : first = '\''
    · subst hquote
      by_cases hclose : rest.head? = some ')'
      · -- the escaped quote closes at once, and only its backslash is left
        have hhead := (head?_quotesEscaped_eq rest).mpr hclose
        exact Or.inr (Or.inl (by
          simp [quotedText?, Locator.beforeClosing?, Locator.isQuote, hhead]))
      · have hhead : (quotesEscaped rest).head? ≠ some ')' := fun h =>
          hclose ((head?_quotesEscaped_eq rest).mp h)
        rcases beforeClosing?_quotesEscaped rest with ⟨hnone, hnone'⟩ | ⟨found, hfound, hwritten⟩
        · exact Or.inl ⟨by simp [quotedText?, hnone],
            by simp [quotedText?, Locator.beforeClosing?, hhead, hnone']⟩
        · refine Or.inr (Or.inr ⟨'\'' :: found, by simp [quotedText?, hfound], ?_⟩)
          rcases hwritten with hwritten | hwritten
          · exact Or.inl (by simp [quotedText?, Locator.beforeClosing?, hhead, hwritten])
          · exact Or.inr (by simp [quotedText?, Locator.beforeClosing?, hhead, hwritten])
    · rw [quotesEscaped_cons hquote]
      by_cases hbreak : first = '\n'
      · exact Or.inl ⟨by simp [quotedText?, hbreak], by simp [quotedText?, hbreak]⟩
      · rcases beforeClosing?_quotesEscaped rest with ⟨hnone, hnone'⟩ | ⟨found, hfound, hwritten⟩
        · exact Or.inl ⟨by simp [quotedText?, hnone], by simp [quotedText?, hnone']⟩
        · refine Or.inr (Or.inr ⟨first :: found, by simp [quotedText?, hbreak, hfound], ?_⟩)
          rw [quotesEscaped_cons hquote]
          rcases hwritten with hwritten | hwritten
          · exact Or.inl (by simp [quotedText?, hbreak, hwritten])
          · exact Or.inr (by simp [quotedText?, hbreak, hwritten])

theorem prefix_of_quotedText? (h : quotedText? text = some found) :
    found ≠ [] ∧ ∃ back, text = found ++ back := by
  cases text with
  | nil => cases h
  | cons =>
    simp only [quotedText?] at h
    split at h
    · cases h
    · obtain ⟨front, hfront, rfl⟩ := Option.map_eq_some_iff.mp h
      obtain ⟨back, rfl⟩ := prefix_of_beforeClosing? hfront
      exact ⟨by simp, back, rfl⟩

theorem linkText?_of_no_opening (h : Chars.after? linkOpening selector = none) :
    Locator.linkText? selector = none := by
  have hafter : Chars.after? ['a', ':', 't', 'e', 'x', 't', '('] selector = none := h
  rw [Locator.linkText?, hafter]

theorem normalized_of_link (h : Locator.linkText? selector = some found) :
    normalized selector = found := by
  rw [normalized, h]

private theorem normalized_opening (h : Locator.linkText? (linkOpening ++ text) = none) :
    normalized (linkOpening ++ text) = linkOpening ++ text := by
  rw [normalized, h]
  rfl

theorem written_cases (selector : List Char) :
    written selector = quotesEscaped (normalized selector) ∨
      written selector = quotesEscaped (normalized selector) ++ ['\\'] ∨
      written selector = ['\\'] ∧ normalized selector ≠ [] ∨
      ∃ back, selector = linkOpening ++ '\'' :: (normalized selector ++ back) ∧
        written selector = quotesEscaped selector := by
  have hopened := after?_linkOpening_quotesEscaped selector
  cases hopening : Chars.after? linkOpening selector with
  | none =>
    rw [hopening] at hopened
    exact Or.inl (written_of_no_link (linkText?_of_no_opening hopening)
      (linkText?_of_no_opening hopened))
  | some text =>
    obtain rfl : selector = linkOpening ++ text := Chars.eq_append_of_after? hopening
    rcases text with _ | ⟨mark, text⟩
    · exact Or.inl (written_of_no_link rfl rfl)
    by_cases hquote : mark = '\''
    · -- a link in single quotes: escaped, it is not known as a link any more
      subst hquote
      have hnone : Locator.linkText? (quotesEscaped (linkOpening ++ '\'' :: text)) = none :=
        linkText?_opening '\\' ('\'' :: quotesEscaped text)
      have hlink : Locator.linkText? (linkOpening ++ '\'' :: text) = quotedText? text :=
        linkText?_opening '\'' text
      cases hfound : quotedText? text with
      | none =>
        rw [hfound] at hlink
        exact Or.inl (written_of_no_link hlink hnone)
      | some =>
        rw [hfound] at hlink
        obtain ⟨-, back, rfl⟩ := prefix_of_quotedText? hfound
        refine Or.inr (Or.inr (Or.inr ⟨back, ?_, ?_⟩))
        · rw [normalized_of_link hlink]
        · exact normalized_opening hnone
    · have hescaped : quotesEscaped (linkOpening ++ mark :: text) =
          linkOpening ++ mark :: quotesEscaped text := by
        rw [quotesEscaped_append, quotesEscaped_cons hquote]
        rfl
      have hlink := linkText?_opening mark text
      have hlink' := linkText?_opening mark (quotesEscaped text)
      rw [← hescaped] at hlink'
      cases hmark : Locator.isQuote mark with
      | false =>
        rw [hmark] at hlink hlink'
        exact Or.inl (written_of_no_link hlink hlink')
      | true =>
        rw [hmark, if_pos rfl] at hlink hlink'
        rcases quotedText?_cases text with ⟨hnone, hnone'⟩ | hslash | ⟨found, hfound, hwritten⟩
        · exact Or.inl (written_of_no_link (hlink.trans hnone) (hlink'.trans hnone'))
        · refine Or.inr (Or.inr (Or.inl ⟨normalized_of_link (hlink'.trans hslash), ?_⟩))
          cases hfound : quotedText? text with
          | none =>
            rw [normalized_opening (hlink.trans hfound)]
            simp
          | some =>
            rw [normalized_of_link (hlink.trans hfound)]
            exact (prefix_of_quotedText? hfound).1
        · rw [normalized_of_link (hlink.trans hfound)]
          rcases hwritten with hwritten | hwritten
          · exact Or.inl (normalized_of_link (hlink'.trans hwritten))
          · exact Or.inr (Or.inl (normalized_of_link (hlink'.trans hwritten)))

/-! ## Reading selectors back -/

theorem textUnits_eq_append {units : List Nat} (h : textUnits text = textUnits front ++ units) :
    ∃ back, text = front ++ back ∧ units = textUnits back := by
  induction front generalizing text with
  | nil => exact ⟨text, rfl, by simpa using h.symm⟩
  | cons c front ih =>
    cases text with
    | nil =>
      have hpos := charUnits_pos c
      have hlength := congrArg List.length h
      simp only [textUnits_nil, textUnits_cons, List.length_append, List.length_nil] at hlength
      omega
    | cons =>
      rw [textUnits_cons, textUnits_cons, List.append_assoc] at h
      obtain ⟨rfl, hrest⟩ := charUnits_append_inj h
      obtain ⟨back, rfl, hunits⟩ := ih hrest
      exact ⟨back, rfl, hunits⟩

theorem literal?_quotesEscaped_append (h : ∀ c ∈ front, c ≠ '\\' ∧ isBreak c = false)
    (text rest : List Char) :
    literal? (quotesEscaped (front ++ text) ++ rest) =
      (literal? (quotesEscaped text ++ rest)).map fun (more, after) =>
        (textUnits front ++ more, after) := by
  have hescaped : quotesEscaped front = escaped front :=
    (quotesEscaped_eq_escaped_iff front).mpr fun hc => (h _ hc).1 rfl
  rw [quotesEscaped_append, hescaped, List.append_assoc,
    literal?_escaped_append fun c hc => (h c hc).2]

/-- A text is not read back without what stands in front of it: it would have to
begin with that front itself, and so on for ever. -/
theorem not_read_as_inner (hfront : front ≠ []) (hplain : ∀ c ∈ front, c ≠ '\\' ∧ isBreak c = false)
    (inner back rest after : List Char) (units : List Nat)
    (h : literal? (quotesEscaped (inner ++ back) ++ rest) = some (units, after)) :
    textUnits inner ≠ textUnits front ++ units := by
  induction hlength : inner.length using Nat.strongRecOn generalizing inner units with
  | ind length ih =>
    intro heq
    obtain ⟨inner', rfl, hunits⟩ := textUnits_eq_append heq
    have hshorter : inner'.length < length := by
      have hpos := List.length_pos_iff.mpr hfront
      simp only [List.length_append] at hlength
      omega
    rw [List.append_assoc, literal?_quotesEscaped_append hplain] at h
    obtain ⟨⟨more, after'⟩, hread, hresult⟩ := Option.map_eq_some_iff.mp h
    cases hresult
    exact ih _ hshorter inner' more hread rfl hunits.symm

theorem literal?_written_iff (selector rest : List Char) :
    literal? (written selector ++ '\'' :: rest) = some (textUnits (normalized selector), rest) ↔
      written selector = escaped (normalized selector) ∧
        ∀ c ∈ normalized selector, isBreak c = false := by
  constructor
  · intro h
    have hroom := two_mul_textUnits_quotesEscaped (normalized selector)
    rcases written_cases selector with hraw | hraw | ⟨hraw, hne⟩ | ⟨back, hselector, hraw⟩
    · rw [hraw] at h ⊢
      exact (literal?_eq_some_iff_escaped (by omega) rest).mp h
    · rw [hraw] at h ⊢
      have hslash : (charUnits '\\').length = 1 := rfl
      have hone : marks ['\\'] = 1 := rfl
      by_cases hleft : leftAlone (normalized selector) = 0
      · -- the backslash that is left over escapes the closing quote
        obtain ⟨hnone, hbreak⟩ := (leftAlone_eq_zero_iff _).mp hleft
        rw [(quotesEscaped_eq_escaped_iff _).mpr hnone, List.append_assoc,
          literal?_escaped_append hbreak] at h
        obtain ⟨⟨more, after⟩, hread, hresult⟩ := Option.map_eq_some_iff.mp h
        simp only [List.cons_append, List.nil_append] at hread
        rw [literal?_escape (escape?_mark (Or.inl rfl) rest)] at hread
        obtain ⟨⟨more', after'⟩, -, hmore⟩ := Option.map_eq_some_iff.mp hread
        cases hmore
        simp [charUnits, Json.units] at hresult
      · refine (literal?_eq_some_iff_escaped ?_ rest).mp h
        simp only [textUnits_append, textUnits_cons, textUnits_nil, List.length_append,
          marks_append, List.append_nil]
        omega
    · rw [hraw] at h ⊢
      refine (literal?_eq_some_iff_escaped ?_ rest).mp h
      have hpos := List.length_pos_iff.mpr hne
      have hunits := length_le_textUnits (normalized selector)
      have hone : 2 * (textUnits ['\\']).length = 1 + marks ['\\'] := rfl
      omega
    · exfalso
      rw [hraw] at h
      have hplain : ∀ c ∈ linkOpening ++ ['\''], c ≠ '\\' ∧ isBreak c = false := by
        simp [linkOpening, isBreak]
      generalize normalized selector = inner at h hselector
      rw [hselector, List.append_cons linkOpening, literal?_quotesEscaped_append hplain] at h
      obtain ⟨⟨more, after⟩, hread, hresult⟩ := Option.map_eq_some_iff.mp h
      simp only [Prod.mk.injEq] at hresult
      exact not_read_as_inner (by simp) hplain inner back _ after more hread hresult.1.symm
  · rintro ⟨hraw, hbreak⟩
    rw [hraw, literal?_escaped_append hbreak, literal?_quote]
    simp

end Sitecheck.Spec
