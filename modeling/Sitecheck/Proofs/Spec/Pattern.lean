import Sitecheck.Proofs.Spec.Literal

/-!
# Patterns and comments of a script

A pattern between slashes goes on to the first slash that is neither escaped nor
in a class in brackets, and may not hold a line end.  A comment goes on to the end
of its line.  A backslash before a quote makes no difference to where a pattern
ends.
-/

namespace Sitecheck.Spec.Script

/-! ## Patterns -/

/-- Where in a pattern a character stands. -/
inductive Place where
  | top
  | escaped
  | inClass
  | escapedInClass
  deriving DecidableEq

/-- The place behind a character; there is none where the pattern ends or breaks. -/
def Place.next? (place : Place) (c : Char) : Option Place :=
  if isLineEnd c then none
  else
    match place with
    | .top =>
      if c = '/' then none
      else if c = '\\' then some .escaped
      else if c = '[' then some .inClass
      else some .top
    | .escaped => some .top
    | .inClass =>
      if c = '\\' then some .escapedInClass
      else if c = ']' then some .top
      else some .inClass
    | .escapedInClass => some .inClass

/-- The place behind a text. -/
def Place.after? (place : Place) : List Char → Option Place
  | [] => some place
  | c :: text => (place.next? c).bind fun place => place.after? text

/-- A pattern, read up to its closing slash, and what follows the slash. -/
def Place.read? (place : Place) : List Char → Option (List Char × List Char)
  | [] => none
  | c :: text =>
    if place = .top ∧ c = '/' then some ([], text)
    else (place.next? c).bind fun place =>
      (place.read? text).map fun (pattern, rest) => (c :: pattern, rest)

/-- A pattern, read from its opening slash on.  Two slashes, or a slash and a
star, begin a comment instead. -/
def pattern? : List Char → Option (List Char × List Char)
  | '/' :: text =>
    if text.head? = some '/' ∨ text.head? = some '*' then none else Place.top.read? text
  | _ => none

theorem Place.read?_eq_some_iff (place : Place) (text rest : List Char) :
    place.read? (text ++ '/' :: rest) = some (text, rest) ↔ place.after? text = some .top := by
  induction text generalizing place with
  | nil =>
    simp only [List.nil_append, read?, after?]
    by_cases htop : place = .top
    · simp [htop]
    · simp only [htop, false_and, if_false, Option.some.injEq, iff_false]
      intro h
      obtain ⟨next, -, hnext⟩ := Option.bind_eq_some_iff.mp h
      obtain ⟨⟨pattern, rest'⟩, -, heq⟩ := Option.map_eq_some_iff.mp hnext
      cases heq
  | cons c text ih =>
    simp only [List.cons_append, read?, after?]
    by_cases hend : place = .top ∧ c = '/'
    · obtain ⟨rfl, rfl⟩ := hend
      simp [next?, isLineEnd]
    · simp only [hend, if_false]
      cases hnext : place.next? c with
      | none => simp
      | some next =>
        rw [Option.bind_some, Option.bind_some, ← ih next]
        constructor
        · intro h
          obtain ⟨⟨pattern, rest'⟩, hread, heq⟩ := Option.map_eq_some_iff.mp h
          cases heq
          exact hread
        · intro h
          rw [h]
          rfl

/-- A text that can stand between two slashes as a pattern. -/
def IsPattern (text : List Char) : Prop :=
  text ≠ [] ∧ text.head? ≠ some '*' ∧ Place.top.after? text = some .top

instance (text : List Char) : Decidable (IsPattern text) :=
  inferInstanceAs (Decidable (_ ∧ _ ∧ _))

theorem pattern?_eq_some_iff (text rest : List Char) :
    pattern? ('/' :: (text ++ '/' :: rest)) = some (text, rest) ↔ IsPattern text := by
  cases text with
  | nil => simp [pattern?, IsPattern]
  | cons c text =>
    have hread := Place.top.read?_eq_some_iff (c :: text) rest
    simp only [List.cons_append] at hread
    unfold pattern? IsPattern
    by_cases hslash : c = '/'
    · subst hslash
      simp [Place.after?, Place.next?, isLineEnd]
    · by_cases hstar : c = '*'
      · simp [hstar]
      · simp [hslash, hstar, hread]

/-! ## Comments -/

/-- The line at the start of a text.  From two slashes on it is a comment. -/
def line (text : List Char) : List Char := text.takeWhile fun c => !isLineEnd c

theorem prefix_line_iff (text rest : List Char) :
    text <+: line (text ++ rest) ↔ ∀ c ∈ text, isLineEnd c = false := by
  induction text with
  | nil => simp
  | cons c text ih =>
    simp only [line] at ih
    cases hend : isLineEnd c with
    | true => simp [line, hend]
    | false => simp [line, hend, ih]

end Sitecheck.Spec.Script
