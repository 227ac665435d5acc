/-!
# Text as a list of characters

Cutting, joining and replacing on `List Char`.  Every function is a structural
recursion or a composition of list functions.  Cutting at a separator loses
nothing but the separator: joining the parts gives the text back
(`join_splitOn`).
-/

namespace Sitecheck.Chars

/-! ## Leading and trailing characters -/

def after? : (pattern text : List Char) → Option (List Char)
  | [], text => some text
  | _ :: _, [] => none
  | p :: pattern, c :: text => if p = c then after? pattern text else none

@[simp] theorem after?_append (pattern text : List Char) :
    after? pattern (pattern ++ text) = some text := by
  induction pattern with
  | nil => rfl
  | cons p pattern ih => simp [after?, ih]

theorem eq_append_of_after? {pattern text rest : List Char}
    (h : after? pattern text = some rest) : text = pattern ++ rest := by
  induction pattern generalizing text with
  | nil => simp_all [after?]
  | cons p pattern ih =>
    cases text with
    | nil => simp [after?] at h
    | cons c text =>
      by_cases hc : p = c
      · simp only [after?, hc, if_true] at h
        simp [hc, ih h]
      · simp [after?, hc] at h

def startsWith (pattern text : List Char) : Bool := (after? pattern text).isSome

def dropEndWhile (p : Char → Bool) (text : List Char) : List Char :=
  (text.reverse.dropWhile p).reverse

def trim (p : Char → Bool) (text : List Char) : List Char :=
  dropEndWhile p (text.dropWhile p)

/-! ## Cutting at a separator -/

def cut? (pattern : List Char) : List Char → Option (List Char × List Char)
  | [] => if pattern = [] then some ([], []) else none
  | c :: text =>
    match after? pattern (c :: text) with
    | some rest => some ([], rest)
    | none => (cut? pattern text).map fun (front, rest) => (c :: front, rest)

theorem eq_append_of_cut? {pattern text front rest : List Char}
    (h : cut? pattern text = some (front, rest)) : text = front ++ pattern ++ rest := by
  induction text generalizing front with
  | nil =>
    by_cases hp : pattern = []
    · simp_all [cut?]
    · simp [cut?, hp] at h
  | cons c text ih =>
    simp only [cut?] at h
    split at h
    · next tail ht =>
      cases h
      simpa using eq_append_of_after? ht
    · obtain ⟨⟨front', rest'⟩, hcut, heq⟩ := Option.map_eq_some_iff.1 h
      cases heq
      simp [ih hcut]

def contains (pattern text : List Char) : Bool := (cut? pattern text).isSome

/-- The parts between the places where `pattern` stands, searched from the
front; a text without it is one part. -/
def splitOn (pattern text : List Char) : List (List Char) :=
  if _ : pattern = [] then [text]
  else
    match _cut : cut? pattern text with
    | none => [text]
    | some (front, rest) => front :: splitOn pattern rest
termination_by text.length
decreasing_by
  have := congrArg List.length (eq_append_of_cut? _cut)
  have : 0 < pattern.length := List.length_pos_iff.2 (by assumption)
  simp at *
  omega

def join (separator : List Char) : List (List Char) → List Char
  | [] => []
  | [part] => part
  | part :: next :: parts => part ++ separator ++ join separator (next :: parts)

theorem splitOn_ne_nil (pattern text : List Char) : splitOn pattern text ≠ [] := by
  rw [splitOn]
  split
  · simp
  · split <;> simp

theorem join_cons_of_ne_nil (separator part : List Char) {parts : List (List Char)} (h : parts ≠ []) :
    join separator (part :: parts) = part ++ separator ++ join separator parts := by
  cases parts with
  | nil => exact absurd rfl h
  | cons next parts => rfl

theorem join_splitOn (pattern text : List Char) : join pattern (splitOn pattern text) = text := by
  fun_induction splitOn pattern text with
  | case1 text => rfl
  | case2 text => rfl
  | case3 text _ front rest h ih =>
    rw [join_cons_of_ne_nil _ _ (splitOn_ne_nil _ _), ih, ← eq_append_of_cut? h]

/-- Every occurrence of `old`, searched from the front, gives way to `new`; an
empty `old` stands nowhere. -/
def replace (old new text : List Char) : List Char := join new (splitOn old text)

def count (pattern text : List Char) : Nat := (splitOn pattern text).length - 1

end Sitecheck.Chars
