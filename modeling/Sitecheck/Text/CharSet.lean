/-!
# Sets of characters as boundaries

A set is written as the code points at which membership changes, from the
outside in.  The tables of character properties store the gaps between these
points, so that a property of thousands of characters is a short text.
-/

namespace Sitecheck

structure CharSet where
  boundaries : List Nat

namespace CharSet

/-- A character belongs to the set when an odd number of boundaries stand at or
before it. -/
def mem (set : CharSet) (c : Char) : Bool :=
  set.boundaries.countP (· ≤ c.toNat) % 2 == 1

def totals (start : Nat) : List Nat → List Nat
  | [] => []
  | gap :: gaps => (start + gap) :: totals (start + gap) gaps

/-- The numbers of a text.  A capital letter is the last digit of a number, to base 26; the
digits and small letters before it count to base 36. -/
def numerals (text : String) : List Nat :=
  let step : List Nat × Nat → Char → List Nat × Nat
    | (found, value), c =>
      if c.isUpper then ((value * 26 + (c.toNat - 65)) :: found, 0)
      else if c.isDigit then (found, value * 36 + (c.toNat - 48))
      else if c.isLower then (found, value * 36 + (c.toNat - 87))
      else (found, value)
  (text.toList.foldl step ([], 0)).1.reverse

def ofGaps (text : String) : CharSet := ⟨totals 0 (numerals text)⟩

end CharSet

end Sitecheck
