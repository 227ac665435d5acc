/-!
# Punycode

A label with characters beyond ASCII is written as its ASCII characters, a
hyphen, and the positions of the others as differences in a variable-length
numeral whose digits adapt to the differences seen so far.
-/

namespace Sitecheck.Url.Punycode

/-- The letters stand for 0 to 25, the digits for 26 to 35. -/
def digitChar (d : Nat) : Char :=
  if d < 26 then Char.ofNat ('a'.toNat + d) else Char.ofNat ('0'.toNat + d - 26)

def threshold (position bias : Nat) : Nat :=
  if position ≤ bias then 1 else min 26 (position - bias)

theorem threshold_pos (position bias : Nat) : 1 ≤ threshold position bias := by
  unfold threshold
  split
  · omega
  · omega

theorem threshold_le (position bias : Nat) : threshold position bias ≤ 26 := by
  unfold threshold
  split
  · omega
  · omega

def shrink (delta position : Nat) : Nat × Nat :=
  if 455 < delta then shrink (delta / 35) (position + 36) else (delta, position)
termination_by delta
decreasing_by exact Nat.div_lt_self (by omega) (by omega)

/-- The bias after a difference was written as the `count`-th. -/
def adapt (delta count : Nat) (first : Bool) : Nat :=
  let start := if first then delta / 700 else delta / 2
  let (delta, position) := shrink (start + start / count) 0
  position + 36 * delta / (delta + 38)

def numeral (bias position value : Nat) : List Char :=
  let t := threshold position bias
  if value < t then [digitChar value]
  else
    digitChar (t + (value - t) % (36 - t)) ::
      numeral bias (position + 36) ((value - t) / (36 - t))
termination_by value
decreasing_by
  have := threshold_pos position bias
  have := threshold_le position bias
  calc (value - threshold position bias) / (36 - threshold position bias)
      ≤ value - threshold position bias := Nat.div_le_self _ _
    _ < value := by omega

structure State where
  written : List Char
  delta : Nat
  bias : Nat
  handled : Nat

/-- Passes one character of the label while the code point `point` is written. -/
def pass (basic point : Nat) (s : State) (c : Char) : State :=
  if c.toNat < point then { s with delta := s.delta + 1 }
  else if c.toNat = point then
    { written := s.written ++ numeral s.bias 36 s.delta
      delta := 0
      bias := adapt s.delta (s.handled + 1) (s.handled == basic)
      handled := s.handled + 1 }
  else s

def writePoints (label : List Char) (basic : Nat) : List Nat → (next : Nat) → State → State
  | [], _, s => s
  | point :: points, next, s =>
    let s := { s with delta := s.delta + (point - next) * (s.handled + 1) }
    let s := label.foldl (pass basic point) s
    writePoints label basic points (point + 1) { s with delta := s.delta + 1 }

def encode (label : List Char) : List Char :=
  let ascii := label.filter (·.toNat < 128)
  let points := ((label.map Char.toNat).filter (128 ≤ ·)).mergeSort.eraseDups
  let basic := ascii.length
  let start := if ascii.isEmpty then [] else ascii ++ ['-']
  (writePoints label basic points 128 ⟨start, 0, 72, basic⟩).written

end Sitecheck.Url.Punycode
