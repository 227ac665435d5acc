import Sitecheck.Text.CharSet

/-!
# Maps of characters

A map that leaves most characters alone.  Characters that map to one character
at a constant distance are listed as runs: a first code point, a count, a
stride, and the code point that the first is mapped to.  All others have rows
of their own.
-/

namespace Sitecheck

namespace CharMap

structure Run where
  first : Nat
  count : Nat
  stride : Nat
  target : Nat

def Run.mem (run : Run) (n : Nat) : Bool :=
  run.first ≤ n && n < run.first + run.count * run.stride && (n - run.first) % run.stride == 0

def Run.apply (run : Run) (n : Nat) : Nat := run.target + (n - run.first)

/-- A number at a distance from another: even distances go up, odd ones down. -/
def shift (n distance : Nat) : Nat :=
  if distance % 2 = 0 then n + distance / 2 else n - (distance + 1) / 2

/-- A run is written as a gap to its first code point, a count, a stride and the distance of
its target. -/
def readRuns (start : Nat) : List Nat → List Run
  | gap :: count :: stride :: distance :: rest =>
    ⟨start + gap, count, stride, shift (start + gap) distance⟩ :: readRuns (start + gap) rest
  | _ => []

/-- A row is written as distances from the one above it, whose last number goes on. -/
def readRow : (above distances : List Nat) → List Nat
  | [last], distance :: rest => shift last distance :: readRow [last] rest
  | n :: above, distance :: rest => shift n distance :: readRow above rest
  | _, _ => []

def readBlock (length : Nat) (above : List Nat) : (count : Nat) → List Nat → List (List Nat)
  | 0, _ => []
  | count + 1, numbers =>
    let row := readRow above (numbers.take length)
    row :: readBlock length row count (numbers.drop length)

/-- Blocks of a gap to the next code point, a count of code points in a row, a length, and a
row of that length for each of them. -/
def readRows (start : Nat) (above : List Nat) : List Nat → List (Nat × List Nat)
  | gap :: count :: length :: rest =>
    let block := readBlock length above count rest
    block.mapIdx (fun i row => (start + gap + i, row)) ++
      readRows (start + gap + count - 1) (block.getLastD above) (rest.drop (count * length))
  | _ => []
termination_by numbers => numbers.length
decreasing_by simp; omega

end CharMap

structure CharMap where
  runs : List CharMap.Run
  rows : List (Nat × List Nat)

namespace CharMap

def ofNumerals (runText rowText : String) : CharMap :=
  ⟨readRuns 0 (CharSet.numerals runText), readRows 0 [0] (CharSet.numerals rowText)⟩

def find? (map : CharMap) (c : Char) : Option (List Char) :=
  match map.rows.lookup c.toNat with
  | some codes => some (codes.map Char.ofNat)
  | none => (map.runs.find? (·.mem c.toNat)).map fun run => [Char.ofNat (run.apply c.toNat)]

def apply (map : CharMap) (c : Char) : List Char := (map.find? c).getD [c]

end CharMap

end Sitecheck
