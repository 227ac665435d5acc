import Sitecheck.Text.Point

/-!
# Reading bytes as text

Bytes are read as UTF-8.  The longest beginning of a character that cannot be
completed gives one replacement mark.
-/

namespace Sitecheck.Text.Utf8

def replacement : Char := '�'

/-- For a first byte: what it adds to the code, the range of the second byte,
and how many bytes follow. -/
def shape? (first : Nat) : Option (Nat × Nat × Nat × Nat) :=
  if first < 0x80 then some (first, 0, 0, 0)
  else if first < 0xc2 then none
  else if first < 0xe0 then some (first - 0xc0, 0x80, 0xbf, 1)
  else if first < 0xf0 then
    some (first - 0xe0, if first = 0xe0 then 0xa0 else 0x80, if first = 0xed then 0x9f else 0xbf, 2)
  else if first < 0xf5 then
    some (first - 0xf0, if first = 0xf0 then 0x90 else 0x80, if first = 0xf4 then 0x8f else 0xbf, 3)
  else none

/-- Reads `count` more bytes of a code, the next of which lies in a range. -/
def tail (low high : Nat) : (count code : Nat) → List Nat → Option Nat × List Nat
  | 0, code, bytes => (some code, bytes)
  | _ + 1, _, [] => (none, [])
  | count + 1, code, byte :: bytes =>
    if low ≤ byte && byte ≤ high then tailNext count (64 * code + (byte - 0x80)) bytes
    else (none, byte :: bytes)
where
  tailNext : (count code : Nat) → List Nat → Option Nat × List Nat
    | 0, code, bytes => (some code, bytes)
    | _ + 1, _, [] => (none, [])
    | count + 1, code, byte :: bytes =>
      if 0x80 ≤ byte && byte ≤ 0xbf then tailNext count (64 * code + (byte - 0x80)) bytes
      else (none, byte :: bytes)

theorem tailNext_length (count code : Nat) (bytes : List Nat) :
    (tail.tailNext count code bytes).2.length ≤ bytes.length := by
  induction bytes generalizing count code with
  | nil => cases count <;> simp [tail.tailNext]
  | cons byte bytes ih =>
    cases count with
    | zero => simp [tail.tailNext]
    | succ count =>
      simp only [tail.tailNext]
      split
      · exact Nat.le_succ_of_le (ih _ _)
      · exact Nat.le_refl _

theorem tail_length (low high count code : Nat) (bytes : List Nat) :
    (tail low high count code bytes).2.length ≤ bytes.length := by
  cases count with
  | zero => simp [tail]
  | succ count =>
    cases bytes with
    | nil => simp [tail]
    | cons byte bytes =>
      simp only [tail]
      split
      · exact Nat.le_succ_of_le (tailNext_length _ _ _)
      · exact Nat.le_refl _

def decode : List Nat → List Char
  | [] => []
  | first :: bytes =>
    match shape? first with
    | none => replacement :: decode bytes
    | some (code, low, high, count) =>
      have := tail_length low high count code bytes
      ((tail low high count code bytes).1.map charsOf).getD [replacement]
        ++ decode (tail low high count code bytes).2
termination_by bytes => bytes.length

end Sitecheck.Text.Utf8
