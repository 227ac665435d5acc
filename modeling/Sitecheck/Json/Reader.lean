import Sitecheck.Json.Basic
import Sitecheck.Number.Numeral

/-!
# Reading JSON

The grammar of JSON with the three extra numbers `NaN`, `Infinity` and
`-Infinity`.  Blanks are the four ASCII ones.  A key that occurs again keeps the
place of its first and the value of its last occurrence.  Whatever is read from
the front of a text leaves a shorter rest, which is what the readers of nested
values recurse on.
-/

namespace Sitecheck.Json

inductive ReadError where
  | malformed
  | tooDeep
  | longInteger (digits : Nat)
  deriving DecidableEq, Repr

abbrev Rest (text : List Char) := { rest : List Char // rest.length < text.length }

def Rest.widen {inner outer : List Char} (rest : Rest inner) (h : inner.length ≤ outer.length) :
    Rest outer := ⟨rest.1, Nat.lt_of_lt_of_le rest.2 h⟩

abbrev Reading (α : Type) (text : List Char) := Except ReadError (α × Rest text)

/-! ## Blanks and literals -/

def isSpace (c : Char) : Bool := c = ' ' || c = '\t' || c = '\n' || c = '\r'

def skip (text : List Char) : { rest : List Char // rest.length ≤ text.length } :=
  ⟨text.dropWhile isSpace, (List.dropWhile_sublist isSpace).length_le⟩

/-! ## Strings -/

def hexValue? (c : Char) : Option Nat :=
  if '0' ≤ c && c ≤ '9' then some (c.toNat - 48)
  else if 'a' ≤ c && c ≤ 'f' then some (c.toNat - 87)
  else if 'A' ≤ c && c ≤ 'F' then some (c.toNat - 55)
  else none

/-- The unit that four hexadecimal digits at the front denote. -/
def unit? : List Char → Option (Nat × List Char)
  | a :: b :: c :: d :: rest => do
    let a ← hexValue? a
    let b ← hexValue? b
    let c ← hexValue? c
    let d ← hexValue? d
    some (((a * 16 + b) * 16 + c) * 16 + d, rest)
  | _ => none

def shortEscape? : Char → Option Char
  | '"' => some '"'
  | '\\' => some '\\'
  | '/' => some '/'
  | 'b' => some '\x08'
  | 'f' => some '\x0c'
  | 'n' => some '\n'
  | 'r' => some '\r'
  | 't' => some '\t'
  | _ => none

/-- The code point written by an escape, after its backslash.  Two units that
form a surrogate pair are one character. -/
def escape? : List Char → Option (List Char × List Char)
  | 'u' :: text =>
    match unit? text with
    | none => none
    | some (unit, rest) =>
      if 0xd800 ≤ unit && unit ≤ 0xdbff then
        match rest with
        | '\\' :: 'u' :: more =>
          match unit? more with
          | some (low, tail) =>
            if 0xdc00 ≤ low && low ≤ 0xdfff then
              some (Text.charsOf (0x10000 + (unit - 0xd800) * 0x400 + (low - 0xdc00)), tail)
            else some (Text.charsOf unit, rest)
          | none => some (Text.charsOf unit, rest)
        | _ => some (Text.charsOf unit, rest)
      else some (Text.charsOf unit, rest)
  | c :: rest => (shortEscape? c).map ([·], rest)
  | [] => none

theorem unit?_length {text rest : List Char} {unit : Nat} (h : unit? text = some (unit, rest)) :
    rest.length < text.length := by
  match text, h with
  | a :: b :: c :: d :: tail, h =>
    simp only [unit?, Option.bind_eq_bind, Option.bind_eq_some_iff] at h
    obtain ⟨_, _, _, _, _, _, _, _, h⟩ := h
    simp only [Option.some.injEq, Prod.mk.injEq] at h
    simp [← h.2]
    omega
  | [], h | [_], h | [_, _], h | [_, _, _], h => simp [unit?] at h

theorem escape?_length {text point rest : List Char} (h : escape? text = some (point, rest)) :
    rest.length < text.length := by
  unfold escape? at h
  split at h
  · split at h
    · simp at h
    · next unit tail hu =>
      have hlen := unit?_length hu
      split at h
      · split at h
        · next more =>
          split at h
          · next low tail' hl =>
            have hlow := unit?_length hl
            simp only [List.length_cons] at hlen ⊢
            split at h <;> rw [Option.some.injEq, Prod.mk.injEq] at h <;> simp [← h.2] <;> omega
          · cases h
            exact Nat.lt_succ_of_lt hlen
        · cases h
          exact Nat.lt_succ_of_lt hlen
      · cases h
        exact Nat.lt_succ_of_lt hlen
  · obtain ⟨_, _, heq⟩ := Option.map_eq_some_iff.1 h
    cases heq
    simp
  · simp at h

def readString (text : List Char) : Option (List Char × Rest text) :=
  match text with
  | [] => none
  | '"' :: rest => some ([], ⟨rest, Nat.lt_succ_self _⟩)
  | '\\' :: rest =>
    match escaped : escape? rest with
    | none => none
    | some (point, tail) =>
      have shorter : tail.length ≤ rest.length + 1 :=
        Nat.le_of_lt (Nat.lt_succ_of_lt (escape?_length escaped))
      match readString tail with
      | none => none
      | some (chars, left) => some (point ++ chars, left.widen shorter)
  | c :: rest =>
    if c < ' ' then none
    else
      match readString rest with
      | none => none
      | some (chars, left) => some (c :: chars, left.widen (Nat.le_succ _))
termination_by text.length
decreasing_by
  · exact Nat.lt_succ_of_lt (escape?_length escaped)
  · exact Nat.lt_succ_self _

/-! ## Numbers -/

theorem length_dropWhile_le (p : Char → Bool) (text : List Char) :
    (text.dropWhile p).length ≤ text.length :=
  (List.dropWhile_sublist p).length_le

def fraction? : List Char → Option (List Char × List Char)
  | '.' :: rest =>
    let digits := rest.takeWhile Char.isDigit
    if digits.isEmpty then none else some (digits, rest.dropWhile Char.isDigit)
  | _ => none

def exponentDigits? (negative : Bool) (text : List Char) : Option (Int × List Char) :=
  let digits := text.takeWhile Char.isDigit
  if digits.isEmpty then none
  else
    let value : Int := Numeral.natOf digits
    some (if negative then -value else value, text.dropWhile Char.isDigit)

def exponent? : List Char → Option (Int × List Char)
  | mark :: rest =>
    if mark = 'e' || mark = 'E' then
      match rest with
      | '+' :: digits => exponentDigits? false digits
      | '-' :: digits => exponentDigits? true digits
      | digits => exponentDigits? false digits
    else none
  | [] => none

theorem fraction?_length {text digits rest : List Char} (h : fraction? text = some (digits, rest)) :
    rest.length ≤ text.length := by
  unfold fraction? at h
  split at h
  · next tail =>
    simp only at h
    split at h
    · simp at h
    · simp only [Option.some.injEq, Prod.mk.injEq] at h
      have := length_dropWhile_le Char.isDigit tail
      simp [← h.2]
      omega
  · simp at h

theorem exponentDigits?_length {negative : Bool} {text rest : List Char} {value : Int}
    (h : exponentDigits? negative text = some (value, rest)) : rest.length ≤ text.length := by
  simp only [exponentDigits?] at h
  split at h
  · simp at h
  · simp only [Option.some.injEq, Prod.mk.injEq] at h
    simpa [← h.2] using length_dropWhile_le Char.isDigit text

theorem exponent?_length {text rest : List Char} {value : Int}
    (h : exponent? text = some (value, rest)) : rest.length ≤ text.length := by
  unfold exponent? at h
  split at h
  · split at h
    · split at h
      all_goals
        have := exponentDigits?_length h
        simp at *
        omega
    · simp at h
  · simp at h

/-- The digits of the integer part: a zero alone, or digits that start with
another. -/
def integerPart (text : List Char) : Option (List Char × Rest text) :=
  match text with
  | '0' :: rest => some (['0'], ⟨rest, by simp⟩)
  | c :: rest =>
    if c.isDigit then
      some (c :: rest.takeWhile Char.isDigit, ⟨rest.dropWhile Char.isDigit, by
        have := length_dropWhile_le Char.isDigit rest
        simp
        omega⟩)
    else none
  | [] => none

def readMagnitude (negative : Bool) (text : List Char) : Reading Json text :=
  match integerPart text with
  | none => .error .malformed
  | some (digits, rest) =>
    match hf : fraction? rest.1 with
    | some (places, afterFraction) =>
      have hlt : afterFraction.length < text.length :=
        Nat.lt_of_le_of_lt (fraction?_length hf) rest.2
      match he : exponent? afterFraction with
      | some (exponent, tail) =>
        .ok (.float (Numeral.decimal negative digits places exponent),
          ⟨tail, Nat.lt_of_le_of_lt (exponent?_length he) hlt⟩)
      | none => .ok (.float (Numeral.decimal negative digits places 0), ⟨afterFraction, hlt⟩)
    | none =>
      match he : exponent? rest.1 with
      | some (exponent, tail) =>
        .ok (.float (Numeral.decimal negative digits [] exponent),
          ⟨tail, Nat.lt_of_le_of_lt (exponent?_length he) rest.2⟩)
      | none =>
        if Numeral.maxDigits < digits.length then .error (.longInteger digits.length)
        else
          let value : Int := Numeral.natOf digits
          .ok (.int (if negative then -value else value), rest)

/-! ## Values -/

def readWord (word : List Char) (value : Json) (text : List Char) (h : 0 < word.length) :
    Reading Json text :=
  if word.isPrefixOf text then
    if hl : word.length ≤ text.length then
      .ok (value, ⟨text.drop word.length, by simp; omega⟩)
    else .error .malformed
  else .error .malformed

def readScalar (text : List Char) : Reading Json text :=
  match text with
  | 'n' :: _ => readWord "null".toList .null _ (by decide)
  | 't' :: _ => readWord "true".toList (.bool true) _ (by decide)
  | 'f' :: _ => readWord "false".toList (.bool false) _ (by decide)
  | 'N' :: _ => readWord "NaN".toList (.float (.nan false)) _ (by decide)
  | 'I' :: _ => readWord "Infinity".toList (.float (.infinite false)) _ (by decide)
  | '"' :: rest =>
    match readString rest with
    | some (chars, left) => .ok (.str (String.ofList chars), left.widen (by simp))
    | none => .error .malformed
  | '-' :: 'I' :: _ => readWord "-Infinity".toList (.float (.infinite true)) _ (by decide)
  | '-' :: rest => (readMagnitude true rest).map fun (value, left) => (value, left.widen (by simp))
  | _ => readMagnitude false _

/-- What follows a mark at the front, after blanks. -/
def mark? (mark : Char) (text : List Char) : Option (Rest text) :=
  match skip text with
  | ⟨[], _⟩ => none
  | ⟨c :: rest, h⟩ => if c = mark then some ⟨rest, by simp at h; omega⟩ else none

mutual

/-- The value at the front of a text, after blanks, with so many levels of
containers at most. -/
def readValue (levels : Nat) (text : List Char) : Reading Json text :=
  match mark? '[' text with
  | some rest =>
    match levels with
    | 0 => .error .tooDeep
    | levels + 1 =>
      match mark? ']' rest.1 with
      | some tail => .ok (.arr [], tail.widen (Nat.le_of_lt rest.2))
      | none =>
        match readItems levels rest.1 with
        | .ok (items, left) => .ok (.arr items, left.widen (Nat.le_of_lt rest.2))
        | .error e => .error e
  | none =>
    match mark? '{' text with
    | some rest =>
      match levels with
      | 0 => .error .tooDeep
      | levels + 1 =>
        match mark? '}' rest.1 with
        | some tail => .ok (.obj [], tail.widen (Nat.le_of_lt rest.2))
        | none =>
          match readFields levels [] rest.1 with
          | .ok (fields, left) => .ok (.obj fields, left.widen (Nat.le_of_lt rest.2))
          | .error e => .error e
    | none =>
      match skip text with
      | ⟨start, h⟩ => (readScalar start).map fun (value, left) => (value, left.widen h)
termination_by 2 * text.length
decreasing_by
  all_goals
    have := rest.2
    omega

def readItems (levels : Nat) (text : List Char) : Reading (List Json) text :=
  match readValue levels text with
  | .error e => .error e
  | .ok (item, left) =>
    match mark? ']' left.1 with
    | some tail => .ok ([item], tail.widen (Nat.le_of_lt left.2))
    | none =>
      match mark? ',' left.1 with
      | some tail =>
        have hlt : tail.1.length < text.length := Nat.lt_trans tail.2 left.2
        match readItems levels tail.1 with
        | .ok (items, rest) => .ok (item :: items, rest.widen (Nat.le_of_lt hlt))
        | .error e => .error e
      | none => .error .malformed
termination_by 2 * text.length + 1

/-- The members up to the closing brace, added to those before them. -/
def readFields (levels : Nat) (fields : List (String × Json)) (text : List Char) :
    Reading (List (String × Json)) text :=
  match mark? '"' text with
  | none => .error .malformed
  | some rest =>
    match readString rest.1 with
    | none => .error .malformed
    | some (key, keyLeft) =>
      match mark? ':' keyLeft.1 with
      | none => .error .malformed
      | some start =>
        have hs : start.1.length < text.length :=
          Nat.lt_trans start.2 (Nat.lt_trans keyLeft.2 rest.2)
        match readValue levels start.1 with
        | .error e => .error e
        | .ok (value, left) =>
          let fields := Fields.set (String.ofList key) value fields
          have hl : left.1.length < text.length := Nat.lt_trans left.2 hs
          match mark? '}' left.1 with
          | some tail => .ok (fields, tail.widen (Nat.le_of_lt hl))
          | none =>
            match mark? ',' left.1 with
            | none => .error .malformed
            | some tail =>
              have ht : tail.1.length < text.length := Nat.lt_trans tail.2 hl
              match readFields levels fields tail.1 with
              | .ok (all, rest') => .ok (all, rest'.widen (Nat.le_of_lt ht))
              | .error e => .error e
termination_by 2 * text.length + 1

end

def readWithin (levels : Nat) (text : String) : Except ReadError Json :=
  match readValue levels text.toList with
  | .error e => .error e
  | .ok (value, rest) => if (skip rest.1).1.isEmpty then .ok value else .error .malformed

def maxDepth : Nat := 985

def read (text : String) : Except ReadError Json := readWithin maxDepth text

end Sitecheck.Json
