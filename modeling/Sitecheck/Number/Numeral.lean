import Sitecheck.Number.Binary64
import Sitecheck.Text.Blank
import Sitecheck.Text.Digit

/-!
# Numbers written in decimal

Integers and binary numbers from their digits.  Written by people, a number may
have blanks around it, a sign, digits of any script and single underscores
between digits.
-/

namespace Sitecheck.Numeral

def natOf (digits : List Char) : Nat :=
  digits.foldl (fun value c => value * 10 + (c.toNat - 48)) 0

/-- The nearest number to `0.digits · 10 ^ point`; far outside the range of the
format the powers are not computed. -/
def nearest (negative : Bool) (value : Nat) (length : Nat) (exponent : Int) : Binary64 :=
  if value = 0 then .zero negative
  else if 400 < exponent + length then .infinite negative
  else if exponent + length < -400 then .zero negative
  else
    match exponent with
    | .ofNat e => .ofRatio negative (value * Nat.pow 10 e) 1
    | .negSucc e => .ofRatio negative value (Nat.pow 10 (e + 1))

def decimal (negative : Bool) (whole fraction : List Char) (exponent : Int) : Binary64 :=
  let digits := (whole ++ fraction).dropWhile (· = '0')
  nearest negative (natOf digits) digits.length (exponent - fraction.length)

/-! ## Numbers written by people -/

def isPadding (c : Char) : Bool :=
  Text.isBlank c && !(0x1c ≤ c.toNat && c.toNat ≤ 0x1f)

def asciiDigit (c : Char) : Char :=
  match Text.digitValue? c with
  | some value => Char.ofNat (48 + value)
  | none => c

def sign : List Char → Bool × List Char
  | '-' :: rest => (true, rest)
  | '+' :: rest => (false, rest)
  | rest => (false, rest)

/-- Drops underscores, each of which must stand between two digits. -/
def plain? : List Char → Option (List Char)
  | [] => some []
  | [c] => if c = '_' then none else some [c]
  | c :: d :: rest =>
    if d = '_' then
      match rest with
      | e :: more =>
        if c.isDigit && e.isDigit then (plain? (e :: more)).map (c :: ·) else none
      | [] => none
    else if c = '_' then none
    else (plain? (d :: rest)).map (c :: ·)

def normal (text : String) : List Char :=
  (Chars.trim isPadding text.toList).map asciiDigit

def maxDigits : Nat := 4300

inductive IntReading where
  | value (n : Int)
  | invalid
  | tooLong (digits : Nat)

def isRun (c : Char) : Bool := c.isDigit || c = '_'

/-- Reads an integer.  Too many digits are found before anything that follows them. -/
def readInt (text : String) : IntReading :=
  let (negative, rest) := sign (((text.toList).dropWhile isPadding).map asciiDigit)
  match plain? (rest.takeWhile isRun) with
  | none | some [] => .invalid
  | some digits =>
    if maxDigits < digits.length then .tooLong digits.length
    else if (rest.dropWhile isRun).all isPadding then
      .value (if negative then -(natOf digits : Int) else natOf digits)
    else .invalid

/-- Reads an integer from many copies of a text in a row.  If the text is more
than digits, its second copy makes the reading end. -/
def readCopies (count : Nat) (text : String) : IntReading :=
  let run := text.toList.map asciiDigit
  if count < 2 || count * run.length ≤ maxDigits then
    readInt (String.join (List.replicate count text))
  else
    match readInt (text ++ text) with
    | .invalid => .invalid
    | reading =>
      if run.all isRun then .tooLong (count * run.countP Char.isDigit) else reading

def word (text : List Char) : String := String.ofList (text.map Char.toLower)

/-- A number with an optional fraction and exponent, or one of the words for
infinity and for no number. -/
def readFloat? (text : String) : Option Binary64 :=
  let (negative, rest) := sign (normal text)
  if word rest = "inf" || word rest = "infinity" then some (.infinite negative)
  else if word rest = "nan" then some (.nan negative)
  else do
    let text ← plain? rest
    let whole := text.takeWhile Char.isDigit
    let afterWhole := text.dropWhile Char.isDigit
    let (fraction, afterFraction) :=
      match afterWhole with
      | '.' :: more => (more.takeWhile Char.isDigit, more.dropWhile Char.isDigit)
      | more => ([], more)
    if whole.isEmpty && fraction.isEmpty then none
    else
      match afterFraction with
      | [] => some (decimal negative whole fraction 0)
      | mark :: more =>
        if mark = 'e' || mark = 'E' then
          let (down, digits) := sign more
          if !digits.isEmpty && digits.all Char.isDigit then
            let size : Int := natOf digits
            some (decimal negative whole fraction (if down then -size else size))
          else none
        else none

end Sitecheck.Numeral
