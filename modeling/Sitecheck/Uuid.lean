import Sitecheck.Fault
import Sitecheck.Json.Reader

/-!
# Universal identifiers

An identifier is a number of 128 bits, written as 32 hexadecimal digits.  A
written one may have braces around it, a scheme in front and dashes anywhere.
-/

namespace Sitecheck.Uuid

def bare (text : String) : List Char :=
  let text := Text.replace "uuid:" "" (Text.replace "urn:" "" text)
  (Chars.trim (fun c => c = '{' || c = '}') text.toList).filter (· ≠ '-')

/-- The value of hexadecimal digits, perhaps after a sign and a mark of their base,
with single underscores between them and blanks around them. -/
def value? (text : List Char) : Option Int :=
  let (negative, digits) := Numeral.sign ((Chars.trim Numeral.isPadding text).map Numeral.asciiDigit)
  let digits := match digits with
    | '0' :: 'x' :: '_' :: rest | '0' :: 'X' :: '_' :: rest => rest
    | '0' :: 'x' :: rest | '0' :: 'X' :: rest => rest
    | digits => digits
  let groups := Chars.splitOn ['_'] digits
  if groups.all fun group => !group.isEmpty && group.all fun c => (Json.hexValue? c).isSome then
    let value : Nat := (groups.flatten.filterMap Json.hexValue?).foldl (fun value digit => 16 * value + digit) 0
    some (if negative then -(value : Int) else value)
  else none

def digits (text : String) : Except Fault String :=
  let bare := bare text
  if bare.length != 32 then .error (.refused "badly formed hexadecimal UUID string")
  else
    match value? bare with
    | none => .error .numeral
    | some (.negSucc _) => .error (.refused "int is out of range (need a 128-bit value)")
    | some (.ofNat value) => .ok (String.ofList (NumberFormat.pad 32 (Nat.toDigits 16 value)))

end Sitecheck.Uuid
