import Sitecheck.Text.Point

/-!
# Texts in bytes

A document travels as bytes, in UTF-8 or in units of two or four bytes.  It
starts with characters of the ASCII range, so that the zeros among its first
bytes show the width of its units and which end of them comes first.  A mark of
the byte order may stand before a document in UTF-8.
-/

namespace Sitecheck.Text

/-- The bytes of a code point in UTF-8; a half is written like a character. -/
def utf8Bytes (code : Nat) : List Nat :=
  if code < 0x80 then [code]
  else if code < 0x800 then [0xc0 + code / 0x40, 0x80 + code % 0x40]
  else if code < 0x10000 then
    [0xe0 + code / 0x1000, 0x80 + code / 0x40 % 0x40, 0x80 + code % 0x40]
  else
    [0xf0 + code / 0x40000, 0x80 + code / 0x1000 % 0x40, 0x80 + code / 0x40 % 0x40,
      0x80 + code % 0x40]

def bytes (text : String) : List Nat := (codes text).flatMap utf8Bytes

/-! ## Units of several bytes -/

structure Units where
  width : Nat
  largeEndFirst : Bool

namespace Units

def ofBytes? : List Nat → Option Units
  | 0 :: second :: _ :: _ :: _ => some ⟨if second = 0 then 4 else 2, true⟩
  | _ :: 0 :: third :: fourth :: _ => some ⟨if third = 0 && fourth = 0 then 4 else 2, false⟩
  | [0, _] => some ⟨2, true⟩
  | [_, 0] => some ⟨2, false⟩
  | _ => none

def value (units : Units) (bytes : List Nat) : Nat :=
  (if units.largeEndFirst then bytes else bytes.reverse).foldl (fun value byte => 256 * value + byte) 0

/-- Cuts bytes into units, which have to come out even; `unit` is the part of a
unit read so far, last byte first. -/
def cut? (units : Units) : (unit bytes : List Nat) → Option (List Nat)
  | unit, [] => if unit.isEmpty then some [] else none
  | unit, byte :: bytes =>
    if unit.length + 1 < units.width then cut? units (byte :: unit) bytes
    else (cut? units [] bytes).map (units.value (byte :: unit).reverse :: ·)

end Units

/-- Code points from units of two bytes: two halves of a pair are one. -/
def joinHalves : List Nat → List Nat
  | high :: low :: rest =>
    if 0xd800 ≤ high && high ≤ 0xdbff && 0xdc00 ≤ low && low ≤ 0xdfff then
      (0x10000 + (high - 0xd800) * 0x400 + (low - 0xdc00)) :: joinHalves rest
    else high :: joinHalves (low :: rest)
  | units => units

def ofUnits? (units : Units) (bytes : List Nat) : Option String := do
  let read ← units.cut? [] bytes
  let codes := if units.width = 2 then joinHalves read else read
  if codes.all (· < 0x110000) then some (String.ofList (codes.flatMap charsOf)) else none

def byteOrderMark : Char := Char.ofNat 0xfeff

/-- A document as its bytes say, given the text that they are in UTF-8. -/
def document? (text : String) : Option String :=
  match Units.ofBytes? (bytes text) with
  | some units => ofUnits? units (bytes text)
  | none =>
    match text.toList with
    | first :: rest => some (if first = byteOrderMark then String.ofList rest else text)
    | [] => some text

end Sitecheck.Text
