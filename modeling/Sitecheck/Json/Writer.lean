import Sitecheck.Json.Basic
import Sitecheck.Number.Decimal
import Sitecheck.Text.Point

/-!
# Writing JSON

A document is written on one line, with a blank after each comma and colon, or
as a block with one member on each line.  Empty containers are never broken.
Every character outside the printable ASCII range is written as an escape of
its UTF-16 units.  Writing puts a text before a rest, so that nested values are
written in one pass.
-/

namespace Sitecheck

def Json.numbers : NumberFormat :=
  { largePoint := 17, smallPoint := -4, infinity := "Infinity", notANumber := "NaN" }

namespace Json

/-! ## Strings -/

def hexDigits (width n : Nat) : List Char := NumberFormat.pad width (Nat.toDigits 16 n)

def escapeUnit (unit : Nat) : List Char := '\\' :: 'u' :: hexDigits 4 unit

def units (code : Nat) : List Nat :=
  if code < 0x10000 then [code]
  else [0xd800 + (code - 0x10000) / 0x400, 0xdc00 + (code - 0x10000) % 0x400]

def escapeChar (c : Char) : List Char :=
  if c = '"' then ['\\', '"']
  else if c = '\\' then ['\\', '\\']
  else if c = '\n' then ['\\', 'n']
  else if c = '\r' then ['\\', 'r']
  else if c = '\t' then ['\\', 't']
  else if c = '\x0c' then ['\\', 'f']
  else if c = '\x08' then ['\\', 'b']
  else if ' ' ≤ c && c ≤ '~' then [c]
  else (units c.toNat).flatMap escapeUnit

/-- A code point as it is written; a half is a unit by itself. -/
def escapePoint : List Char → List Char
  | [c] => escapeChar c
  | point => (units (Text.code point)).flatMap escapeUnit

def quote (text : String) (rest : List Char) : List Char :=
  '"' :: ((Text.points text.toList).flatMap escapePoint ++ '"' :: rest)

/-! ## Documents -/

/-- On one line, or with members on lines of their own, indented by a step. -/
inductive Layout where
  | line
  | block (step : Nat)

def Layout.lead (layout : Layout) (depth : Nat) : List Char :=
  match layout with
  | .line => []
  | .block step => '\n' :: List.replicate (step * depth) ' '

def Layout.comma : Layout → List Char
  | .line => [',', ' ']
  | .block _ => [',']

def intText (value : Int) : List Char :=
  (if value < 0 then ['-'] else []) ++ Nat.toDigits 10 value.natAbs

mutual

/-- A value as it is written, before a rest. -/
def writeValue (layout : Layout) (depth : Nat) : Json → List Char → List Char
  | .null, rest => 'n' :: 'u' :: 'l' :: 'l' :: rest
  | .bool true, rest => 't' :: 'r' :: 'u' :: 'e' :: rest
  | .bool false, rest => 'f' :: 'a' :: 'l' :: 's' :: 'e' :: rest
  | .int value, rest => intText value ++ rest
  | .float value, rest => (numbers.write value).toList ++ rest
  | .str text, rest => quote text rest
  | .arr [], rest => '[' :: ']' :: rest
  | .arr (item :: items), rest =>
    '[' :: (layout.lead (depth + 1) ++ writeValue layout (depth + 1) item
      (writeItems layout (depth + 1) items (layout.lead depth ++ ']' :: rest)))
  | .obj [], rest => '{' :: '}' :: rest
  | .obj (field :: fields), rest =>
    '{' :: (layout.lead (depth + 1) ++ writeField layout (depth + 1) field
      (writeFields layout (depth + 1) fields (layout.lead depth ++ '}' :: rest)))

def writeItems (layout : Layout) (depth : Nat) : List Json → List Char → List Char
  | [], rest => rest
  | item :: items, rest =>
    layout.comma ++ layout.lead depth ++ writeValue layout depth item
      (writeItems layout depth items rest)

def writeField (layout : Layout) (depth : Nat) : String × Json → List Char → List Char
  | (key, value), rest => quote key (':' :: ' ' :: writeValue layout depth value rest)

def writeFields (layout : Layout) (depth : Nat) : List (String × Json) → List Char → List Char
  | [], rest => rest
  | field :: fields, rest =>
    layout.comma ++ layout.lead depth ++ writeField layout depth field
      (writeFields layout depth fields rest)

end

def write (layout : Layout) (value : Json) : String := String.ofList (writeValue layout 0 value [])

/-! ## Numbers that cannot be written -/

def maxDigits : Nat := 4300

def isUnwritable (value : Int) : Bool := decide (Nat.pow 10 maxDigits ≤ value.natAbs)

mutual

/-- What is written of a value up to its first integer that is not; none if all of
it is written. -/
def draftValue (layout : Layout) (depth : Nat) : Json → Option (List Char)
  | .int value => if isUnwritable value then some [] else none
  | .arr items => draftItems layout (depth + 1) ('[' :: layout.lead (depth + 1)) items
  | .obj fields => draftFields layout (depth + 1) ('{' :: layout.lead (depth + 1)) fields
  | _ => none

/-- What stands before an item is written together with it, if the item is a number. -/
def draftItems (layout : Layout) (depth : Nat) (lead : List Char) : List Json → Option (List Char)
  | [] => none
  | item :: items =>
    match item, draftValue layout depth item with
    | .int _, some _ => some []
    | _, some draft => some (lead ++ draft)
    | item, none =>
      (draftItems layout depth (layout.comma ++ layout.lead depth) items).map fun draft =>
        lead ++ writeValue layout depth item draft

def draftFields (layout : Layout) (depth : Nat) (lead : List Char) :
    List (String × Json) → Option (List Char)
  | [] => none
  | (key, value) :: fields =>
    match draftValue layout depth value with
    | some draft => some (lead ++ quote key (':' :: ' ' :: draft))
    | none =>
      (draftFields layout depth (layout.comma ++ layout.lead depth) fields).map fun draft =>
        lead ++ writeField layout depth (key, value) draft

end

def draft (value : Json) : Option String := (draftValue (.block 2) 0 value).map String.ofList

def pretty (value : Json) : String := write (.block 2) value

end Json

end Sitecheck
