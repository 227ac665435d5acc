import Sitecheck.Text.Chars

/-!
# Numeric host addresses

Which texts are numeric addresses: four decimal octets, or eight groups of hex
digits of which one run may be left out.
-/

namespace Sitecheck.Url.Ip

def isOctet (text : List Char) : Bool :=
  text.all Char.isDigit && 0 < text.length && text.length ≤ 3 &&
    (text == ['0'] || text.head? != some '0') &&
    text.foldl (fun n c => 10 * n + (c.toNat - '0'.toNat)) 0 ≤ 255

def isV4 (text : List Char) : Bool :=
  let octets := Chars.splitOn ['.'] text
  octets.length == 4 && octets.all isOctet

def isHexDigit (c : Char) : Bool :=
  c.isDigit || ('a' ≤ c && c ≤ 'f') || ('A' ≤ c && c ≤ 'F')

def isGroup (text : List Char) : Bool :=
  text.all isHexDigit && 0 < text.length && text.length ≤ 4

/-- The groups between colons; four octets at the end stand for two groups. -/
def groups? (text : List Char) : Option (List (List Char)) :=
  let parts := Chars.splitOn [':'] text
  let last := parts.getLastD []
  if parts.length < 3 then none
  else if last.contains '.' then
    if isV4 last then some (parts.dropLast ++ [['0'], ['0']]) else none
  else some parts

/-- Groups of which one run is left out: the groups before it and after it,
either of which may be none, written as an empty group at the end. -/
def isShortened (before after : List (List Char)) : Bool :=
  let count (side : List (List Char)) (outer : Option (List Char)) : Option Nat :=
    if outer == some [] then if side.length == 1 then some 0 else none
    else if side.all isGroup then some side.length else none
  match count before before.head?, count after after.getLast? with
  | some low, some high => low + high < 8
  | _, _ => false

/-- Eight groups or fewer, with an optional zone after a percent sign. -/
def isV6 (text : List Char) : Bool :=
  let zone := (text.dropWhile (· ≠ '%')).drop 1
  let zoned := text.contains '%'
  if zoned && (zone.isEmpty || zone.contains '%') then false
  else
    match groups? (text.takeWhile (· ≠ '%')) with
    | none => false
    | some groups =>
      if 9 < groups.length then false
      else
        let inner := groups.tail.dropLast
        match inner.count [] with
        | 0 => groups.length == 8 && groups.all isGroup
        | 1 =>
          let position := inner.idxOf [] + 1
          isShortened (groups.take position) (groups.drop (position + 1))
        | _ => false

end Sitecheck.Url.Ip
