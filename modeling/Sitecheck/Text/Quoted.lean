import Sitecheck.Text.Printable
import Sitecheck.Json.Writer

/-!
# Quoted text

A text between quotes, as it stands in messages and in displayed values.  The
quote is a single one, unless the text has single quotes and no double ones.
Backslashes, the quote in use and everything not printable are escaped.
-/

namespace Sitecheck.Text

namespace Quoted

def mark (text : List Char) : Char :=
  if text.contains '\'' && !text.contains '"' then '"' else '\''

def escapeCode (code : Nat) : List Char :=
  if code < 0x100 then '\\' :: 'x' :: Json.hexDigits 2 code
  else if code < 0x10000 then '\\' :: 'u' :: Json.hexDigits 4 code
  else '\\' :: 'U' :: Json.hexDigits 8 code

def escape (mark c : Char) : List Char :=
  if c = mark || c = '\\' then ['\\', c]
  else if c = '\n' then ['\\', 'n']
  else if c = '\r' then ['\\', 'r']
  else if c = '\t' then ['\\', 't']
  else if isPrintable c then [c]
  else escapeCode c.toNat

/-- A code point that is no character is written by its number. -/
def escapePoint (mark : Char) : List Char → List Char
  | [c] => escape mark c
  | point => escapeCode (code point)

def ofChars (text : List Char) : List Char :=
  let mark := mark text
  mark :: ((points text).flatMap (escapePoint mark) ++ [mark])

end Quoted

def quoted (text : String) : String := String.ofList (Quoted.ofChars text.toList)

end Sitecheck.Text
