import Sitecheck.Text.Basic

/-!
# Blank characters

The characters that separate words: the ASCII blanks, the four separators from
U+001C, the next line and the Unicode space separators.  A zero-width space is
not among them.
-/

namespace Sitecheck.Text

def isBlank (c : Char) : Bool :=
  let n := c.toNat
  (9 ≤ n && n ≤ 13) || (0x1c ≤ n && n ≤ 0x20) || n == 0x85 || n == 0xa0 || n == 0x1680 ||
    (0x2000 ≤ n && n ≤ 0x200a) || n == 0x2028 || n == 0x2029 || n == 0x202f || n == 0x205f ||
    n == 0x3000

theorem isBlank_of_isWhitespace {c : Char} (h : c.isWhitespace) : isBlank c := by
  simp only [Char.isWhitespace, Bool.or_eq_true, decide_eq_true_eq] at h
  rcases h with ((rfl | rfl) | rfl) | rfl <;> decide

def strip (text : String) : String := trim isBlank text

namespace Words

def ofChars : (current text : List Char) → List (List Char)
  | current, [] => if current.isEmpty then [] else [current.reverse]
  | current, c :: text =>
    if isBlank c then
      if current.isEmpty then ofChars [] text else current.reverse :: ofChars [] text
    else ofChars (c :: current) text

end Words

def words (text : String) : List String := (Words.ofChars [] text.toList).map String.ofList

/-- One space for every run of blanks, and none at the ends. -/
def collapse (text : String) : String := join " " (words text)

end Sitecheck.Text
