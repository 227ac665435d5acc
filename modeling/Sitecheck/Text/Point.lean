/-!
# Code points

A text is a row of code points, and most code points are characters.  The
halves of surrogate pairs are not, and yet a text that arrives in escapes can
hold a half without its partner.  Such a half is kept as two characters, a mark
and a stand-in from the private range.  The mark is the last code point, which
no text has a use for; where it stands for itself it is doubled.  Cutting a text
into its code points loses nothing (`flatten_points`).
-/

namespace Sitecheck.Text

def mark : Char := Char.ofNat 0x10ffff

def isHalf (unit : Nat) : Bool := 0xd800 ≤ unit && unit ≤ 0xdfff

def charsOf (code : Nat) : List Char :=
  if isHalf code then [mark, Char.ofNat (code + 0x800)]
  else if code = mark.toNat then [mark, mark]
  else [Char.ofNat code]

def half? (c : Char) : Option Nat :=
  if 0xe000 ≤ c.toNat && c.toNat ≤ 0xe7ff then some (c.toNat - 0x800) else none

/-- Whether a character after a mark belongs to it. -/
def isMarked (c : Char) : Bool := c = mark || (half? c).isSome

/-- The code points of a text, each as the characters that hold it. -/
def points : List Char → List (List Char)
  | [] => []
  | [c] => [[c]]
  | c :: d :: rest =>
    if c = mark && isMarked d then [c, d] :: points rest else [c] :: points (d :: rest)

def code : List Char → Nat
  | [_, d] => (half? d).getD d.toNat
  | c :: _ => c.toNat
  | [] => 0

theorem flatten_points (text : List Char) : (points text).flatten = text := by
  fun_induction points text with
  | case1 => rfl
  | case2 c => rfl
  | case3 c d rest _ ih => simp [ih]
  | case4 c d rest _ ih => simp [ih]

def halfOf? : List Char → Option Nat
  | [_, d] => half? d
  | _ => none

def lastChar (point : List Char) : Char := point.getLastD mark

/-- A text in which every code point is one character, halves as their stand-ins. -/
def unmarked (text : List Char) : List Char := (points text).map lastChar

def codes (text : String) : List Nat := (points text.toList).map code

def isScalar (text : String) : Bool := (points text.toList).all fun point => (halfOf? point).isNone

/-- A text with every mark that stands for itself single, if it has no halves. -/
def scalar? (text : String) : Option String :=
  if isScalar text then some (String.ofList (unmarked text.toList)) else none

def size (text : String) : Nat := (points text.toList).length

def take (n : Nat) (text : String) : String := String.ofList ((points text.toList).take n).flatten

def drop (n : Nat) (text : String) : String := String.ofList ((points text.toList).drop n).flatten

def letters (text : String) : List String := (points text.toList).map String.ofList

/-- The place of a code point in their order.  A mark that marks nothing comes last. -/
def rank (point : List Char) : Nat := if point = [mark] then 0x110000 else code point

def ranks (text : String) : List Nat := (points text.toList).map rank

/-- Whether a text stands at or before another in the order of code points. -/
def atOrBefore (first second : String) : Bool := !(List.lex (ranks second) (ranks first))

end Sitecheck.Text
