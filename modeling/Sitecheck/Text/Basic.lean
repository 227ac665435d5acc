import Sitecheck.Text.Chars
import Sitecheck.Text.Point

/-!
# Operations on strings

The string forms of the list functions.
-/

namespace Sitecheck.Text

def startsWith (pattern text : String) : Bool := Chars.startsWith pattern.toList text.toList

def contains (pattern text : String) : Bool := Chars.contains pattern.toList text.toList

def splitOn (pattern text : String) : List String :=
  (Chars.splitOn pattern.toList text.toList).map String.ofList

def join (separator : String) (parts : List String) : String :=
  String.ofList (Chars.join separator.toList (parts.map String.toList))

def replace (old new text : String) : String :=
  String.ofList (Chars.replace old.toList new.toList text.toList)

def count (pattern text : String) : Nat := Chars.count pattern.toList text.toList

def trim (p : Char → Bool) (text : String) : String := String.ofList (Chars.trim p text.toList)

def trimEnd (p : Char → Bool) (text : String) : String :=
  String.ofList (Chars.dropEndWhile p text.toList)

def trimStart (p : Char → Bool) (text : String) : String :=
  String.ofList (text.toList.dropWhile p)

def before (mark : Char) (text : String) : String :=
  String.ofList (text.toList.takeWhile (· ≠ mark))

def repeated (count : Nat) (c : Char) : String := String.ofList (List.replicate count c)

def padLeft (width : Nat) (c : Char) (text : String) : String :=
  repeated (width - text.length) c ++ text

end Sitecheck.Text
