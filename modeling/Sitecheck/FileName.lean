import Sitecheck.Text.Blank

/-!
# File names

Any text as a file name: an underscore for every reserved character, and no
blanks at the ends.
-/

namespace Sitecheck.FileName

def reserved : List Char := ['<', '>', ':', '"', '/', '\\', '|', '?', '*']

def plain (c : Char) : Char := if reserved.contains c then '_' else c

def ofText (text : String) : String :=
  Text.strip (String.ofList (text.toList.map plain))

end Sitecheck.FileName
