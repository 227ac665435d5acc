import Sitecheck.Text.Blank

/-!
# The document in a reply

A language model wraps the document it was asked for in prose or in a fence of
three backticks, which may be tagged.
-/

namespace Sitecheck.Generate

def fence : List Char := ['`', '`', '`']

def taggedFence : List Char := fence ++ ['j', 's', 'o', 'n']

/-- What stands between the first `opening` and the next fence, or the next
`opening` if that comes first. -/
def fenced? (opening text : List Char) : Option (List Char) :=
  match Chars.splitOn opening text with
  | _ :: inside :: _ => (Chars.splitOn fence inside).head?
  | _ => none

/-- The document in a reply: what a tagged fence holds, else what a plain one
holds, else the whole text; blanks around it are dropped. -/
def payload (reply : List Char) : List Char :=
  Chars.trim Text.isBlank
    ((fenced? taggedFence reply).getD ((fenced? fence reply).getD reply))

/-- The document in a reply that has none but a tagged fence. -/
def taggedPayload (reply : List Char) : List Char :=
  match fenced? taggedFence reply with
  | some inside => Chars.trim Text.isBlank inside
  | none => reply

end Sitecheck.Generate
