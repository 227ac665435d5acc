import Sitecheck.Json.Reader
import Sitecheck.Text.Encoding
import Sitecheck.Text.Utf8

/-!
# Query strings

The names and values after the question mark of an address.  A plus sign is a
blank and a percent sign announces a byte; of several values for one name the
last counts.
-/

namespace Sitecheck.Server.Query

def isAscii (c : Char) : Bool := c.toNat < 0x80

/-- The bytes that a text of ASCII characters stands for. -/
def bytes : List Char → List Nat
  | '%' :: high :: low :: rest =>
    match Json.hexValue? high, Json.hexValue? low with
    | some h, some l => (16 * h + l) :: bytes rest
    | _, _ => '%'.toNat :: bytes (high :: low :: rest)
  | c :: rest => c.toNat :: bytes rest
  | [] => []

/-- Reads percent signs; characters beyond ASCII stay as they are. -/
def unquote (text : List Char) : List Char :=
  if text.contains '%' then
    (text.splitBy fun x y => isAscii x == isAscii y).flatMap fun run =>
      if run.all isAscii then Text.Utf8.decode (bytes run) else run
  else text

def unescape (text : List Char) : String :=
  String.ofList (unquote (text.map fun c => if c = '+' then ' ' else c))

def pair (text : List Char) : String × String :=
  (unescape (text.takeWhile (· ≠ '=')), unescape ((text.dropWhile (· ≠ '=')).drop 1))

/-- The names and values of a query, which arrives byte by byte. -/
def pairs (query : String) : List (String × String) :=
  let received := (Text.bytes query).map Char.ofNat
  ((Chars.splitOn ['&'] received).filter fun part => !part.isEmpty).map pair

def value? (name query : String) : Option String :=
  ((pairs query).reverse.find? fun pair => pair.1 == name).map Prod.snd

end Sitecheck.Server.Query
