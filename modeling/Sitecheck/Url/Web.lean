import Sitecheck.Schema.Scalar
import Sitecheck.Text.Alphanumeric
import Sitecheck.Url.Idna

/-!
# Web addresses

The address of a page: scheme, user, host, port, path, query and fragment.
The scheme has to be http or https, and a host that is a name has to end in a
top-level domain.  A host with an international name is written in ASCII,
and the address put together again without its port.
-/

namespace Sitecheck.Url.Web

/-! ## Classes of characters, without regard to case -/

/-- A letter, or one of the characters that a letter folds to or from. -/
def isLetter (c : Char) : Bool :=
  c.isAlpha || [0x130, 0x131, 0x17f, 0x212a].contains c.toNat

def isSchemeChar (c : Char) : Bool := isLetter c || c.isDigit || c = '+' || c = '-' || c = '.'

def isHexDigit (c : Char) : Bool :=
  c.isDigit || ('a' ≤ c && c ≤ 'f') || ('A' ≤ c && c ≤ 'F')

def isUserChar (c : Char) : Bool := !(Text.isBlank c || c = ':' || c = '/')

def isPasswordChar (c : Char) : Bool := !(Text.isBlank c || c = '/')

def isDomainChar (c : Char) : Bool :=
  !(Text.isBlank c || c = '/' || c = ':' || c = '?' || c = '#')

def isPathChar (c : Char) : Bool := !(Text.isBlank c || c = '?' || c = '#')

def isQueryChar (c : Char) : Bool := !(Text.isBlank c || c = '#')

/-! ## Parts -/

inductive Host where
  | name (labels : List Char)
  | address (written : List Char)

structure Parts where
  user : List Char
  password : List Char
  host : Option Host
  port : Option (List Char)
  path : List Char
  query : List Char
  fragment : List Char
  rest : List Char

def scheme? (text : List Char) : Option (List Char × List Char) :=
  let scheme := text.takeWhile isSchemeChar
  match scheme, Chars.after? [':', '/', '/'] (text.dropWhile isSchemeChar) with
  | first :: _ :: _, some rest => if isLetter first then some (scheme, rest) else none
  | _, _ => none

/-- The parts of a run before and after its last `@`. -/
def lastAt? (run : List Char) : Option (List Char × List Char) :=
  match run.reverse.dropWhile (· ≠ '@') with
  | [] => none
  | _ :: front => some (front.reverse, (run.reverse.takeWhile (· ≠ '@')).reverse)

/-- User and password, and what follows their `@`; both are empty without one. -/
def userInfo (text : List Char) : List Char × List Char × List Char :=
  let run := text.takeWhile isUserChar
  let behind := text.dropWhile isUserChar
  let alone : List Char × List Char × List Char :=
    match lastAt? run with
    | some (user, rest) => (user, [], rest ++ behind)
    | none => ([], [], text)
  match behind with
  | ':' :: tail =>
    match lastAt? (tail.takeWhile isPasswordChar) with
    | some (password, rest) => (run, password, rest ++ tail.dropWhile isPasswordChar)
    | none => alone
  | _ => alone

def endsHost : List Char → Bool
  | [] => true
  | c :: _ => c = '/' || c = ':' || c = '#' || c = '?'

def digits? (text : List Char) : Option (List Char × List Char) :=
  let run := (text.takeWhile Text.isDecimalDigit).take 3
  if run.isEmpty then none else some (run, text.drop run.length)

def groups? : (count : Nat) → List Char → Option (List Char × List Char)
  | 0, text => some ([], text)
  | count + 1, text =>
    match digits? text with
    | some (run, '.' :: rest) =>
      (groups? count rest).map fun (more, rest) => (run ++ '.' :: more, rest)
    | _ => none

def fourGroups? (text : List Char) : Option (List Char × List Char) := do
  let (front, rest) ← groups? 3 text
  let (run, rest) ← digits? rest
  if endsHost rest then some (front ++ run, rest) else none

/-- An address in brackets: hexadecimal digits and colons, with a colon that
something follows. -/
def bracketed? : List Char → Option (List Char × List Char)
  | '[' :: text =>
    let inside := text.takeWhile fun c => isHexDigit c || c = ':'
    match text.drop inside.length with
    | ']' :: rest =>
      if (inside.dropWhile isHexDigit).length < 2 || !endsHost rest then none
      else some ('[' :: (inside ++ [']']), rest)
    | _ => none
  | _ => none

def host (text : List Char) : Option Host × List Char :=
  match fourGroups? text with
  | some (written, rest) => (some (.address written), rest)
  | none =>
    match bracketed? text with
    | some (written, rest) => (some (.address written), rest)
    | none =>
      match text.takeWhile isDomainChar with
      | [] => (none, text)
      | run => (some (.name run), text.dropWhile isDomainChar)

def port (text : List Char) : Option (List Char) × List Char :=
  match text with
  | ':' :: tail =>
    match tail.takeWhile Text.isDecimalDigit with
    | [] => (none, text)
    | run => (some run, tail.dropWhile Text.isDecimalDigit)
  | _ => (none, text)

def marked (mark : Char) (p : Char → Bool) (text : List Char) : List Char × List Char :=
  match text with
  | c :: tail => if c = mark then (tail.takeWhile p, tail.dropWhile p) else ([], text)
  | [] => ([], [])

def path (text : List Char) : List Char × List Char :=
  match text with
  | '/' :: _ => (text.takeWhile isPathChar, text.dropWhile isPathChar)
  | _ => ([], text)

def parts (text : List Char) : Parts :=
  let (user, password, text) := userInfo text
  let (host, text) := host text
  let (port, text) := port text
  let (path, text) := path text
  let (query, text) := marked '?' isQueryChar text
  let (fragment, rest) := marked '#' isQueryChar text
  ⟨user, password, host, port, path, query, fragment, rest⟩

/-! ## Host names -/

/-- A character of a label in a host name, the hyphen apart. -/
inductive Alphabet where
  | ascii
  | international

def Alphabet.mem (alphabet : Alphabet) (c : Char) : Bool :=
  c = '_' || c.isDigit || isLetter c ||
    match alphabet with
    | .ascii => false
    | .international => 'a' ≤ c && c.toNat ≤ 0x40000

/-- At most 63 characters, of which neither end is a hyphen. -/
def isLabel (alphabet : Alphabet) (label : List Char) : Bool :=
  match label, label.getLast? with
  | first :: _, some last =>
    label.length ≤ 63 && alphabet.mem first && alphabet.mem last &&
      label.all fun c => c = '-' || alphabet.mem c
  | _, _ => false

def isTopLevel (alphabet : Alphabet) (label : List Char) : Bool :=
  let letters (p : Char → Bool) : Bool := 2 ≤ label.length && label.length ≤ 63 && label.all p
  match alphabet with
  | .ascii => letters isLetter
  | .international =>
    letters (fun c => Text.isAlphanumeric c && !Text.isDecimalDigit c) ||
      match Chars.after? ['x', 'n', '-', '-'] (label.map Char.toLower) with
      | some code =>
        2 ≤ code.length && code.length ≤ 63 &&
          code.all fun c => c = '-' || c = '_' || c.isDigit || isLetter c
      | none => false

inductive NameForm where
  | refused
  | plain
  | topLevel

/-- Whether a name is made of labels and whether the last of several is a
top-level domain.  A final full stop is allowed. -/
def form (alphabet : Alphabet) (name : List Char) : NameForm :=
  let all := Chars.splitOn ['.'] name
  let labels := if 1 < all.length && all.getLast? == some [] then all.dropLast else all
  match labels.reverse with
  | last :: first :: front =>
    if (first :: front).all (isLabel alphabet) then
      if isTopLevel alphabet last then .topLevel
      else if isLabel alphabet last then .plain
      else .refused
    else .refused
  | [label] => if isLabel alphabet label then .plain else .refused
  | [] => .refused

/-- Whether a name is international; a name without a top-level domain is refused. -/
def isInternational (name : List Char) : Except Schema.Cause Bool :=
  let name := Text.unmarked name
  match form .ascii name with
  | .topLevel => .ok false
  | ascii =>
    match form .international name, ascii with
    | .topLevel, _ => .ok true
    | .refused, .refused => .error .hostInvalid
    | _, _ => .error .domainNeeded

/-! ## Reading an address -/

def rebuilt (scheme : List Char) (parts : Parts) (host : List Char) : List Char :=
  let led (lead : Char) (text : List Char) := if text.isEmpty then [] else lead :: text
  let user := parts.user ++ led ':' parts.password
  scheme ++ [':', '/', '/'] ++ (if user.isEmpty then [] else user ++ ['@']) ++ host ++
    parts.path ++ led '?' parts.query ++ led '#' parts.fragment

def portNumber (port : List Char) : Nat :=
  port.foldl (fun n c => 10 * n + (Text.digitValue? c).getD 0) 0

/-- An address with its rules checked, one after the other. -/
def ofText (text : List Char) : Except Schema.Cause (List Char) := do
  let some (scheme, behind) := scheme? text | throw .schemeMissing
  unless ["http", "https"].contains (Text.lower (String.ofList scheme)) do throw .schemeRefused
  let parts := parts behind
  if 65535 < (parts.port.map portNumber).getD 0 then throw .portTooLarge
  let address ←
    match parts.host with
    | none => throw .hostInvalid
    | some (.address _) => pure text
    | some (.name name) => do
      if ← isInternational name then
        match Idna.encode name with
        | .ok host => pure (rebuilt scheme parts host)
        | .error refusal => throw (.hostEncoding refusal.message)
      else pure text
  if parts.rest.isEmpty then pure address
  else throw (.leftOver (String.ofList parts.rest))

def maxLength : Nat := 2083

def check (text : String) : Except Schema.Cause String :=
  let address := Text.strip text
  if Text.size address < 1 then .error (.tooShort 1)
  else if maxLength < Text.size address then .error (.tooLong maxLength)
  else (ofText address.toList).map String.ofList

end Sitecheck.Url.Web

namespace Sitecheck.Schema

def webAddress : Reader String := fun value =>
  (text value).andThen fun address =>
    match Url.Web.check address with
    | .ok address => .value address
    | .error cause => .fail cause

end Sitecheck.Schema
