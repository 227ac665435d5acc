import Sitecheck.Text.Chars
import Sitecheck.Url.Nameprep
import Sitecheck.Url.Punycode

/-!
# International host names

A host name is cut into labels at the full stops.  An ASCII label stays; any
other is prepared and, if that leaves characters beyond ASCII, written in
Punycode behind `xn--`.  A written label has 1 to 63 characters.
-/

namespace Sitecheck.Url.Idna

inductive Refusal where
  | labelSize
  | lastLabelSize
  | encodedAlready
  | unprepared (cause : Nameprep.Refusal)
  deriving DecidableEq

def Refusal.message (refusal : Refusal) : String :=
  let reason :=
    match refusal with
    | .labelSize => "label empty or too long"
    | .lastLabelSize => "label too long"
    | .encodedAlready => "Label starts with ACE prefix"
    | .unprepared cause => cause.message
  "encoding with 'idna' codec failed (UnicodeError: " ++ reason ++ ")"

def isAscii (label : List Char) : Bool := label.all (·.toNat < 128)

def sized (label : List Char) : Except Refusal (List Char) :=
  if 0 < label.length && label.length < 64 then .ok label else .error .labelSize

def mark : List Char := ['x', 'n', '-', '-']

def writeLabel (label : List Char) : Except Refusal (List Char) :=
  if isAscii label then sized label
  else
    match Nameprep.prepare label with
    | .error cause => .error (.unprepared cause)
    | .ok prepared =>
      if isAscii prepared then sized prepared
      else if Chars.startsWith mark prepared then .error .encodedAlready
      else sized (mark ++ Punycode.encode prepared)

def isStop (c : Char) : Bool := [0x2e, 0x3002, 0xff0e, 0xff61].contains c.toNat

def labels : List Char → List (List Char)
  | [] => [[]]
  | c :: rest =>
    if isStop c then [] :: labels rest
    else
      match labels rest with
      | [] => [[c]]
      | label :: more => (c :: label) :: more

def measured : List (List Char) → Except Refusal Unit
  | [] => .ok ()
  | [last] => if last.length < 64 then .ok () else .error .lastLabelSize
  | label :: rest => do
    let _ ← sized label
    measured rest

def encode (host : List Char) : Except Refusal (List Char) :=
  if host.isEmpty then .ok []
  else if isAscii host then do
    measured (Chars.splitOn ['.'] host)
    return host
  else do
    let all := labels host
    let ended := all.getLast? == some []
    let written ← (if ended then all.dropLast else all).mapM writeLabel
    return Chars.join ['.'] written ++ (if ended then ['.'] else [])

end Sitecheck.Url.Idna
