import Sitecheck.Fault
import Sitecheck.Url.Ip

/-!
# The parts of an address

Any text can be cut into a scheme, a host and a path.  Only brackets and
look-alike marks in the host are refused.
-/

namespace Sitecheck.Url

structure Split where
  scheme : String
  host : String
  path : String

namespace Split

def isControlOrSpace (c : Char) : Bool := c.toNat ≤ 0x20

/-- What cannot be part of an address and is left out. -/
def isOmitted (c : Char) : Bool := c = '\t' || c = '\r' || c = '\n'

def isSchemeChar (c : Char) : Bool := c.isAlphanum || c = '+' || c = '-' || c = '.'

def takeScheme (text : List Char) : List Char × List Char :=
  let front := text.takeWhile (· ≠ ':')
  match front, Chars.cut? [':'] text with
  | first :: _, some (_, rest) =>
    if first.isAlpha && front.all isSchemeChar then (front.map Char.toLower, rest) else ([], text)
  | _, _ => ([], text)

def endsHost (c : Char) : Bool := c = '/' || c = '?' || c = '#'

/-- The host, if two slashes announce one, and what follows it. -/
def takeHost (text : List Char) : List Char × List Char :=
  match Chars.after? ['/', '/'] text with
  | some rest => (rest.takeWhile (!endsHost ·), rest.dropWhile (!endsHost ·))
  | none => ([], text)

/-- An address of a later kind: `v`, a number in hex digits, a full stop and more. -/
def isFutureAddress (text : List Char) : Bool :=
  let number := text.tail.takeWhile Ip.isHexDigit
  match text.tail.dropWhile Ip.isHexDigit with
  | '.' :: _ :: _ => !number.isEmpty
  | _ => false

def checkBracketed (text : List Char) : Except Fault Unit :=
  if text.head? = some 'v' then
    if isFutureAddress text then .ok () else .error (.refused "IPvFuture address is invalid")
  else if Ip.isV4 text then .error (.refused "An IPv4 address cannot be in brackets")
  else if Ip.isV6 text then .ok ()
  else .error (.refused (Text.quoted (String.ofList text) ++
    " does not appear to be an IPv4 or IPv6 address"))

def checkBrackets (host : List Char) : Except Fault Unit :=
  match host.contains '[', host.contains ']' with
  | false, false => .ok ()
  | true, true => checkBracketed (((host.dropWhile (· ≠ '[')).drop 1).takeWhile (· ≠ ']'))
  | _, _ => .error (.refused "Invalid IPv6 URL")

/-- The characters that stand for one of `/ ? # @ :` or for a group with one. -/
def lookAlikes : List Nat :=
  [0x2047, 0x2048, 0x2049, 0x2100, 0x2101, 0x2105, 0x2106, 0x2a74, 0xfe13, 0xfe16, 0xfe55, 0xfe56,
    0xfe5f, 0xfe6b, 0xff03, 0xff0f, 0xff1a, 0xff1f, 0xff20]

def checkLookAlikes (host : List Char) : Except Fault Unit :=
  if host.any fun c => lookAlikes.contains c.toNat then
    .error (.refused ("netloc '" ++ String.ofList host ++
      "' contains invalid characters under NFKC normalization"))
  else .ok ()

def parameterSchemes : List String :=
  ["", "ftp", "hdl", "prospero", "http", "imap", "https", "shttp", "rtsp", "rtsps", "rtspu", "sip",
    "sips", "mms", "sftp", "tel"]

def withoutParameters (path : List Char) : List Char :=
  let last := path.reverse.takeWhile (· ≠ '/')
  path.take (path.length - last.length) ++ last.reverse.takeWhile (· ≠ ';')

def ofText (text : String) : Except Fault Split := do
  let text := (text.toList.dropWhile isControlOrSpace).filter (!isOmitted ·)
  let (scheme, rest) := takeScheme text
  let (host, rest) := takeHost rest
  checkBrackets host
  checkLookAlikes host
  let path := (rest.takeWhile (· ≠ '#')).takeWhile (· ≠ '?')
  let scheme := String.ofList scheme
  return { scheme := scheme
           host := String.ofList host
           path := String.ofList
             (if parameterSchemes.contains scheme then withoutParameters path else path) }

end Split

end Sitecheck.Url
