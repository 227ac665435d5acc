import Sitecheck.Schema.Issue

/-!
# Faults

Why an operation did not give a result.  A fault is a cause; its wording is
`Fault.text`.
-/

namespace Sitecheck

inductive DiskFault where
  | missing
  | directory
  | notDirectory
  | present
  | nameTooLong
  deriving DecidableEq

/-- The families of faults that the surroundings report by name. -/
inductive OuterKind where
  | runtime
  | value
  | timeout
  | connection
  | fileMissing
  | permission
  | general
  | processTimeout
  | other (name : String)
  deriving DecidableEq

inductive Fault where
  | invalid (report : Schema.Report)
  | missingKey (key : String)
  | wrongKind (message : String)
  | noMember (kind member : String)
  | outOfRange
  | malformed
  | longInteger (digits : Nat)
  | unwritable
  | tooDeep
  /-- A text with a code point that is no character, which has no bytes. -/
  | unencodable
  | undecodable
  | noMemory
  | numeral
  | overflow
  | refused (message : String)
  | fileMissing (message : String)
  | packageMissing (message : String)
  | settings
  | disk (cause : DiskFault) (path : String)
  | outer (kind : OuterKind) (message : String)
  deriving DecidableEq

namespace DiskFault

def text (cause : DiskFault) (path : String) : String :=
  let reason :=
    match cause with
    | .missing => "[Errno 2] No such file or directory: "
    | .directory => "[Errno 21] Is a directory: "
    | .notDirectory => "[Errno 20] Not a directory: "
    | .present => "[Errno 17] File exists: "
    | .nameTooLong => "[Errno 36] File name too long: "
  reason ++ Text.quoted path

end DiskFault

namespace Fault

def text : Fault → String
  | .invalid report => report.text
  | .missingKey key => Text.quoted key
  | .wrongKind message => message
  | .noMember kind member => "'" ++ kind ++ "' object has no attribute '" ++ member ++ "'"
  | .outOfRange => "list index out of range"
  | .malformed => "Expecting value"
  | .longInteger digits =>
    "Exceeds the limit (4300 digits) for integer string conversion: value has " ++
      toString digits ++ " digits; use sys.set_int_max_str_digits() to increase the limit"
  | .unwritable =>
    "Exceeds the limit (4300 digits) for integer string conversion; " ++
      "use sys.set_int_max_str_digits() to increase the limit"
  | .tooDeep => "maximum recursion depth exceeded"
  | .unencodable => "surrogates not allowed"
  | .undecodable => "invalid start byte"
  | .noMemory => ""
  | .numeral => "invalid literal"
  | .overflow => "cannot convert float infinity to integer"
  | .refused message => message
  | .fileMissing message => message
  | .packageMissing message => message
  | .settings => "error parsing JSON"
  | .disk cause path => cause.text path
  | .outer _ message => message

def isTimeout : Fault → Bool
  | .outer .timeout _ => true
  | _ => false

def isFileMissing : Fault → Bool
  | .fileMissing _ => true
  | .disk .missing _ => true
  | .outer .fileMissing _ => true
  | _ => false

end Fault

end Sitecheck
