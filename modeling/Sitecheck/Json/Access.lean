import Sitecheck.Fault
import Sitecheck.Json.Reader

/-!
# Looking into untyped values

Replies, reports and requests arrive as values of unknown shape.  Each
function here looks one step into such a value and names the fault when the
shape does not allow it.
-/

namespace Sitecheck.Json

def kindName : Json → String
  | .null => "NoneType"
  | .bool _ => "bool"
  | .int _ => "int"
  | .float _ => "float"
  | .str _ => "str"
  | .arr _ => "list"
  | .obj _ => "dict"

/-- Everything but null, false, zero and the empty text, list and object. -/
def isTruthy : Json → Bool
  | .null => false
  | .bool value => value
  | .int value => value != 0
  | .float value => !value.isZero
  | .str text => text != ""
  | .arr items => !items.isEmpty
  | .obj fields => !fields.isEmpty

/-- The members of an object; `member` is what was asked of the value. -/
def fieldsFor (member : String) : Json → Except Fault (List (String × Json))
  | .obj fields => .ok fields
  | value => .error (.noMember value.kindName member)

def getD (value : Json) (key : String) (default : Json) : Except Fault Json := do
  return (Fields.get? key (← value.fieldsFor "get")).getD default

def get (value : Json) (key : String) : Except Fault Json := value.getD key .null

theorem getD_obj (members : List (String × Json)) (key : String) (default : Json) :
    (obj members).getD key default = .ok ((Fields.get? key members).getD default) := rfl

theorem get_obj (members : List (String × Json)) (key : String) :
    (obj members).get key = .ok ((Fields.get? key members).getD .null) := rfl

def member (key : String) : Json → Except Fault Json
  | .obj fields =>
    match Fields.get? key fields with
    | some value => .ok value
    | none => .error (.missingKey key)
  | .arr _ => .error (.wrongKind "list indices must be integers or slices, not str")
  | .str _ => .error (.wrongKind "string indices must be integers, not 'str'")
  | value => .error (.wrongKind ("'" ++ value.kindName ++ "' object is not subscriptable"))

def first : Json → Except Fault Json
  | .arr (item :: _) => .ok item
  | .arr [] => .error .outOfRange
  | .str text =>
    match Text.letters text with
    | letter :: _ => .ok (.str letter)
    | [] => .error .outOfRange
  | .obj _ => .error (.missingKey "0")
  | value => .error (.wrongKind ("'" ++ value.kindName ++ "' object is not subscriptable"))

def front (n : Nat) : Json → Except Fault Json
  | .arr items => .ok (.arr (items.take n))
  | .str text => .ok (.str (Text.take n text))
  | .obj _ => .error (.wrongKind "unhashable type: 'slice'")
  | value => .error (.wrongKind ("'" ++ value.kindName ++ "' object is not subscriptable"))

/-- The items of a list, the characters of a text, the keys of an object. -/
def elements : Json → Except Fault (List Json)
  | .arr items => .ok items
  | .str text => .ok ((Text.letters text).map .str)
  | .obj fields => .ok (fields.map fun (key, _) => .str key)
  | value => .error (.wrongKind ("'" ++ value.kindName ++ "' object is not iterable"))

def size : Json → Except Fault Nat
  | .arr items => .ok items.length
  | .str text => .ok (Text.size text)
  | .obj fields => .ok fields.length
  | value => .error (.wrongKind ("object of type '" ++ value.kindName ++ "' has no len()"))

/-- A text; `member` is what was asked of the value. -/
def textFor (member : String) : Json → Except Fault String
  | .str text => .ok text
  | value => .error (.noMember value.kindName member)

def parse (text : String) : Except Fault Json :=
  match read text with
  | .ok value => .ok value
  | .error .malformed => .error .malformed
  | .error .tooDeep => .error .tooDeep
  | .error (.longInteger digits) => .error (.longInteger digits)

end Sitecheck.Json
