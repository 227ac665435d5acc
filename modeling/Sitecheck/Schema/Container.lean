import Sitecheck.Json.Table
import Sitecheck.Schema.Outcome

/-!
# Reading containers

A list is read from a list only.  A table is read from an object, and from
everything that lists pairs.  A record is read from a table whose keys are
texts.
-/

namespace Sitecheck.Schema

variable {α : Type}

def nullable (read : Reader α) : Reader (Option α)
  | .null => .value none
  | value => (read value).map some

def anything : Reader Json := .value

/-! ## Lists -/

def itemsFrom (read : Reader α) : (position : Nat) → List Json → Outcome (List α)
  | _, [] => .value []
  | position, item :: items =>
    (((read item).under (.index position)).map List.cons).seq (itemsFrom read (position + 1) items)

def list (read : Reader α) : Reader (List α)
  | .arr items => itemsFrom read 0 items
  | .null => .fail .nullValue
  | _ => .fail .notList

/-! ## Tables -/

def pairs? (value : Json) : Option (List (Json × Json)) := value.table.toOption

/-- A key as text: numbers and truth values in their displayed form. -/
def keyText : Json → Outcome String
  | .null => .fail .nullValue
  | key => .value key.display

def entries (read : Reader α) : List (Json × Json) → Outcome (List (String × α))
  | [] => .value []
  | (key, value) :: rest =>
    let entry : Outcome (String × α) :=
      match keyText key with
      | .value name => ((read value).under (.key name)).map (Prod.mk name)
      | other => (other.under (.key "__key__")).andThen fun _ => .issues []
    (entry.map List.cons).seq (entries read rest)

def table (read : Reader α) : Reader (List (String × α))
  | .null => .fail .nullValue
  | value =>
    match pairs? value with
    | some pairs => (entries read pairs).map fun entries => Fields.update entries []
    | none => .fail .notTable

/-! ## Records -/

def named? : List (Json × Json) → Option (List (String × Json))
  | [] => some []
  | (.str key, value) :: rest => (named? rest).map ((key, value) :: ·)
  | _ => none

/-- The name that no member of a record can have. -/
def reservedName : String := "__pydantic_self__"

def record (read : List (String × Json) → Outcome α) : Reader α
  | .null => .fail .nullValue
  | value =>
    match pairs? value with
    | none => .fail .notTable
    | some pairs =>
      match named? pairs with
      | none => .fail .notNamed
      | some fields => if Fields.has reservedName fields then .fail .reserved else read fields

def make (name : String) (read : List (String × Json) → Outcome α) (fields : List (String × Json)) :
    Except Fault α :=
  if Fields.has reservedName fields then .error (.wrongKind Cause.reserved.message)
  else (read fields).orFault name

def makeFrom (name : String) (read : List (String × Json) → Outcome α) : Json → Except Fault α
  | .obj fields => make name read fields
  | _ => .error (.wrongKind "argument after ** must be a mapping")

def required (name : String) (read : Reader α) (fields : List (String × Json)) : Outcome α :=
  match Fields.get? name fields with
  | some value => (read value).under (.key name)
  | none => (Outcome.fail .missing).under (.key name)

def withDefault (name : String) (default : α) (read : Reader α) (fields : List (String × Json)) :
    Outcome α :=
  match Fields.get? name fields with
  | some value => (read value).under (.key name)
  | none => .value default

def optional (name : String) (read : Reader α) (fields : List (String × Json)) :
    Outcome (Option α) :=
  withDefault name none (nullable read) fields

end Sitecheck.Schema
