import Sitecheck.Settings.File
import Sitecheck.Text.Encoding

/-!
# Requests and answers

A request is answered with a value, or refused with a reason.  A fault in
answering becomes a refusal that tells of it; a fault that nothing turns into a
refusal ends the request without an answer of its own.
-/

namespace Sitecheck.Server

structure Request where
  method : String
  path : String
  query : String
  body : String

inductive Body where
  | json (value : Json)
  | text (content : String)

/-- An answer.  `cause` is the fault that was turned into a refusal, and
`raised` a fault that was not. -/
structure Answer where
  status : Nat
  body : Body
  cause : Option Fault
  raised : Option Fault

structure Refusal where
  status : Nat
  detail : String

abbrev Endpoint := Run (Except Refusal Json)

namespace Answer

def ofRaised (fault : Fault) : Answer := ⟨500, .text "Internal Server Error", none, some fault⟩

/-! ## Values that can be sent -/

mutual

def isFinite : Json → Bool
  | .float (.nan _) | .float (.infinite _) => false
  | .arr items => allFinite items
  | .obj fields => fieldsFinite fields
  | _ => true

def allFinite : List Json → Bool
  | [] => true
  | item :: items => isFinite item && allFinite items

def fieldsFinite : List (String × Json) → Bool
  | [] => true
  | (_, value) :: fields => isFinite value && fieldsFinite fields

end

mutual

def isScalar : Json → Bool
  | .str text => Text.isScalar text
  | .arr items => allScalar items
  | .obj fields => fieldsScalar fields
  | _ => true

def allScalar : List Json → Bool
  | [] => true
  | item :: items => isScalar item && allScalar items

def fieldsScalar : List (String × Json) → Bool
  | [] => true
  | (key, value) :: fields => Text.isScalar key && isScalar value && fieldsScalar fields

end

mutual

/-- A value without the members that are internal to a data base. -/
def withoutInternal : Json → Json
  | .arr items => .arr (allWithoutInternal items)
  | .obj fields => .obj (fieldsWithoutInternal fields)
  | value => value

def allWithoutInternal : List Json → List Json
  | [] => []
  | item :: items => withoutInternal item :: allWithoutInternal items

def fieldsWithoutInternal : List (String × Json) → List (String × Json)
  | [] => []
  | (key, value) :: fields =>
    if Text.startsWith "_sa" key then fieldsWithoutInternal fields
    else (key, withoutInternal value) :: fieldsWithoutInternal fields

end

def sent (status : Nat) (value : Json) (cause : Option Fault) : Answer :=
  if isScalar value then ⟨status, .json value, cause, none⟩ else ofRaised .unencodable

def detail (status : Nat) (detail : Json) (cause : Option Fault) : Answer :=
  sent status (.obj [("detail", detail)]) cause

def ofRefusal (refusal : Refusal) (cause : Option Fault) : Answer :=
  detail refusal.status (.str refusal.detail) cause

def ofValue (value : Json) : Answer :=
  let value := withoutInternal value
  if isFinite value then sent 200 value none
  else ofRaised (.refused "Out of range float values are not JSON compliant")

end Answer

def settings : Run Settings.Live := do
  match (← get).server with
  | some live => pure live
  | none => Settings.current

/-- Answers a request; a fault is told after a label. -/
def answer (label : String) (endpoint : Endpoint) : Run Answer := do
  match ← Run.attempt endpoint with
  | .ok (.ok value) => return .ofValue value
  | .ok (.error refusal) => return .ofRefusal refusal none
  | .error fault => return .ofRefusal ⟨500, label ++ fault.text⟩ (some fault)

/-! ## Bodies -/

def unprocessable (details : List Json) : Answer := .detail 422 (.arr details) none

/-- The document in a body; an empty body has none. -/
def bodyValue (body : String) : Except Fault Json :=
  if body == "" then .ok .null
  else
    match Text.document? body with
    | some text => Json.parse text
    | none => .error .undecodable

/-- The answer to a body that holds no document; it would repeat the body. -/
def noDocument (body : String) : Answer :=
  if ((Text.document? body).map Text.isScalar).getD true then
    unprocessable [.obj [("type", .str "value_error.jsondecode")]]
  else .ofRaised .unencodable

def withBody {α : Type} (read : List (String × Json) → Schema.Outcome α) (request : Request)
    (next : α → Run Answer) : Run Answer :=
  match bodyValue request.body with
  | .error .malformed => return noDocument request.body
  | .error fault => return .ofRefusal ⟨400, "There was an error parsing the body"⟩ (some fault)
  | .ok body =>
    let read : Schema.Outcome α := match body with
      | .null => .fail .missing
      | body => Schema.record read body
    match read.under (.key "body") with
    | .value value => next value
    | .issues issues => return unprocessable (issues.map Schema.Issue.toJson)
    | .fault fault => return .ofRaised fault

end Sitecheck.Server
