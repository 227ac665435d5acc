import Sitecheck.Json.Access

/-!
# Values as tables

A table is a list of pairs with distinct keys, in the order in which the keys
came first.  An object is one, and so is whatever lists pairs: an empty text,
and a list whose items are lists, texts or objects of two.  A key can be any
scalar.
-/

namespace Sitecheck.Json

/-! ## Keys -/

def keyNumber? : Json → Option (Int × Nat)
  | .bool value => some (if value then 1 else 0, 1)
  | .int value => some (value, 1)
  | .float value => value.toRatio?
  | _ => none

/-- Whether two keys are the same key: numbers are compared by value, and what
is no number is one key. -/
def sameKey (x y : Json) : Bool :=
  match x, y with
  | .null, .null => true
  | .str a, .str b => a == b
  | .float (.infinite a), .float (.infinite b) => a == b
  | .float (.nan _), .float (.nan _) => true
  | x, y =>
    match keyNumber? x, keyNumber? y with
    | some (a, b), some (c, d) => a * d == c * b
    | _, _ => false

def isKey : Json → Bool
  | .arr _ | .obj _ => false
  | _ => true

def checkKey (key : Json) : Except Fault Unit :=
  if key.isKey then .ok () else .error (.wrongKind ("unhashable type: '" ++ key.kindName ++ "'"))

def keyName : Json → String
  | .str key => key
  | key => key.write .line

/-! ## Pairs -/

def pair? : Json → Option (Json × Json)
  | .arr [key, value] => some (key, value)
  | .obj [(key, _), (value, _)] => some (.str key, .str value)
  | .str text =>
    match Text.letters text with
    | [key, value] => some (.str key, .str value)
    | _ => none
  | _ => none

def pairAt (position : Nat) (item : Json) : Except Fault (Json × Json) :=
  match pair? item with
  | some pair => do checkKey pair.1; return pair
  | none =>
    match item.size with
    | .ok length => .error (.refused ("dictionary update sequence element #" ++ toString position ++
        " has length " ++ toString length ++ "; 2 is required"))
    | .error _ => .error (.wrongKind ("cannot convert dictionary update sequence element #" ++
        toString position ++ " to a sequence"))

def pairsFrom (position : Nat) : List Json → Except Fault (List (Json × Json))
  | [] => .ok []
  | item :: items => do
    let pair ← pairAt position item
    return pair :: (← pairsFrom (position + 1) items)

def pairs : Json → Except Fault (List (Json × Json))
  | .obj fields => .ok (fields.map fun (key, value) => (.str key, value))
  | value => do pairsFrom 0 (← value.elements)

def putPair (key value : Json) : List (Json × Json) → List (Json × Json)
  | [] => [(key, value)]
  | (name, old) :: rest =>
    if sameKey name key then (name, value) :: rest else (name, old) :: putPair key value rest

def putPairs (changes table : List (Json × Json)) : List (Json × Json) :=
  changes.foldl (fun table (key, value) => putPair key value table) table

def table (value : Json) : Except Fault (List (Json × Json)) :=
  match value with
  | .obj fields => .ok (fields.map fun (key, value) => (.str key, value))
  | value => do return putPairs (← value.pairs) []

/-- A table as an object; keys that are no texts are written. -/
def ofTable (table : List (Json × Json)) : Json :=
  .obj (table.map fun (key, value) => (keyName key, value))

end Sitecheck.Json
