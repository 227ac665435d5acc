import Sitecheck.Schema.Outcome
import Sitecheck.Number.Numeral
import Sitecheck.Text.Case

/-!
# Reading scalars

Each reader is generous to the other scalar kinds: a text takes numbers and
truth values in their displayed form, an integer takes numerals and cuts
fractions off, a truth value takes the usual words.
-/

namespace Sitecheck.Schema

def text : Reader String
  | .str value => .value value
  | .bool value => .value (Json.inner (.bool value))
  | .int value => .value (Json.displayInt value)
  | .float value => .value (Json.displayNumbers.write value)
  | .null => .fail .nullValue
  | .arr _ | .obj _ => .fail .notText

def integer : Reader Int
  | .int value => .value value
  | .bool value => .value (if value then 1 else 0)
  | .float (.infinite _) => .fault .overflow
  | .float value =>
    match value.truncate? with
    | some n => .value n
    | none => .fail .notInteger
  | .str numeral =>
    match Numeral.readInt numeral with
    | .value n => .value n
    | _ => .fail .notInteger
  | .null => .fail .nullValue
  | .arr _ | .obj _ => .fail .notInteger

def number : Reader Binary64
  | .float value => .value value
  | .int value =>
    match Binary64.ofInt? value with
    | some x => .value x
    | none => .fault .overflow
  | .bool value => .value (Binary64.ofSigned (if value then 1 else 0) 1)
  | .str numeral =>
    match Numeral.readFloat? numeral with
    | some x => .value x
    | none => .fail .notNumber
  | .null => .fail .nullValue
  | .arr _ | .obj _ => .fail .notNumber

def trueWords : List String := ["1", "on", "t", "true", "y", "yes"]

def falseWords : List String := ["0", "off", "f", "false", "n", "no"]

def truth : Reader Bool
  | .bool value => .value value
  | .int value =>
    if value = 1 then .value true else if value = 0 then .value false else .fail .notTruth
  | .float value =>
    if value = Binary64.ofSigned 1 1 then .value true
    else if value.isZero then .value false
    else .fail .notTruth
  | .str word =>
    let word := Text.lower word
    if trueWords.contains word then .value true
    else if falseWords.contains word then .value false
    else .fail .notTruth
  | .null => .fail .nullValue
  | .arr _ | .obj _ => .fail .notTruth

def choice {α : Type} (members : List (String × α)) : Reader α
  | .null => .fail .nullValue
  | .str name =>
    match Fields.get? name members with
    | some member => .value member
    | none => .fail (.notMember (members.map Prod.fst))
  | _ => .fail (.notMember (members.map Prod.fst))

end Sitecheck.Schema
