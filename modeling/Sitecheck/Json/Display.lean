import Sitecheck.Text.Quoted

/-!
# Displayed values

The form in which a value is put into running text: a text as it is, anything
else with its parts quoted, `None` for an absent value and capital truth
values.
-/

namespace Sitecheck.Json

/-- Full precision; an exponent from `10 ^ 16` on and below `10 ^ -4`. -/
def displayNumbers : NumberFormat :=
  { largePoint := 17, smallPoint := -4, infinity := "inf", notANumber := "nan" }

def displayInt (value : Int) : String := String.ofList (intText value)

mutual

def inner : Json → String
  | .null => "None"
  | .bool true => "True"
  | .bool false => "False"
  | .int value => displayInt value
  | .float value => displayNumbers.write value
  | .str text => Text.quoted text
  | .arr [] => "[]"
  | .arr (item :: items) => "[" ++ inner item ++ innerItems items ++ "]"
  | .obj [] => "\x7b\x7d"
  | .obj (field :: fields) => "\x7b" ++ innerField field ++ innerFields fields ++ "\x7d"

def innerItems : List Json → String
  | [] => ""
  | item :: items => ", " ++ inner item ++ innerItems items

def innerField : String × Json → String
  | (key, value) => Text.quoted key ++ ": " ++ inner value

def innerFields : List (String × Json) → String
  | [] => ""
  | field :: fields => ", " ++ innerField field ++ innerFields fields

end

def display : Json → String
  | .str text => text
  | value => inner value

end Sitecheck.Json
