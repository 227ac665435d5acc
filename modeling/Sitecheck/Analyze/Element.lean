import Sitecheck.Service.Browser
import Sitecheck.Site.Basic

/-!
# Elements from nodes

A node of a page becomes an element with the best selector that can be had: a
test identifier, a label, its text, or else a style selector.
-/

namespace Sitecheck.Analyze

/-! ## Attributes -/

def plainAttributes : List String :=
  ["id", "name", "class", "type", "placeholder", "value", "href", "title", "alt", "rel", "target",
    "tabindex", "role", "aria-label", "aria-describedby", "aria-required", "aria-hidden",
    "aria-expanded", "aria-controls", "aria-checked"]

def handlerAttributes : List String :=
  ["onclick", "onsubmit", "onchange", "onmousedown", "onmouseup", "ondblclick"]

def handlerLimit : Nat := 200

def attribute? (node : Node) (name : String) : Option String :=
  match node.getAttribute name with
  | .ok (some value) => if value == "" then none else some value
  | _ => none

def handlers? (node : Node) : Option String :=
  let found := handlerAttributes.filterMap fun name =>
    (attribute? node name).map fun value => (name, Json.str (Text.take handlerLimit value))
  if found.isEmpty then none else some (Json.obj found).display

def dataAttributes? (node : Node) : Option String :=
  match node.dataAttributes with
  | .ok data => if data.isTruthy then some data.display else none
  | .error _ => none

/-- What is known of a node.  What cannot be found out is left out. -/
def attributes (node : Node) : List (String × String) :=
  plainAttributes.filterMap (fun name => (attribute? node name).map (Prod.mk name))
    ++ ((handlers? node).map (Prod.mk "js_events")).toList
    ++ ((dataAttributes? node).map (Prod.mk "data_attributes")).toList
    ++ (match node.isDisabled with
      | .ok true => [("disabled", "true")]
      | _ => [])
    ++ (match node.isVisible with
      | .ok visible => [("visible", if visible then "True" else "False")]
      | .error _ => [])

/-! ## Selectors -/

def filled (value : Option String) : Option String := value.filter (· != "")

/-- A style selector: by identifier, first class or name, or else by kind. -/
def styleSelector (node : Node) (kind : String) : Except Fault String := do
  match filled (← node.getAttribute "id") with
  | some id => return "#" ++ id
  | none =>
    match filled (← node.getAttribute "class") with
    | some classes =>
      match Text.words classes with
      | first :: _ => return "." ++ first
      | [] => throw .outOfRange
    | none =>
      match filled (← node.getAttribute "name") with
      | some name => return "[name='" ++ name ++ "']"
      | none => return kind

def selector (node : Node) (kind : String) : Except Fault (String × Strategy × Option String) := do
  match filled (← node.getAttribute "data-testid") with
  | some id => return ("[data-testid='" ++ id ++ "']", .testId, ← node.textContent)
  | none =>
    match filled (← node.getAttribute "aria-label") with
    | some label => return (label, .ariaLabel, ← node.textContent)
    | none =>
      let content ← node.textContent
      match filled (content.map Text.strip) with
      | some text => return (text, .text, some text)
      | none => return (← styleSelector node kind, .css, content)

def element? (node : Node) (kind : String) : Option Element :=
  match selector node kind with
  | .ok (selector, strategy, text) =>
    some { selector := selector, strategy := strategy, kind := kind, text := text,
           attributes := (attributes node).map fun (name, value) => (name, .str value) }
  | .error _ => none

end Sitecheck.Analyze
