import Sitecheck.Analyze.Element
import Sitecheck.Text.Optional

/-!
# What a page offers

The elements, interactions and forms of a page, and the text that describes it.
-/

namespace Sitecheck.Analyze

/-! ## Elements -/

def elementSelectors : List (String × String) :=
  [("button, input[type='button'], input[type='submit']", "button"),
    ("a[href]", "link"),
    ("input:not([type='button']):not([type='submit'])", "input"),
    ("textarea", "textarea"),
    ("select", "select")]

def elements (page : WebPage) : Except Fault (List Element) := do
  let found ← elementSelectors.mapM fun (selector, kind) => do
    return (← page.queryAll selector).filterMap (element? · kind)
  return found.flatten

/-! ## Interactions -/

def clickable : String := "button, a[href], input[type='button'], input[type='submit']"

def fillable : String := "input:not([type='button']):not([type='submit']), textarea"

def attributeText (element : Element) (name : String) : Option String :=
  match Fields.get? name element.attributes with
  | some (.str value) => some value
  | _ => none

def clickOn (element : Element) : Interaction :=
  let label := firstText element.text (attributeText element "value")
  { kind := .click, element := element, value := none,
    description := "Click " ++ label.getD element.selector }

def fillIn (element : Element) : Interaction :=
  let label := firstText (attributeText element "name") (attributeText element "placeholder")
  { kind := .fill, element := element, value := none,
    description := "Fill " ++ label.getD element.selector }

def interactions (page : WebPage) : Except Fault (List Interaction) := do
  let clicks := (← page.queryAll clickable).filterMap fun node =>
    (element? node "clickable").map clickOn
  let fills := (← page.queryAll fillable).filterMap fun node => (element? node "input").map fillIn
  return clicks ++ fills

/-! ## Forms -/

structure FormField where
  name : String
  kind : String
  required : Bool

structure Form where
  action : Option String
  method : String
  fields : List FormField

def FormField.toJson (field : FormField) : Json :=
  .obj [("name", .str field.name), ("type", .str field.kind), ("required", .bool field.required)]

def Form.toJson (form : Form) : Json :=
  .obj [("action", .ofOption form.action), ("method", .str form.method),
    ("fields", .arr (form.fields.map FormField.toJson))]

def formField? (node : Node) : Except Fault (Option FormField) := do
  let kind := (filled (← node.getAttribute "type")).getD "text"
  match filled (← node.getAttribute "name") with
  | some name =>
    let required := (← node.getAttribute "required").isSome
    return some { name := name, kind := kind, required := required }
  | none => return none

def formOf (node : Node) : Except Fault Form := do
  let action ← node.getAttribute "action"
  let method := (filled (← node.getAttribute "method")).getD "GET"
  let fields ← (← node.queryAll "input, textarea, select").mapM formField?
  return { action := action, method := method, fields := fields.filterMap id }

/-- The forms that have a field and answer every question. -/
def forms (page : WebPage) : Except Fault (List Form) := do
  return (← page.queryAll "form").filterMap fun node =>
    match formOf node with
    | .ok form => if form.fields.isEmpty then none else some form
    | .error _ => none

/-! ## Content -/

/-- What is read off a page.  `summary` is the text that stands for it. -/
structure Content where
  title : Json
  description : Json
  headings : Json
  text : Json
  length : Nat
  summary : String

namespace Content

def summaryLimit : Nat := 2000

def partText (part : Json) : Except Fault String :=
  match part with
  | .str text => .ok text
  | other => .error (.wrongKind ("sequence item: expected str instance, " ++ other.kindName ++ " found"))

def ofJson (value : Json) : Except Fault Content := do
  let title ← value.getD "title" (.str "")
  let description ← value.getD "meta_description" (.str "")
  let headings ← value.getD "h1_tags" (.arr [])
  let text ← value.getD "content_snippet" (.str "")
  let length ← text.size
  let parts := [title, description] ++ (← headings.elements) ++ [text]
  let texts ← (parts.filter Json.isTruthy).mapM partText
  return { title := title, description := description, headings := .obj [("h1", headings)],
           text := text, length := length,
           summary := Text.take summaryLimit (Text.collapse (Text.join " " texts)) }

def none : Content :=
  { title := .str "", description := .str "", headings := .emptyObj, text := .str "", length := 0,
    summary := "" }

def toJson (content : Content) : Json :=
  .obj [("title", content.title), ("meta_description", content.description),
    ("headers", content.headings), ("content_text", content.text),
    ("content_length", .ofNat content.length), ("embedding_text", .str content.summary)]

end Content

def content (page : WebPage) : Content :=
  match page.getContent >>= Content.ofJson with
  | .ok content => content
  | .error _ => .none

end Sitecheck.Analyze
