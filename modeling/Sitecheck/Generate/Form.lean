import Sitecheck.Generate.Suite

/-!
# Tests of forms

For every form: one test that submits it empty, one test for each e-mail
field that fills in something else, and one test that fills in every field
and submits.
-/

namespace Sitecheck.Generate

/-! ## Plausible values -/

/-- A value that a field of a type and name takes.  The type may be any value;
only the names of types count. -/
def validValue (type : Json) (name : String) : String :=
  let name := Text.lower name
  let isType (word : String) : Bool := match type with
    | .str text => text == word
    | _ => false
  let has (word : String) : Bool := Text.contains word name
  if isType "email" || has "email" then "test.user@example.com"
  else if isType "password" || has "password" then "SecurePass123!"
  else if isType "tel" || has "phone" then "+1-555-123-4567"
  else if isType "url" || has "website" then "https://example.com"
  else if isType "number" || has "age" then "25"
  else if has "name" then
    if has "first" then "John" else if has "last" then "Doe" else "John Doe"
  else if has "address" then "123 Main Street"
  else if has "city" then "New York"
  else if has "zip" || has "postal" then "10001"
  else "Valid Test Input"

/-! ## Steps -/

def plainStep (action : ActionKind) (description : String) : Step :=
  { action := action, selector := some "", strategy := none, value := none,
    description := description, expected := none, url := none, assertion := none }

def gotoStep (url : String) : Step :=
  { plainStep .goto ("Navigate to " ++ url) with url := some url }

def clickStep (selector description : String) : Step :=
  { plainStep .click description with selector := some selector }

def fillStep (selector value description : String) : Step :=
  { plainStep .fill description with selector := some selector, value := some value }

def expectVisible (selector description : String) : Step :=
  { plainStep .expect description with selector := some selector, assertion := some "toBeVisible" }

def submitButton : String := "button[type='submit']"

def inputNamed (name : String) : String := "input[name='" ++ name ++ "']"

/-! ## Tests -/

def newCase (name description : String) (tags : List String) (steps : List Step)
    (assertions : List String) : Run TestCase := do
  let id ← Run.freshId "test_"
  return ⟨id, name, description, tags, [], steps, assertions⟩

def emptyTest (url name : String) (hasId : Bool) : Run TestCase :=
  newCase (name ++ " - Empty Form Validation")
    ("Validates that " ++ name ++ " shows errors when submitted empty")
    ["logic", "validation", "negative"]
    [gotoStep url,
      clickStep (if hasId then "form#" ++ name ++ " " ++ submitButton else submitButton)
        "Submit empty form",
      expectVisible ".error, .validation-error, [role='alert']" "Verify validation error appears"]
    ["Form validation errors are displayed"]

def invalidTest (url name field : String) : Run TestCase :=
  newCase (name ++ " - Invalid Email Validation")
    ("Validates email field in " ++ name ++ " rejects invalid format")
    ["logic", "validation", "email"]
    [gotoStep url,
      fillStep (inputNamed field) "invalid-email-format" ("Enter invalid email in " ++ field),
      clickStep submitButton "Submit form",
      expectVisible (".error, [data-field='" ++ field ++ "'] .error")
        "Verify email validation error"]
    ["Invalid email error is displayed"]

def invalidTests (url name : String) : List Json → Run (List TestCase)
  | [] => pure []
  | field :: fields => do
    match ← Run.lift (field.get "type") with
    | .str "email" =>
      let fieldName ← Run.lift (field.member "name")
      let test ← invalidTest url name fieldName.display
      return test :: (← invalidTests url name fields)
    | _ => invalidTests url name fields

def validStep (field : Json) : Except Fault Step := do
  let type ← field.getD "type" (.str "text")
  let name ← (← field.getD "name" (.str "")).textFor "lower"
  let value := validValue type name
  let shown := (← field.member "name").display
  return fillStep (inputNamed shown) value ("Enter valid " ++ type.display ++ " in " ++ shown)

def validTest (url name : String) (fields : List Json) : Run TestCase := do
  let fills ← Run.lift (fields.mapM validStep)
  newCase (name ++ " - Valid Submission")
    ("Validates " ++ name ++ " accepts valid input and submits successfully")
    ["logic", "validation", "positive"]
    (gotoStep url :: (fills ++ [clickStep submitButton "Submit form with valid data",
        expectVisible ".success, .confirmation, [role='status']"
          "Verify success message or redirect"]))
    ["Form submits successfully", "Success feedback is displayed"]

/-- The tests of one form; `index` counts the forms of its page from zero. -/
def formTests (url : String) (form : Json) (index : Int) : Run (List TestCase) := do
  let name := (← Run.lift (form.getD "id" (.str ("form_" ++ Json.displayInt index)))).display
  let hasId := (← Run.lift (form.get "id")).isTruthy
  let first ← emptyTest url name hasId
  let fields ← Run.lift (form.getD "fields" (.arr []) >>= Json.elements)
  let invalid ← invalidTests url name fields
  let last ← validTest url name fields
  return first :: (invalid ++ [last])

def pageFormTests (url : String) : (index : Int) → List Json → Run (List TestCase)
  | _, [] => pure []
  | index, form :: forms => do
    return (← formTests url form index) ++ (← pageFormTests url (index + 1) forms)

def siteFormTests (site : SiteMap) : Run (List TestCase) := do
  return (← site.pages.mapM fun page => pageFormTests page.url 0 (page.forms.map .obj)).flatten

end Sitecheck.Generate
