import Sitecheck.Spec.Locator
import Sitecheck.Suite.Basic
import Sitecheck.Text.Optional

/-!
# Code of a step

Each step becomes a comment with its number and one statement.  An
expectation is checked on the page or on the located element; one that needs a
value and has none is left out.
-/

namespace Sitecheck.Spec

def escapeQuotes (text : String) : String := Text.replace "'" "\\'" text

def comment (text : String) : String := "    // " ++ text

/-- The locator of a selector, or the page when there is none. -/
def target (step : Step) : String :=
  match firstText step.selector none with
  | some selector => (Locator.ofSelector (escapeQuotes selector) step.strategy).code
  | none => "page"

def plainAssertions : List String :=
  ["toBeVisible", "toBeHidden", "toBeEnabled", "toBeDisabled", "toBeChecked", "toBeEditable",
    "toBeEmpty", "toBeFocused", "toBeAttached", "toBeInViewport"]

def timeoutOption (timeout : Json) : Option String :=
  if timeout.isTruthy then some ("\x7b timeout: " ++ timeout.display ++ " \x7d") else none

def expectTitle (value : Option String) : String :=
  match firstText value none with
  | some value => "    await expect(page).toHaveTitle(" ++ ("/" ++ escapeQuotes value ++ "/") ++ ");"
  | none => comment "SKIPPED: Title assertion requires a value"

def expectTarget (step : Step) (timeout : Json) : String :=
  let assertion := (firstText step.assertion none).getD "toBeVisible"
  let call (arguments : List String) : String :=
    "    await expect(" ++ target step ++ ")." ++ assertion ++ "(" ++
      Text.join ", " (arguments ++ (timeoutOption timeout).toList) ++ ");"
  if plainAssertions.contains assertion then call []
  else
    match firstText step.value none with
    | some value => call [literal (escapeQuotes value)]
    | none => comment ("SKIPPED: " ++ assertion ++ " requires a value but none was provided")

def expectCode (step : Step) (timeout : Json) : String :=
  if Text.lower (step.selector.getD "") == "title" then expectTitle step.value
  else expectTarget step timeout

def statement (step : Step) (timeout : Json) : String :=
  let value := step.value.getD ""
  let goto (url : String) : String := "    await page.goto(" ++ literal url ++ ");"
  let call (method : String) : String := "    await " ++ target step ++ "." ++ method
  match step.action with
  | .navigate => goto value
  | .goto => goto ((firstText step.url step.value).getD "")
  | .click => call "click();"
  | .fill => call ("fill(" ++ literal value ++ ");")
  | .select => call ("selectOption(" ++ literal value ++ ");")
  | .submit => call "click(); // Submit form"
  | .hover => call "hover();"
  | .check => call "check();"
  | .uncheck => call "uncheck();"
  | .expect => expectCode step timeout
  | .goBack => "    await page.goBack();"
  | .reload => "    await page.reload();"
  | .wait =>
    let time := (firstText step.value none).getD "1000"
    "    await page.waitForTimeout(" ++ time ++ "); // Wait " ++ time ++ "ms for dynamic content"

/-- The code of a step; `timeout` is how long an expectation may wait, null for
the usual time. -/
def stepCode (step : Step) (number : Int) (timeout : Json) : String :=
  let what := if step.description == "" then step.action.label else step.description
  comment ("Step " ++ Json.displayInt number ++ ": " ++ what) ++ "\n" ++ statement step timeout

end Sitecheck.Spec
