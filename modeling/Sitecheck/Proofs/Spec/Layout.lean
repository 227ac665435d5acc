import Sitecheck.Proofs.Spec.Selector
import Sitecheck.Spec.Suite

/-!
# The layout of a compiled suite

A compiled suite is a row of pieces: the text of the templates, and between it the
values of the suite, each in a literal, a pattern, a comment or bare
(`suiteCode_eq_render`).
-/

namespace Sitecheck.Spec

/-- What the comments of a suite tell of. -/
inductive Remark where
  | step (number : Int)
  | description
  | assertion
  | skipped
  | pause

namespace Remark

def lead : Remark → String
  | .step number => "Step " ++ Json.displayInt number ++ ": "
  | .description => ""
  | .assertion => "Assert: "
  | .skipped => "SKIPPED: "
  | .pause => "Wait "

def tail : Remark → String
  | .skipped => " requires a value but none was provided"
  | .pause => "ms for dynamic content"
  | _ => ""

end Remark

inductive Piece where
  | template (text : String)
  /-- A value that stands in the code itself: what is expected, and how long a pause takes. -/
  | bare (value : String)
  /-- A value that stands in a literal as it is. -/
  | plain (value : String)
  /-- A value that stands in a literal with its quotes escaped. -/
  | quoted (value : String)
  | selector (given : String)
  | pattern (value : String)
  | comment (remark : Remark) (value : String)

def Piece.text : Piece → String
  | .template text => text
  | .bare value => value
  | .plain value => literal value
  | .quoted value => literal (escapeQuotes value)
  | .selector given => literal (Locator.normalize (escapeQuotes given))
  | .pattern value => "/" ++ escapeQuotes value ++ "/"
  | .comment remark value => "// " ++ remark.lead ++ value ++ remark.tail

def render : List Piece → String
  | [] => ""
  | piece :: pieces => piece.text ++ render pieces

@[simp] theorem render_append (front back : List Piece) :
    render (front ++ back) = render front ++ render back := by
  induction front with
  | nil => simp [render]
  | cons piece front ih => simp [render, ih, String.append_assoc]

def separated (separator : String) : List (List Piece) → List Piece
  | [] => []
  | [row] => row
  | row :: next :: rows => row ++ .template separator :: separated separator (next :: rows)

theorem render_separated (separator : String) (rows : List (List Piece)) :
    render (separated separator rows) = Text.join separator (rows.map render) := by
  fun_induction separated separator rows with
  | case1 => rfl
  | case2 => simp
  | case3 row next rows ih =>
    simp only [render_append, render, Piece.text, ih, List.map_cons, Text.join_cons_cons,
      String.append_assoc]

/-! ## Steps -/

def locatorStart : Strategy → String
  | .testId => "page.getByTestId("
  | .ariaLabel => "page.getByLabel("
  | .text => "page.getByText("
  | .css => "page.locator("
  | .xpath => "page.locator("

def locatorEnd : Strategy → String
  | .text => ").first()"
  | .css => ").first()"
  | _ => ")"

def targetLayout (step : Step) : List Piece :=
  match firstText step.selector none with
  | none => [.template "page"]
  | some selector =>
    let strategy := step.strategy.getD
      (Locator.strategyOf (Locator.normalize (escapeQuotes selector)))
    [.template (locatorStart strategy), .selector selector, .template (locatorEnd strategy)]

def expectLayout (step : Step) : List Piece :=
  let assertion := (firstText step.assertion none).getD "toBeVisible"
  let call (arguments : List Piece) : List Piece :=
    .template "    await expect(" :: targetLayout step ++
      .template ")." :: .bare assertion :: .template "(" :: arguments ++ [.template ");"]
  if Text.lower (step.selector.getD "") == "title" then
    match firstText step.value none with
    | some value =>
      [.template "    await expect(page).toHaveTitle(", .pattern value, .template ");"]
    | none => [.template (comment "SKIPPED: Title assertion requires a value")]
  else if plainAssertions.contains assertion then call []
  else
    match firstText step.value none with
    | some value => call [.quoted value]
    | none =>
      [.template "    ", .comment .skipped assertion]

def statementLayout (step : Step) : List Piece :=
  let value := step.value.getD ""
  let goto (url : String) : List Piece :=
    [.template "    await page.goto(", .plain url, .template ");"]
  let call (rest : List Piece) : List Piece :=
    .template "    await " :: targetLayout step ++ .template "." :: rest
  match step.action with
  | .navigate => goto value
  | .goto => goto ((firstText step.url step.value).getD "")
  | .click => call [.template "click();"]
  | .fill => call [.template "fill(", .plain value, .template ");"]
  | .select => call [.template "selectOption(", .plain value, .template ");"]
  | .submit => call [.template "click(); // Submit form"]
  | .hover => call [.template "hover();"]
  | .check => call [.template "check();"]
  | .uncheck => call [.template "uncheck();"]
  | .expect => expectLayout step
  | .goBack => [.template "    await page.goBack();"]
  | .reload => [.template "    await page.reload();"]
  | .wait =>
    let time := (firstText step.value none).getD "1000"
    [.template "    await page.waitForTimeout(", .bare time, .template "); ",
      .comment .pause time]

def stepLayout (step : Step) (number : Int) : List Piece :=
  let what := if step.description == "" then step.action.label else step.description
  .template "    " :: .comment (.step number) what :: .template "\n" :: statementLayout step

theorem code_ofStrategy (text : String) (strategy : Strategy) :
    (Locator.ofStrategy text strategy).code =
      locatorStart strategy ++ (literal text ++ locatorEnd strategy) := by
  rw [← String.append_assoc]
  cases strategy <;> rfl

theorem render_targetLayout (step : Step) : render (targetLayout step) = target step := by
  unfold targetLayout target
  cases firstText step.selector none with
  | none => rfl
  | some =>
    simp only [render, Piece.text, Locator.ofSelector, code_ofStrategy, String.append_empty]

theorem comment_eq (text : String) : comment text = "    " ++ ("// " ++ text) := by
  rfl

theorem render_expectLayout (step : Step) : render (expectLayout step) = expectCode step .null := by
  have htimeout : (timeoutOption .null).toList = [] := rfl
  unfold expectLayout expectCode
  split
  · unfold expectTitle
    cases firstText step.value none with
    | none => simp [render, Piece.text]
    | some => simp [render, Piece.text, String.append_assoc]
  · unfold expectTarget
    dsimp only
    split
    · simp [render, Piece.text, render_targetLayout, htimeout, String.append_assoc]
    · cases firstText step.value none with
      | none =>
        simp [render, Piece.text, Remark.lead, Remark.tail, comment_eq, String.append_assoc,
          -String.reduceAppend]
      | some =>
        simp [render, Piece.text, render_targetLayout, htimeout, String.append_assoc]

theorem render_statementLayout (step : Step) :
    render (statementLayout step) = statement step .null := by
  unfold statementLayout statement
  cases step.action with
  | expect => exact render_expectLayout step
  | wait =>
    have hpause : "); // Wait " = "); " ++ ("// " ++ "Wait ") := rfl
    simp [render, Piece.text, Remark.lead, Remark.tail, hpause, String.append_assoc,
      -String.reduceAppend]
  | _ => simp [render, Piece.text, render_targetLayout, String.append_assoc]

theorem render_stepLayout (step : Step) (number : Int) :
    render (stepLayout step number) = stepCode step number .null := by
  simp [stepLayout, stepCode, render, Piece.text, Remark.lead, Remark.tail, comment_eq,
    render_statementLayout, String.append_assoc]

/-! ## Suites -/

def stepLayouts : (number : Int) → List Step → List (List Piece)
  | _, [] => []
  | number, step :: steps => stepLayout step number :: stepLayouts (number + 1) steps

def assertionLayout : List String → List Piece
  | [] => [.template (comment "No explicit assertions")]
  | assertions =>
    separated "\n"
      (assertions.map fun assertion => [.template "    ", .comment .assertion assertion])

def caseLayout (case : TestCase) : List Piece :=
  separated "\n"
    [[.template "  test(", .plain case.name, .template ", async (\x7b page \x7d) => \x7b"],
      [.template "    ", .comment .description case.description],
      [],
      separated "\n" (stepLayouts 1 case.steps),
      [],
      assertionLayout case.assertions,
      [.template "  \x7d);"]]

def suiteLayout (suite : Suite) : List Piece :=
  separated "\n"
    [[.template "import \x7b test, expect \x7d from '@playwright/test';"],
      [],
      [.template "test.describe('Generated E2E Tests', () => \x7b"],
      [.template "  test.beforeEach(async (\x7b page \x7d) => \x7b"],
      [.template "    await page.goto(", .plain suite.baseUrl, .template ");"],
      [.template "  \x7d);"],
      [],
      separated "\n\n" (suite.cases.map caseLayout),
      [.template "\x7d);"],
      []]

theorem map_render_stepLayouts (number : Int) (steps : List Step) :
    (stepLayouts number steps).map render = stepCodes number steps := by
  induction steps generalizing number with
  | nil => rfl
  | cons step steps ih => simp [stepLayouts, stepCodes, render_stepLayout, ih]

theorem render_assertionLayout (assertions : List String) :
    render (assertionLayout assertions) = assertionLines assertions := by
  cases assertions with
  | nil => simp [assertionLayout, assertionLines, render, Piece.text]
  | cons assertion =>
    rw [assertionLayout, render_separated, List.map_map, assertionLines]
    · congr 2
      funext assertion
      simp [render, Piece.text, Remark.lead, Remark.tail, comment_eq, String.append_assoc,
        -String.reduceAppend]
    all_goals simp

theorem render_caseLayout (case : TestCase) : render (caseLayout case) = caseCode case := by
  rw [caseLayout, render_separated, caseCode]
  simp [render, render_separated, map_render_stepLayouts, render_assertionLayout, Piece.text,
    Remark.lead, Remark.tail, comment_eq, String.append_assoc]

theorem suiteCode_eq_render (suite : Suite) : suiteCode suite = render (suiteLayout suite) := by
  have hcases : render ∘ caseLayout = caseCode := funext render_caseLayout
  rw [suiteLayout, render_separated, suiteCode]
  simp [render, render_separated, hcases, Piece.text, String.append_assoc]

end Sitecheck.Spec
