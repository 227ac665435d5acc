import Sitecheck.Generate.Suite
import Sitecheck.Report.Html

/-!
# Failures explained

The language model is asked about every failed test that has a message.
-/

namespace Sitecheck.Report

def analysisPrompt (result : TestResult) (error : String) : String :=
  "Analyze this test failure and provide a concise summary of:
1. What went wrong
2. Possible root cause
3. Suggested fix

Test ID: " ++ result.testId ++ "
Error: " ++ error ++ "

Provide a brief, actionable summary (2-3 sentences)."

def analysisRequest (settings : Settings.Assistant) (result : TestResult) (error : String) :
    List (String × Json) :=
  [("model", .str settings.model), ("max_tokens", .int 500),
    ("temperature", .float (Binary64.ofRatio false 3 10)),
    ("messages", Generate.userMessage (analysisPrompt result error))]

def analyse (settings : Settings.Assistant) (result : TestResult) (error : String) : Run Json :=
  Run.orElse
    (do return .ofOption (← Run.ask settings.apiKey (analysisRequest settings result error)))
    fun _ => pure (.str "Failed to generate summary")

/-- The failed results that have a message, with it. -/
def explicable (results : List TestResult) : List (TestResult × String) :=
  results.filterMap fun result =>
    if result.status == .failed then (firstText result.error none).map (Prod.mk result) else none

/-- What the model makes of the failures, by test; a later one of the same test
replaces an earlier one. -/
def analyses (results : List TestResult) : Run (List (String × Json)) := do
  let settings := (← Settings.current).base.assistant
  let found ← (explicable results).mapM fun (result, error) => do
    return (result.testId, ← analyse settings result error)
  return Fields.update found []

def filePage (storage : Settings.Storage) (run : TestRun) (text : String) : Run Path := do
  let directory := (Path.ofText storage.reports).join run.id
  Run.makeDirectory directory
  let path := directory.join "report.html"
  Run.writeFile path text
  return path

def write (run : TestRun) : Run Path := do
  let storage := (← Settings.current).base.storage
  let found ← analyses run.results
  filePage storage run (← Run.lift (html run found))

end Sitecheck.Report
