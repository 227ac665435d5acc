import Sitecheck.Execute.Tally
import Sitecheck.Generate.Suite

/-!
# Runs assessed

After a run the language model is asked for a report on it.
-/

namespace Sitecheck.Execute

def outputLimit : Nat := 1000

def assessmentPrompt (suiteId : String) (count : Nat) (tests : Json) (tally : Tally)
    (finished : Finished) : String :=
  "You are a senior QA engineer analyzing E2E test results for a production web application. Provide a comprehensive, data-driven test execution report.

**Test Suite Configuration:**
Suite ID: " ++ suiteId ++ "
Total Test Cases: " ++ toString count ++ "

**Test Specifications:**
" ++ tests.pretty ++ "

**Execution Results:**
- Total Tests Executed: " ++ toString tally.total ++ "
- Passed: " ++ toString tally.passed ++ " (" ++ tally.percentage tally.passed ++ "%)
- Failed: " ++ Json.displayInt tally.failed ++ " (" ++ tally.percentage tally.failed ++ "%)
- Exit Code: " ++ finished.code.display ++ "

**Individual Test Outcomes:**
" ++ (Json.arr tally.results).pretty ++ "

**Raw Playwright Output:**
" ++ Text.take outputLimit finished.output ++ "

**TASK: Generate a professional QA test report with the following structure:**

1. **Executive Summary** (2-3 sentences)
   - Overall test execution status
   - Key findings and critical issues
   - Recommendation (ship/hold/re-test)

2. **Functionality Coverage Analysis** (bullet points)
   - List each tested user journey/feature
   - Specify expected vs actual behavior
   - Identify any gaps in test coverage

3. **Root Cause Analysis** (if failures exist)
   - Technical reasons for each failure
   - Whether failures are due to: test logic errors, application bugs, environmental issues, or data problems
   - Impact severity (critical/high/medium/low)

4. **Actionable Recommendations** (numbered list)
   - Specific steps to fix failures
   - Suggestions for test improvement
   - Areas requiring additional test coverage

**Style Guidelines:**
- Use precise, technical language appropriate for engineers
- Avoid unnecessary pleasantries or filler text
- Focus on facts, data, and logical conclusions
- Be direct and actionable
- Maximum length: 400 words

Begin your analysis now:"

def assessmentRequest (settings : Settings.Assistant) (prompt : String) : List (String × Json) :=
  [("model", .str settings.model), ("max_tokens", .int 1500),
    ("temperature", .float (Binary64.ofRatio false 2 10)),
    ("messages", Generate.userMessage prompt)]

def plainAssessment (tally : Tally) : String :=
  "Test run completed with " ++ toString tally.passed ++ "/" ++ toString tally.total ++
    " tests passing. AI analysis unavailable."

def assessment (settings : Settings.Assistant) (suiteId : String) (document : Json) (tally : Tally)
    (finished : Finished) : Run String := do
  let asked ← Run.attempt do
    let tests ← Run.lift (document.getD "tests" (.arr []))
    let count ← Run.lift tests.size
    Run.ask settings.apiKey
      (assessmentRequest settings (assessmentPrompt suiteId count tests tally finished))
  match asked with
  | .ok (some report) => return report
  | _ => return plainAssessment tally

end Sitecheck.Execute
