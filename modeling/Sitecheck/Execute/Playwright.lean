import Sitecheck.Json.Arithmetic
import Sitecheck.Report.Basic
import Sitecheck.Settings.File

/-!
# Running compiled tests

A run has a directory of its own, with the configuration of the test program
and what that program leaves behind.  A results file that cannot be made sense
of counts as no results.
-/

namespace Sitecheck.Execute

def onOff (value : Bool) : String := if value then "on" else "off"

def configuration (settings : Settings.Runner) (directory : Path) : String :=
  Text.join "\n"
    ["",
      "import \x7b defineConfig, devices \x7d from '@playwright/test';",
      "",
      "export default defineConfig(\x7b",
      "  testDir: '.',",
      "  fullyParallel: false,",
      "  forbidOnly: !!process.env.CI,",
      "  retries: 0,",
      "  workers: 1,",
      "  timeout: " ++ "60000" ++ ",",
      "  reporter: [",
      "    ['html', \x7b outputFolder: '" ++ directory.text ++ "/html-report' \x7d],",
      "    ['junit', \x7b outputFile: '" ++ directory.text ++ "/results.xml' \x7d],",
      "    ['json', \x7b outputFile: '" ++ directory.text ++ "/results.json' \x7d],",
      "  ],",
      "  use: \x7b",
      "    baseURL: 'http://localhost:3000',",
      "    trace: '" ++ onOff settings.trace ++ "',",
      "    video: '" ++ onOff settings.video ++ "',",
      "    screenshot: '" ++ settings.screenshot ++ "',",
      "    actionTimeout: " ++ "30000" ++ ",",
      "    navigationTimeout: " ++ "30000" ++ ",",
      "  \x7d,",
      "  projects: [",
      "    \x7b",
      "      name: '" ++ settings.browser ++ "',",
      "      use: \x7b ...devices['Desktop Chrome'] \x7d,",
      "    \x7d,",
      "  ],",
      "\x7d);",
      ""]

def arguments (settings : Settings.Runner) (spec config : Path) : List String :=
  ["npx", "playwright", "test", spec.text, "--config", config.text] ++
    (if settings.headless then ["--headed=false"] else [])

/-! ## Results -/

/-- A test that neither passed nor was skipped has failed. -/
def statusOf : Json → Except Fault Status
  | .str "passed" => .ok .passed
  | .str "skipped" => .ok .skipped
  | .arr _ | .obj _ => .error (.wrongKind "unhashable type")
  | _ => .ok .failed

def resultOf (test : Json) : Except Fault TestResult := do
  let result ← (← test.getD "results" (.arr [.emptyObj])).first
  let testId ← test.getD "testId" (.str "unknown")
  let status ← statusOf (← result.get "status")
  let duration ← result.getD "duration" (.int 0)
  let message ← (← result.getD "error" .emptyObj).get "message"
  (TestResult.ofFields [("test_id", testId), ("status", .str status.name), ("duration_ms", duration),
    ("error_message", message)]).orFault "TestResult"

/-- The items of a list under a key; nothing under it counts as no items. -/
def itemsUnder (key : String) (value : Json) : Except Fault (List Json) := do
  (← value.getD key (.arr [])).elements

def resultsIn (report : Json) : Except Fault (List TestResult) := do
  let suites ← itemsUnder "suites" report
  let perSuite ← suites.mapM fun suite => do
    let specs ← itemsUnder "specs" suite
    let perSpec ← specs.mapM fun spec => do (← itemsUnder "tests" spec).mapM resultOf
    return perSpec.flatten
  return perSuite.flatten

def resultsOfText (text : String) : List TestResult :=
  match Json.parse text >>= resultsIn with
  | .ok results => results
  | .error _ => []

def resultsFrom (directory : Path) : Run (List TestResult) := do
  let path := directory.join "results.json"
  if ← Run.fileExists path then
    match ← Run.attempt (Run.readFile path) with
    | .ok text => return resultsOfText text
    | .error _ => return []
  else return []

/-! ## Runs -/

def countOf (status : Status) (results : List TestResult) : Int :=
  (results.filter fun result => result.status == status).length

def milliseconds (seconds : Binary64) : Except Fault Int :=
  Json.truncateFloat (seconds.mul (Binary64.ofSigned 1000 1))

def runDirectory (storage : Settings.Storage) (id : String) : Path :=
  (Path.ofText storage.artifacts).join id

def configPath (storage : Settings.Storage) (id : String) : Path :=
  (runDirectory storage id).join "playwright.config.ts"

def prepare : Run (Settings.Live × String) := do
  let live ← Settings.current
  let id ← Run.freshId "run_"
  Run.makeDirectory (runDirectory live.base.storage id)
  Run.writeFile (configPath live.base.storage id)
    (configuration live.base.runner (runDirectory live.base.storage id))
  return (live, id)

def launch (spec : Path) (settings : Settings) (id : String) : Run Finished :=
  Run.runProgram (arguments settings.runner spec (configPath settings.storage id))
    (some (runDirectory settings.storage id).parent.text) none

/-- The test program is run, and the time it takes is measured. -/
def carryOut (spec : Path) : Run (Settings.Live × String × Binary64) := do
  let made ← prepare
  let start ← Run.loopTime
  let _ ← launch spec made.1.base made.2
  let finish ← Run.loopTime
  return (made.1, made.2, finish.sub start)

def runOf (suiteId id : String) (directory : Path) (duration : Int) (results : List TestResult)
    (now : String) : TestRun :=
  { id := id
    suiteId := suiteId
    finishedAt := now
    total := results.length
    passed := countOf .passed results
    failed := countOf .failed results
    skipped := countOf .skipped results
    duration := duration
    results := results
    junitPath := some (directory.join "results.xml").text
    htmlPath := some ((directory.join "html-report").join "index.html").text }

def runSpec (spec : Path) (suiteId : String) : Run TestRun := do
  let (live, id, elapsed) ← carryOut spec
  let directory := runDirectory live.base.storage id
  let duration ← Run.lift (milliseconds elapsed)
  let results ← resultsFrom directory
  let run := runOf suiteId id directory duration results (← Run.timestamp)
  Run.saveJson (directory.join "test_run.json") run.toJson
  return run

end Sitecheck.Execute
