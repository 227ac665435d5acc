import Sitecheck.Execute.Assessment
import Sitecheck.Server.Endpoint.Suite

/-!
# Runs

Running a compiled suite, with a report that is kept and a reply that tells
the figures.
-/

namespace Sitecheck.Server

structure Prepared where
  document : Json
  spec : Path

def notCompiled : Refusal :=
  ⟨404, "Compiled spec not found. Please compile tests first using /compile-tests"⟩

def specPath (storage : Settings.Storage) (suite : String) : Path :=
  (Spec.compiledDirectory storage).join (suite ++ ".spec.ts")

def prepareIn (storage : Settings.Storage) (suite : String) : Run (Except Refusal Prepared) := do
  match ← Run.loadJson? (suitePath storage suite) with
  | none => return .error ⟨404, "Test suite " ++ suite ++ " not found"⟩
  | some document =>
    if ← Run.fileExists (specPath storage suite) then
      return .ok ⟨document, specPath storage suite⟩
    else return .error notCompiled

def prepare (suite : String) : Run (Except Refusal Prepared) := do
  prepareIn (← settings).base.storage suite

def runIdLength : Nat := 8

def reportDirectory : Path := .ofText "backend/test_run_output/reports"

def runReport (suite runId timestamp : String) (tests : Json) (tally : Execute.Tally)
    (finished : Finished) (analysis : String) : Json :=
  .obj [("run_id", .str runId), ("suite_id", .str suite), ("timestamp", .str timestamp),
    ("execution_summary", .obj [("total_tests", .ofNat tally.total), ("passed", .ofNat tally.passed),
      ("failed", .int tally.failed), ("pass_rate", .str (tally.percentage tally.passed ++ "%")),
      ("exit_code", finished.code)]),
    ("test_specifications", tests), ("individual_results", .arr tally.results),
    ("ai_analysis", .str analysis),
    ("playwright_output", .obj [("stdout", .str finished.output), ("stderr", .str finished.errors),
      ("raw_json", if Text.contains "\x7b" finished.output then .str finished.output else .null)])]

def runPrepared (suite : String) (prepared : Prepared) : Endpoint := do
  let id := Text.take runIdLength (← Run.uuid)
  let runId := "run_" ++ suite ++ "_" ++ id
  let finished ← Run.runProgram
    ["npx", "playwright", "test", prepared.spec.text, "--headed", "--reporter=json"]
    (some (← get).tools) none
  let tally ← Run.lift (Execute.Tally.ofOutput finished.output)
  let analysis ←
    Execute.assessment (← settings).base.assistant suite prepared.document tally finished
  Run.makeDirectory reportDirectory
  let now ← Run.timestamp
  let tests ← Run.lift (prepared.document.getD "tests" (.arr []))
  let path := reportDirectory.join (runId ++ "_report.json")
  Run.writeFile path (runReport suite runId now tests tally finished analysis).pretty
  let reply ← Run.lift ((RunReply.ofFields [("suite_id", .str suite), ("run_id", .str runId),
    ("total_tests", .ofNat tally.total), ("passed", .ofNat tally.passed),
    ("failed", .int tally.failed), ("report_path", .str path.text), ("ai_summary", .str analysis),
    ("test_results", if tally.results.isEmpty then .null else .arr tally.results)]).orFault
    "RunTestsResponse")
  return .ok reply.toJson

def run (request : RunRequest) : Endpoint := do
  match ← prepare request.suiteId with
  | .ok prepared => runPrepared request.suiteId prepared
  | .error refusal => return .error refusal

end Sitecheck.Server
