import Sitecheck.Generate.Workflow
import Sitecheck.Load.Measurement
import Sitecheck.Server.Endpoint.Suite
import Sitecheck.Spec.Api

/-!
# Tests of other kinds

Tests of forms and workflows, load tests, and tests of a programming
interface.
-/

namespace Sitecheck.Server

/-! ## Forms and workflows -/

/-- The tests of the wanted kinds: those of the forms, and those of the workflows. -/
def wantedTests (kinds : List String) (site : SiteMap) : Run (List TestCase × List TestCase) := do
  let forms ← if kinds.contains "form_validation" then Generate.siteFormTests site else pure []
  let workflows ← if kinds.contains "workflows" then Generate.siteWorkflowTests site else pure []
  return (forms, workflows)

def logicSuite (request : LogicRequest) (storage : Settings.Storage) (site : SiteMap) : Endpoint := do
  let (forms, workflows) ← wantedTests request.kinds site
  let id ← Run.freshId "logic_suite_"
  let tests := forms ++ workflows
  Run.saveJson (suitePath storage id) (.obj [("suite_id", .str id),
    ("crawl_id", .str request.crawlId), ("test_count", .ofNat tests.length),
    ("test_types", .texts request.kinds), ("tests", .arr (tests.map TestCase.toJson))])
  return .ok (LogicReply.mk id forms.length workflows.length 0 tests.length true).toJson

def siteMapPath (crawl : String) (storage : Settings.Storage) : Path :=
  (Path.ofText storage.siteMaps).join (crawl ++ ".json")

def logic (request : LogicRequest) : Endpoint :=
  withDocument (siteMapPath request.crawlId) ("Crawl " ++ request.crawlId) fun storage document => do
    let site ← Run.lift (Schema.makeFrom "AppMap" SiteMap.ofFields document)
    let _ ← Settings.current
    logicSuite request storage site

/-! ## Load -/

def load (request : LoadRequest) : Endpoint := do
  let profile : Load.Profile :=
    ⟨request.pages, request.maxUsers, request.rampUp, request.steady, request.rampDown,
      request.thinkTime, Load.Profile.defaultThresholds⟩
  let measured ← Load.test profile request.baseUrl
  let directory := Path.ofText (← settings).base.storage.reports
  Run.saveJson (directory.join (measured.testId ++ "_load_test.json")) measured.toJson
  return .ok (LoadReply.mk measured.testId measured.requests measured.failures
    measured.requestsPerSecond measured.average measured.percentile95 measured.percentile99
    measured.passed measured.errors).toJson

def loadProgramMissing : Refusal :=
  ⟨500, "K6 not installed. Install with: brew install k6 (macOS) or npm install -g k6"⟩

/-- Answers a request for a load test.  A missing file is refused only if it is the
load program. -/
def loadAnswer (request : LoadRequest) : Run Answer := do
  match ← Run.attempt (load request) with
  | .ok (.ok value) => return .ofValue value
  | .ok (.error refusal) => return .ofRefusal refusal none
  | .error fault =>
    if !fault.isFileMissing then return .ofRefusal ⟨500, fault.text⟩ (some fault)
    else if Text.contains "k6" (Text.lower fault.text) then
      return .ofRefusal loadProgramMissing (some fault)
    else return .ofRaised fault

/-! ## Programming interfaces -/

/-- Whether a text is in a value: an item of a list, a part of a text, a member of an object. -/
def isIn (text : String) : Json → Except Fault Bool
  | .arr items => .ok (items.any fun item => Json.sameKey item (.str text))
  | .str whole => .ok (Text.contains text whole)
  | .obj fields => .ok (Fields.has text fields)
  | value => .error (.wrongKind ("argument of type '" ++ value.kindName ++ "' is not iterable"))

def tagged (tag : String) : List Json → Except Fault (List Json)
  | [] => .ok []
  | test :: tests => do
    let has ← isIn tag (← test.getD "tags" (.arr []))
    let others ← tagged tag tests
    return if has then test :: others else others

def compileApi (suite : String) : Endpoint :=
  withDocument (suitePath · suite) ("Suite " ++ suite) fun _ document => do
    let tests ← Run.lift do tagged "api" (← (← document.getD "tests" (.arr [])).elements)
    if tests.isEmpty then return .error ⟨400, "No API tests found in suite"⟩
    else
      let baseUrl ← Run.lift (document.getD "base_url" (.str "http://localhost"))
      let compiled ← Spec.Api.compile tests baseUrl suite
      return .ok (.obj [("suite_id", .str suite), ("spec_file_path", .str compiled.text),
        ("api_tests_count", .ofNat tests.length), ("success", .bool true)])

end Sitecheck.Server
