import Sitecheck.Generate.Suite
import Sitecheck.Graph.Export
import Sitecheck.Server.Endpoint.Crawl
import Sitecheck.Spec.Suite

/-!
# Suites

Making a suite for pages of a crawl, and compiling it.  A suite is kept as a
document in the directory of specifications.
-/

namespace Sitecheck.Server

def suitePath (storage : Settings.Storage) (suite : String) : Path :=
  (Path.ofText storage.specs).join (suite ++ ".json")

/-! ## Making -/

/-- The identifier of the stored page with an address, whether it ends in a slash or not. -/
def pageId? (crawl url : String) : Run (Option Json) := do
  let bare := Text.trimEnd (· = '/') url
  let record ← Run.querySingle
    "MATCH (p:Page \x7bcrawl_id: $crawl_id\x7d)
      WHERE p.url = $url OR p.url = $url_with_slash OR p.url = $url_without_slash
      RETURN p.page_id as page_id
      LIMIT 1"
    [("crawl_id", .str crawl), ("url", .str url), ("url_with_slash", .str (bare ++ "/")),
      ("url_without_slash", .str bare)]
  if record.isTruthy then return some (← Run.lift (record.member "page_id")) else return none

def stepEntry (step : Step) : Json :=
  .obj [("action", .str step.action.name), ("selector", .ofOption step.selector),
    ("selector_strategy", .ofOption (step.strategy.map Strategy.name)),
    ("value", .ofOption step.value), ("description", .str step.description),
    ("url", .ofOption step.url), ("assertion", .ofOption step.assertion)]

def caseEntry (pageUrl : String) (case : TestCase) : List (String × Json) :=
  [("test_id", .str case.id), ("name", .str case.name), ("description", .str case.description),
    ("page_url", .str pageUrl), ("steps", .arr (case.steps.map stepEntry))]

def suiteDocument (crawl pageUrl : String) (suite : Suite) : Json :=
  .obj [("suite_id", .str suite.id), ("crawl_id", .str crawl),
    ("test_count", .ofNat suite.cases.length),
    ("tests", .arr ((suite.cases.map (caseEntry pageUrl)).map .obj))]

def keepSuite (crawl pageUrl : String) (suite : Suite) : Run GenerateReply := do
  let path := suitePath (← settings).base.storage suite.id
  Run.saveJson path (suiteDocument crawl pageUrl suite)
  Run.closeStore
  return ⟨crawl, suite.id, suite.cases.length, suite.cases.map (caseEntry pageUrl)⟩

/-- The chosen pages of a crawl as they are stored, if there are any. -/
def chosenSite? (request : GenerateRequest) : Run (Option SiteMap) := do
  openGraph
  let found ← request.pageUrls.mapM (pageId? request.crawlId)
  let ids := found.filterMap id
  if ids.isEmpty then return none
  else return some (← Graph.siteMap (.str request.crawlId) (.arr ids))

def generate (request : GenerateRequest) : Endpoint := do
  match ← chosenSite? request with
  | none => return .error ⟨404, "No pages found for selected URLs"⟩
  | some site =>
    let suite ← Generate.suiteFor site
    let reply ← keepSuite request.crawlId ((site.pages.head?.map Page.url).getD "") suite
    return .ok reply.toJson

/-! ## Compiling -/

def stepOfEntry (entry : Json) : Except Fault Step := do
  (Step.ofFields [("action", ← entry.member "action"), ("selector", ← entry.getD "selector" (.str "")),
    ("value", ← entry.get "value"), ("assertion", ← entry.get "assertion"),
    ("description", ← entry.getD "description" (.str "")),
    ("url", ← entry.get "url")]).orFault "TestStep"

def caseOfEntry (id : String) (entry : Json) : Except Fault TestCase := do
  let steps ← (← (← entry.member "steps").elements).mapM stepOfEntry
  let name ← entry.member "name"
  let description ← entry.member "description"
  (TestCase.ofFields [("test_id", .str id), ("name", name), ("description", description),
    ("steps", .arr (steps.map Step.toJson))]).orFault "TestCase"

def casesOfEntries (suite : String) : (index : Nat) → List Json → Except Fault (List TestCase)
  | _, [] => .ok []
  | index, entry :: entries => do
    let case ← caseOfEntry (suite ++ "_test_" ++ toString index) entry
    return case :: (← casesOfEntries suite (index + 1) entries)

def originOf (url : Json) : Except Fault Json := do
  let split ← Url.Split.ofText (← url.textFor "decode")
  return .str (split.scheme ++ "://" ++ split.host)

/-- The base address of a suite: its own, or that of its first test. -/
def baseUrlOf (document : Json) (tests : List Json) : Except Fault Json := do
  let given ← document.getD "base_url" (.str "")
  if given.isTruthy then return given
  match tests with
  | [] => return given
  | test :: _ =>
    let url ← test.getD "page_url" (.str "")
    if url.isTruthy then originOf url else return given

def suiteOfDocument (id : String) (document : Json) : Except Fault Suite := do
  let tests ← (← document.member "tests").elements
  let cases ← casesOfEntries id 0 tests
  let baseUrl ← baseUrlOf document tests
  (Suite.ofFields [("suite_id", .str id), ("name", .str ("Test Suite " ++ id)),
    ("base_url", if baseUrl.isTruthy then baseUrl else .str "https://example.com"),
    ("test_cases", .arr (cases.map TestCase.toJson))]).orFault "TestSuite"

/-- Goes on with a stored document, or says that it is missing. -/
def withDocument (place : Settings.Storage → Path) (missing : String)
    (next : Settings.Storage → Json → Endpoint) : Endpoint := do
  let storage := (← settings).base.storage
  match ← Run.loadJson? (place storage) with
  | none => return .error ⟨404, missing ++ " not found"⟩
  | some document => next storage document

def compile (request : CompileRequest) : Endpoint :=
  withDocument (suitePath · request.suiteId) ("Test suite " ++ request.suiteId) fun _ document => do
    let suite ← Run.lift (suiteOfDocument request.suiteId document)
    let compiled ← Spec.compile suite
    return .ok (CompileReply.mk request.suiteId compiled.text true).toJson

end Sitecheck.Server
