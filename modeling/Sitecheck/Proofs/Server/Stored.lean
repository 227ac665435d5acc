import Sitecheck.Proofs.Json.RoundTrip
import Sitecheck.Proofs.Schema
import Sitecheck.Server.Endpoint.Suite

/-!
# Suites in their documents

The document of a suite reads back as a suite of its own
(`suiteOfDocument_reread`): the steps keep what their code is made of, except
the strategy of a selector, and the tests lose their assertions.
-/

namespace Sitecheck

open Schema

/-- A step as the document of its suite gives it back. -/
def Step.stored (step : Step) : Step where
  action := step.action
  selector := step.selector.map Text.reread
  strategy := none
  value := step.value.map Text.reread
  description := Text.reread step.description
  expected := none
  url := step.url.map Text.reread
  assertion := step.assertion.map Text.reread

/-- A test as the document of its suite gives it back. -/
def TestCase.stored (id : String) (case : TestCase) : TestCase where
  id := id
  name := Text.reread case.name
  description := Text.reread case.description
  tags := []
  preconditions := []
  steps := case.steps.map Step.stored
  assertions := []

namespace Server

variable {suite : Suite} {crawl pageUrl : String}

/-- The tests of a suite as its document gives them back, numbered from `index`. -/
def storedCases (suite : String) : (index : Nat) → List TestCase → List TestCase
  | _, [] => []
  | index, case :: cases =>
    case.stored (suite ++ "_test_" ++ toString index) :: storedCases suite (index + 1) cases

def storedBase (pageUrl : String) : List TestCase → Except Fault Json
  | [] => .ok (.str "https://example.com")
  | _ :: _ =>
    if Text.reread pageUrl = "" then .ok (.str "https://example.com")
    else originOf (.str (Text.reread pageUrl))

/-- A suite of tests that a document gave back; there is none if its base address is no
address. -/
def storedSuite (pageUrl id : String) (kept : List TestCase) : Except Fault Suite := do
  let base ← storedBase pageUrl kept
  (((webAddress base).under (.key "base_url")).map fun address =>
    ⟨id, "Test Suite " ++ id, address, kept⟩).orFault "TestSuite"

/-! ## Steps and tests -/

theorem reread_ofOption (value : Option String) :
    (Json.ofOption value).reread = .ofOption (value.map Text.reread) := by
  cases value <;> rfl

theorem reread_actionName (kind : ActionKind) : Text.reread kind.name = kind.name := by
  cases kind <;> exact Text.reread_of_not_mem (by decide)

theorem stepOfEntry_reread (step : Step) : stepOfEntry (stepEntry step).reread = .ok step.stored := by
  have hentry : (stepEntry step).reread = .obj [("action", .str step.action.name),
      ("selector", .ofOption step.stored.selector),
      ("selector_strategy", .ofOption ((step.strategy.map Strategy.name).map Text.reread)),
      ("value", .ofOption step.stored.value), ("description", .str step.stored.description),
      ("url", .ofOption step.stored.url), ("assertion", .ofOption step.stored.assertion)] := by
    simp (disch := decide) only [stepEntry, Json.reread, Json.rereadFields, reread_ofOption,
      reread_actionName, Text.reread_of_not_mem, Step.stored]
  rw [hentry]
  simp [stepOfEntry, Json.member, Json.getD, Json.get, Json.fieldsFor, Fields.get?, List.lookup_cons,
    Step.ofFields, required, withDefault, Schema.optional, choice_action, nullable_text,
    Outcome.under, Outcome.map, Schema.text, Outcome.orFault, bind, Except.bind, pure, Except.pure]
  rfl

theorem mapM_stepOfEntry (steps : List Step) :
    ((steps.map stepEntry).map Json.reread).mapM stepOfEntry = .ok (steps.map Step.stored) := by
  induction steps with
  | nil => rfl
  | cons step steps ih =>
    simp only [List.map_cons, List.mapM_cons, stepOfEntry_reread, ih]
    rfl

theorem caseOfEntry_reread (id pageUrl : String) (case : TestCase) :
    caseOfEntry id (Json.obj (caseEntry pageUrl case)).reread = .ok (case.stored id) := by
  have hentry : (Json.obj (caseEntry pageUrl case)).reread =
      .obj [("test_id", .str (Text.reread case.id)), ("name", .str (Text.reread case.name)),
        ("description", .str (Text.reread case.description)),
        ("page_url", .str (Text.reread pageUrl)),
        ("steps", .arr ((case.steps.map stepEntry).map Json.reread))] := by
    simp (disch := decide) only [caseEntry, Json.reread, Json.rereadFields, Json.rereadItems_eq_map,
      Text.reread_of_not_mem]
  have hsteps := mapM_stepOfEntry case.steps
  rw [hentry]
  simp only [caseOfEntry, Json.member, Fields.get?, List.lookup_cons, Json.elements, bind, Except.bind,
    String.reduceBEq, hsteps, TestCase.ofFields_bare, Outcome.orFault]
  rfl

theorem casesOfEntries_reread (suite pageUrl : String) (index : Nat) (cases : List TestCase) :
    casesOfEntries suite index (((cases.map (caseEntry pageUrl)).map Json.obj).map Json.reread) =
      .ok (storedCases suite index cases) := by
  induction cases generalizing index with
  | nil => rfl
  | cons case cases ih =>
    simp only [List.map_cons, casesOfEntries, caseOfEntry_reread, ih]
    rfl

/-! ## Suites -/

theorem reread_suiteDocument (crawl pageUrl : String) (suite : Suite) :
    (suiteDocument crawl pageUrl suite).reread =
      .obj [("suite_id", .str (Text.reread suite.id)), ("crawl_id", .str (Text.reread crawl)),
        ("test_count", .ofNat suite.cases.length),
        ("tests", .arr (((suite.cases.map (caseEntry pageUrl)).map Json.obj).map Json.reread))] := by
  simp (disch := decide) only [suiteDocument, Json.reread, Json.rereadFields,
    Json.rereadItems_eq_map, Text.reread_of_not_mem, Json.ofNat]

def baseOrExample (base : Json) : Json := if base.isTruthy then base else .str "https://example.com"

theorem map_baseOrExample_originOf (url : Json) : (originOf url).map baseOrExample = originOf url := by
  unfold originOf
  cases url.textFor "decode" with
  | error => rfl
  | ok address =>
    simp only [bind, Except.bind]
    cases Url.Split.ofText address with
    | error => rfl
    | ok split =>
      have htruthy : (Json.str (split.scheme ++ "://" ++ split.host)).isTruthy = true := by
        simp [Json.isTruthy]
      simp [Except.map, pure, Except.pure, baseOrExample, htruthy]

theorem baseUrlOf_reread (crawl pageUrl : String) (suite : Suite) :
    (baseUrlOf (suiteDocument crawl pageUrl suite).reread
      (((suite.cases.map (caseEntry pageUrl)).map Json.obj).map Json.reread)).map baseOrExample =
      storedBase pageUrl (storedCases suite.id 0 suite.cases) := by
  have hgiven : (suiteDocument crawl pageUrl suite).reread.getD "base_url" (.str "") =
      .ok (.str "") := by
    rw [reread_suiteDocument]
    simp [Json.getD, Json.fieldsFor, Fields.get?, List.lookup_cons, bind, Except.bind, pure, Except.pure]
  unfold baseUrlOf
  rw [hgiven]
  cases suite.cases with
  | nil => rfl
  | cons case =>
    have hpage : (Json.obj (caseEntry pageUrl case)).reread.getD "page_url" (.str "") =
        .ok (.str (Text.reread pageUrl)) := by
      simp (disch := decide) only [caseEntry, Json.reread, Json.rereadFields,
        Text.reread_of_not_mem]
      simp [Json.getD, Json.fieldsFor, Fields.get?, List.lookup_cons, bind, Except.bind, pure,
        Except.pure]
    simp only [List.map_cons, bind, Except.bind, hpage, storedCases, storedBase]
    by_cases hempty : Text.reread pageUrl = ""
    · simp [hempty, Json.isTruthy]
      rfl
    · have htruthy : (Json.str (Text.reread pageUrl)).isTruthy = true := by
        simp [Json.isTruthy, hempty]
      rw [if_neg hempty, htruthy]
      exact map_baseOrExample_originOf (.str (Text.reread pageUrl))

theorem suiteOfDocument_reread (crawl pageUrl : String) (suite : Suite) :
    suiteOfDocument suite.id (suiteDocument crawl pageUrl suite).reread =
      storedSuite pageUrl suite.id (storedCases suite.id 0 suite.cases) := by
  have hbase := baseUrlOf_reread crawl pageUrl suite
  have htests : ((suiteDocument crawl pageUrl suite).reread.member "tests") =
      .ok (.arr (((suite.cases.map (caseEntry pageUrl)).map Json.obj).map Json.reread)) := by
    rw [reread_suiteDocument]
    simp [Json.member, Fields.get?, List.lookup_cons]
  have hcases := casesOfEntries_reread suite.id pageUrl 0 suite.cases
  unfold suiteOfDocument storedSuite
  rw [htests, ← hbase]
  generalize ((suite.cases.map (caseEntry pageUrl)).map Json.obj).map Json.reread = tests at hcases
  simp only [Json.elements, bind, Except.bind, hcases]
  cases baseUrlOf (suiteDocument crawl pageUrl suite).reread tests with
  | error => rfl
  | ok base =>
    exact congrArg (Outcome.orFault "TestSuite")
      (Suite.ofFields_cases suite.id ("Test Suite " ++ suite.id) (baseOrExample base) _)

/-! ## What can be stored -/

theorem storable_ofOption (levels : Nat) (value : Option String) :
    Json.Storable levels (.ofOption value) := by
  cases value with
  | none => exact .null
  | some text => exact .str text

theorem storable_stepEntry (levels : Nat) (step : Step) :
    Json.Storable (levels + 1) (stepEntry step) := by
  refine .obj ?_ ?_
  · simp [storable_ofOption, Json.Storable.str]
  · simp (disch := decide) only [Json.rereadFields, Text.reread_of_not_mem, List.map_cons,
      List.map_nil]
    decide

theorem storable_caseEntry (levels : Nat) (pageUrl : String) (case : TestCase) :
    Json.Storable (levels + 3) (.obj (caseEntry pageUrl case)) := by
  have hsteps : Json.Storable (levels + 2) (.arr (case.steps.map stepEntry)) :=
    .map (storable_stepEntry levels) case.steps
  refine .obj ?_ ?_
  · simp [caseEntry, hsteps, Json.Storable.str]
  · simp (disch := decide) only [caseEntry, Json.rereadFields, Text.reread_of_not_mem,
      List.map_cons, List.map_nil]
    decide

theorem storable_suiteDocument (hcount : Json.isUnwritable suite.cases.length = false)
    (crawl pageUrl : String) (levels : Nat) :
    Json.Storable (levels + 5) (suiteDocument crawl pageUrl suite) := by
  have htests : Json.Storable (levels + 4)
      (.arr ((suite.cases.map (caseEntry pageUrl)).map Json.obj)) := by
    rw [List.map_map]
    exact .map (storable_caseEntry levels pageUrl) suite.cases
  have hnumber : Json.Storable (levels + 4) (.ofNat suite.cases.length) := .int hcount
  refine .obj ?_ ?_
  · intro field hfield
    simp only [List.mem_cons, List.not_mem_nil, or_false] at hfield
    rcases hfield with rfl | rfl | rfl | rfl
    · exact .str _
    · exact .str _
    · exact hnumber
    · exact htests
  · simp (disch := decide) only [Json.rereadFields, Text.reread_of_not_mem, List.map_cons,
      List.map_nil]
    decide

theorem storable_texts (levels : Nat) (texts : List String) :
    Json.Storable (levels + 1) (.texts texts) :=
  .map Json.Storable.str texts

theorem storable_step (levels : Nat) (step : Step) : Json.Storable (levels + 1) step.toJson := by
  refine .obj ?_ ?_
  · simp [storable_ofOption, Json.Storable.str]
  · simp (disch := decide) only [Json.rereadFields, Text.reread_of_not_mem, List.map_cons,
      List.map_nil]
    decide

theorem storable_case (levels : Nat) (case : TestCase) : Json.Storable (levels + 3) case.toJson := by
  have hsteps : Json.Storable (levels + 2) (.arr (case.steps.map Step.toJson)) :=
    .map (storable_step levels) case.steps
  refine .obj ?_ ?_
  · simp [hsteps, storable_texts, Json.Storable.str]
  · simp (disch := decide) only [Json.rereadFields, Text.reread_of_not_mem, List.map_cons,
      List.map_nil]
    decide

theorem storable_suite (levels : Nat) (suite : Suite) : Json.Storable (levels + 5) suite.toJson := by
  have hcases : Json.Storable (levels + 4) (.arr (suite.cases.map TestCase.toJson)) :=
    .map (storable_case levels) suite.cases
  refine .obj ?_ ?_
  · simp [hcases, Json.Storable.str]
  · simp (disch := decide) only [Json.rereadFields, Text.reread_of_not_mem, List.map_cons,
      List.map_nil]
    decide

theorem count_of_draft (h : (suiteDocument crawl pageUrl suite).draft = none) :
    Json.isUnwritable suite.cases.length = false := by
  by_contra hcount
  rw [Bool.not_eq_false] at hcount
  simp [Json.draft, suiteDocument, Json.draftValue, Json.draftFields, Json.ofNat, hcount] at h

theorem parse_suiteDocument (h : (suiteDocument crawl pageUrl suite).draft = none) :
    Json.parse (suiteDocument crawl pageUrl suite).pretty =
      .ok (suiteDocument crawl pageUrl suite).reread :=
  Json.parse_pretty (storable_suiteDocument (count_of_draft h) crawl pageUrl 980)

end Server

end Sitecheck
