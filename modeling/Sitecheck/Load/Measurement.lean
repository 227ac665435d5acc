import Sitecheck.Json.Arithmetic
import Sitecheck.Load.Script
import Sitecheck.Settings.File

/-!
# Measuring under load

A load test runs its script with the load program and reads the summary that
the program leaves.  Without a summary nothing was measured.
-/

namespace Sitecheck.Load

/-! ## Summaries -/

def metricValues (metrics : Json) (name : String) : Except Fault Json := do
  (← metrics.getD name .emptyObj).getD "values" .emptyObj

/-- Whether the thresholds under some names hold, up to the first that does not. -/
def holdAll (thresholds : Json) : List Json → Except Fault Bool
  | [] => .ok true
  | name :: names => do
    let threshold ← thresholds.getD name.display .emptyObj
    let verdict ← threshold.getD "ok" (.bool true)
    if verdict.isTruthy then holdAll thresholds names else return false

def thresholdsHold : List (String × Json) → Except Fault Bool
  | [] => .ok true
  | (_, metric) :: metrics => do
    let thresholds ← metric.getD "thresholds" .emptyObj
    if ← holdAll thresholds (← thresholds.elements) then thresholdsHold metrics else return false

def rate (requests : Int) (seconds : Binary64) : Except Fault Binary64 :=
  if seconds.compare? (.zero false) == some .gt then do
    return ((← Json.floatOfInt requests).div? seconds).getD (.zero false)
  else .ok (.zero false)

def failureEntries (failures : Int) (share : Json) : Except Fault (List Json) :=
  if 0 < failures then do
    let percent ← (← Json.times 100 share).fixed 2
    return [.obj [("type", .str "http_failures"), ("count", .int failures),
      ("rate", .str (percent ++ "%"))]]
  else .ok []

def summaryFields (summary : Json) : Except Fault (List (String × Json) × Binary64) := do
  let metrics ← summary.getD "metrics" .emptyObj
  let requests ← metricValues metrics "http_reqs"
  let durations ← metricValues metrics "http_req_duration"
  let failed ← metricValues metrics "http_req_failed"
  let total ← (← requests.getD "count" (.int 0)).truncated
  let share ← failed.getD "rate" (.int 0)
  let failures ← Json.truncatedTimes total share
  let average ← durations.getD "avg" (.int 0)
  let percentile95 ← durations.getD "p(95)" (.int 0)
  let percentile99 ← durations.getD "p(99)" (.int 0)
  let longest ← durations.getD "max" (.int 0)
  let state ← summary.getD "state" .emptyObj
  let seconds ← (← state.getD "testRunDurationMs" (.int 1000)).dividedBy 1000
  let perSecond ← rate total seconds
  let passed ← thresholdsHold (← metrics.fieldsFor "values")
  let errors ← failureEntries failures share
  return ([("total_requests", .int total), ("failed_requests", .int failures),
    ("requests_per_second", .float perSecond), ("avg_response_time_ms", average),
    ("p95_response_time_ms", percentile95), ("p99_response_time_ms", percentile99),
    ("max_response_time_ms", longest), ("errors", .arr errors), ("passed_thresholds", .bool passed)],
    seconds)

def measured (summary : Json) (testId : String) : Run Measurement := do
  let (fields, seconds) ← Run.lift (summaryFields summary)
  let now ← Run.timestamp
  let whole ← Run.lift (Json.truncateFloat seconds)
  Run.lift ((Measurement.ofFields (fields ++ [("test_id", .str testId), ("timestamp", .str now),
    ("duration_seconds", .int whole)])).orFault "LoadTestResult")

def unmeasured (testId : String) : Run Measurement := do
  let now ← Run.timestamp
  let zero : Binary64 := .zero false
  return ⟨testId, now, 0, 0, zero, zero, zero, zero, zero, [], false, 0⟩

def readSummary (path : Path) (testId : String) : Run Measurement := do
  match ← Run.loadJson? path with
  | some document => measured document testId
  | none => unmeasured testId

/-! ## Tests -/

def maxSeconds : Nat := 600

def test (profile : Profile) (baseUrl : String) : Run Measurement := do
  let settings := (← Settings.current).base
  let testId ← Run.freshId "load_"
  let directory := (Path.ofText settings.storage.specs).join "load_tests"
  let path := directory.join (testId ++ ".js")
  Run.makeDirectory path.parent
  Run.writeFile path (script profile baseUrl)
  let results := path.parent.join (testId ++ "_results.json")
  let summary := results.parent.text ++ "/" ++ results.stem ++ "_summary.json"
  let _ ← Run.runProgram
    ["k6", "run", "--out", "json=" ++ results.text, "--summary-export", summary, path.text]
    none (some maxSeconds)
  readSummary (results.parent.join (results.stem ++ "_summary.json")) testId

end Sitecheck.Load
