import Sitecheck.Json.Access

/-!
# Counts from the output of a run

The output of a run is a report whose first inner suite, or else first suite,
lists the tests.  Of any other output the marks of tests are counted.
-/

namespace Sitecheck.Execute

/-- How many tests there were, and what came of each where that is known. -/
structure Tally where
  total : Nat
  passed : Nat
  failed : Int
  results : List Json

namespace Tally

def firstOf? (suites : Json) : Except Fault (Option Json) := do
  if suites.isTruthy then
    if (← suites.size) = 0 then return none
    return some (← suites.first)
  else return none

def specs (report : Json) : Except Fault Json := do
  match ← firstOf? (← report.getD "suites" (.arr [])) with
  | none => return .arr []
  | some outer =>
    match ← firstOf? (← outer.getD "suites" (.arr [])) with
    | some inner => inner.getD "specs" (.arr [])
    | none => outer.getD "specs" (.arr [])

def isOk (spec : Json) : Except Fault Bool := return (← spec.getD "ok" (.bool false)).isTruthy

def errorOf (spec : Json) : Except Fault Json := do
  let test ← (← spec.getD "tests" (.arr [.emptyObj])).first
  let result ← (← test.getD "results" (.arr [.emptyObj])).first
  (← result.getD "error" .emptyObj).get "message"

def resultOf (spec : Json) : Except Fault Json := do
  let name ← spec.getD "title" (.str "Unknown test")
  let ok ← isOk spec
  let error ← if ok then pure .null else errorOf spec
  return .obj [("name", name), ("status", .str (if ok then "passed" else "failed")), ("error", error)]

def ofReport (report : Json) : Except Fault Tally := do
  let specs ← specs report
  let total ← specs.size
  let items ← specs.elements
  let outcomes ← items.mapM isOk
  let passed := outcomes.count true
  let results ← items.mapM resultOf
  return { total := total, passed := passed, failed := total - passed, results := results }

def ofText (output : String) : Tally :=
  { total := Text.count " expected" output
    passed := Text.count " passed" output
    failed := Text.count " failed" output
    results := [] }

/-- Whether an output with this fault is read as a plain one. -/
def isPlain : Fault → Bool
  | .malformed | .missingKey _ | .outOfRange => true
  | _ => false

def ofOutput (output : String) : Except Fault Tally :=
  match Json.parse output >>= ofReport with
  | .ok tally => .ok tally
  | .error fault => if isPlain fault then .ok (ofText output) else .error fault

def percentage (count : Int) (tally : Tally) : String :=
  match Binary64.ofQuotient? count tally.total with
  | some share => fixedText 1 (share.mul (.ofSigned 100 1))
  | none => fixedText 1 (.zero false)

end Tally

end Sitecheck.Execute
