import Sitecheck.Schema.Container
import Sitecheck.Schema.Scalar

/-!
# Results of a test run
-/

namespace Sitecheck

inductive Status where
  | pending
  | running
  | passed
  | failed
  | skipped
  deriving DecidableEq, Repr

namespace Status

def members : List (String × Status) :=
  [("pending", pending), ("running", running), ("passed", passed), ("failed", failed),
    ("skipped", skipped)]

def name : Status → String
  | pending => "pending"
  | running => "running"
  | passed => "passed"
  | failed => "failed"
  | skipped => "skipped"

end Status

structure TestResult where
  testId : String
  status : Status
  duration : Int
  error : Option String
  screenshot : Option String
  trace : Option String
  video : Option String

structure TestRun where
  id : String
  suiteId : String
  finishedAt : String
  total : Int
  passed : Int
  failed : Int
  skipped : Int
  duration : Int
  results : List TestResult
  junitPath : Option String
  htmlPath : Option String

open Schema

namespace TestResult

def ofFields (fields : List (String × Json)) : Outcome TestResult :=
  TestResult.mk <$> required "test_id" text fields
    <*> required "status" (choice Status.members) fields
    <*> required "duration_ms" integer fields
    <*> optional "error_message" text fields
    <*> optional "screenshot_path" text fields
    <*> optional "trace_path" text fields
    <*> optional "video_path" text fields

def toJson (result : TestResult) : Json :=
  .obj [("test_id", .str result.testId), ("status", .str result.status.name),
    ("duration_ms", .int result.duration), ("error_message", .ofOption result.error),
    ("screenshot_path", .ofOption result.screenshot), ("trace_path", .ofOption result.trace),
    ("video_path", .ofOption result.video)]

end TestResult

namespace TestRun

def ofFields (fields : List (String × Json)) : Outcome TestRun :=
  TestRun.mk <$> required "run_id" text fields
    <*> required "suite_id" text fields
    <*> required "timestamp" text fields
    <*> required "total" integer fields
    <*> required "passed" integer fields
    <*> required "failed" integer fields
    <*> required "skipped" integer fields
    <*> required "duration_ms" integer fields
    <*> required "results" (list (record TestResult.ofFields)) fields
    <*> optional "junit_xml_path" text fields
    <*> optional "html_report_path" text fields

def toJson (run : TestRun) : Json :=
  .obj [("run_id", .str run.id), ("suite_id", .str run.suiteId), ("timestamp", .str run.finishedAt),
    ("total", .int run.total), ("passed", .int run.passed), ("failed", .int run.failed),
    ("skipped", .int run.skipped), ("duration_ms", .int run.duration),
    ("results", .arr (run.results.map TestResult.toJson)),
    ("junit_xml_path", .ofOption run.junitPath), ("html_report_path", .ofOption run.htmlPath)]

end TestRun

end Sitecheck
