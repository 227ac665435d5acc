import Sitecheck.Schema.Container
import Sitecheck.Schema.Scalar

/-!
# Load tests

A load profile says which pages are visited and how many users there are over
time; durations are in seconds.  A threshold is a condition on a metric.
-/

namespace Sitecheck.Load

structure Profile where
  pages : List String
  maxUsers : Int
  rampUp : Int
  steady : Int
  rampDown : Int
  thinkTime : Int
  thresholds : List (String × String)

/-- What was measured; response times are in milliseconds. -/
structure Measurement where
  testId : String
  takenAt : String
  requests : Int
  failures : Int
  requestsPerSecond : Binary64
  average : Binary64
  percentile95 : Binary64
  percentile99 : Binary64
  longest : Binary64
  errors : List (List (String × Json))
  passed : Bool
  seconds : Int

open Schema

namespace Profile

def defaultThresholds : List (String × String) :=
  [("http_req_duration", "p(95)<500"), ("http_req_failed", "rate<0.01")]

def ofFields (fields : List (String × Json)) : Outcome Profile :=
  Profile.mk <$> required "pages" (list text) fields
    <*> withDefault "max_users" 100 integer fields
    <*> withDefault "ramp_up_duration" 30 integer fields
    <*> withDefault "steady_duration" 60 integer fields
    <*> withDefault "ramp_down_duration" 30 integer fields
    <*> withDefault "think_time" 1 integer fields
    <*> withDefault "thresholds" defaultThresholds (table text) fields

def toJson (profile : Profile) : Json :=
  .obj [("pages", .texts profile.pages), ("max_users", .int profile.maxUsers),
    ("ramp_up_duration", .int profile.rampUp), ("steady_duration", .int profile.steady),
    ("ramp_down_duration", .int profile.rampDown), ("think_time", .int profile.thinkTime),
    ("thresholds", .obj (profile.thresholds.map fun (metric, bound) => (metric, .str bound)))]

def moderate (pages : Json) : Outcome Profile :=
  ofFields [("pages", pages), ("max_users", .int 50), ("ramp_up_duration", .int 30),
    ("steady_duration", .int 60), ("ramp_down_duration", .int 30), ("think_time", .int 1)]

end Profile

namespace Measurement

def ofFields (fields : List (String × Json)) : Outcome Measurement :=
  Measurement.mk <$> required "test_id" text fields
    <*> required "timestamp" text fields
    <*> required "total_requests" integer fields
    <*> required "failed_requests" integer fields
    <*> required "requests_per_second" number fields
    <*> required "avg_response_time_ms" number fields
    <*> required "p95_response_time_ms" number fields
    <*> required "p99_response_time_ms" number fields
    <*> required "max_response_time_ms" number fields
    <*> required "errors" (list (table anything)) fields
    <*> required "passed_thresholds" truth fields
    <*> required "duration_seconds" integer fields

def toJson (m : Measurement) : Json :=
  .obj [("test_id", .str m.testId), ("timestamp", .str m.takenAt),
    ("total_requests", .int m.requests), ("failed_requests", .int m.failures),
    ("requests_per_second", .float m.requestsPerSecond),
    ("avg_response_time_ms", .float m.average), ("p95_response_time_ms", .float m.percentile95),
    ("p99_response_time_ms", .float m.percentile99), ("max_response_time_ms", .float m.longest),
    ("errors", .arr (m.errors.map .obj)), ("passed_thresholds", .bool m.passed),
    ("duration_seconds", .int m.seconds)]

end Measurement

end Sitecheck.Load
