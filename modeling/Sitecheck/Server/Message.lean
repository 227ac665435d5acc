import Sitecheck.Schema.Container
import Sitecheck.Schema.Scalar

/-!
# Requests and replies

The bodies that the server reads and answers with.
-/

namespace Sitecheck.Server

open Schema

structure CrawlRequest where
  url : String

structure CrawlReply where
  crawlId : String
  baseUrl : String
  status : String
  pages : Int
  elements : Int
  links : Int

structure CrawlSummary where
  crawlId : String
  baseUrl : String
  domain : String
  status : String
  pages : Int
  elements : Int
  links : Int

structure StoredPage where
  url : String
  title : String
  depth : Int
  elements : List (List (String × Json))
  actions : List (List (String × Json))

structure PathRequest where
  startUrl : String
  endUrl : String

structure PathReply where
  found : Bool
  length : Int
  nodes : List (List (String × Json))
  relationships : List (List (String × Json))
  distance : Int

structure GenerateRequest where
  crawlId : String
  pageUrls : List String

structure GenerateReply where
  crawlId : String
  suiteId : String
  count : Int
  tests : List (List (String × Json))

structure CompileRequest where
  suiteId : String

structure CompileReply where
  suiteId : String
  specPath : String
  success : Bool

structure RunRequest where
  suiteId : String

structure RunReply where
  suiteId : String
  runId : String
  total : Int
  passed : Int
  failed : Int
  reportPath : Option String
  analysis : Option String
  results : Option (List (List (String × Json)))

structure GraphView where
  nodes : List (List (String × Json))
  edges : List (List (String × Json))

structure CrawlChange where
  maxDepth : Int
  maxPages : Int
  timeout : Int
  screenshot : Bool
  pageDelay : Int
  skipEmbeddings : Bool

structure LogicRequest where
  crawlId : String
  kinds : List String

structure LogicReply where
  suiteId : String
  forms : Int
  workflows : Int
  apis : Int
  total : Int
  success : Bool

structure LoadRequest where
  baseUrl : String
  pages : List String
  maxUsers : Int
  rampUp : Int
  steady : Int
  rampDown : Int
  thinkTime : Int

structure LoadReply where
  testId : String
  requests : Int
  failures : Int
  requestsPerSecond : Binary64
  average : Binary64
  percentile95 : Binary64
  percentile99 : Binary64
  passed : Bool
  errors : List (List (String × Json))

namespace CrawlRequest

def ofFields (fields : List (String × Json)) : Outcome CrawlRequest :=
  CrawlRequest.mk <$> required "url" text fields

def toJson (m : CrawlRequest) : Json :=
  .obj [("url", .str m.url)]

end CrawlRequest

namespace CrawlReply

def ofFields (fields : List (String × Json)) : Outcome CrawlReply :=
  CrawlReply.mk <$> required "crawl_id" text fields
    <*> required "base_url" text fields
    <*> required "status" text fields
    <*> required "total_pages" integer fields
    <*> required "total_elements" integer fields
    <*> required "total_links" integer fields

def toJson (m : CrawlReply) : Json :=
  .obj [("crawl_id", .str m.crawlId), ("base_url", .str m.baseUrl), ("status", .str m.status),
    ("total_pages", .int m.pages), ("total_elements", .int m.elements),
    ("total_links", .int m.links)]

end CrawlReply

namespace CrawlSummary

def ofFields (fields : List (String × Json)) : Outcome CrawlSummary :=
  CrawlSummary.mk <$> required "crawl_id" text fields
    <*> required "base_url" text fields
    <*> required "domain" text fields
    <*> required "status" text fields
    <*> required "page_count" integer fields
    <*> required "element_count" integer fields
    <*> required "link_count" integer fields

def toJson (m : CrawlSummary) : Json :=
  .obj [("crawl_id", .str m.crawlId), ("base_url", .str m.baseUrl), ("domain", .str m.domain),
    ("status", .str m.status), ("page_count", .int m.pages), ("element_count", .int m.elements),
    ("link_count", .int m.links)]

end CrawlSummary

namespace StoredPage

def ofFields (fields : List (String × Json)) : Outcome StoredPage :=
  StoredPage.mk <$> required "url" text fields
    <*> required "title" text fields
    <*> required "depth" integer fields
    <*> required "elements" (list (table anything)) fields
    <*> required "actions" (list (table anything)) fields

def toJson (m : StoredPage) : Json :=
  .obj [("url", .str m.url), ("title", .str m.title), ("depth", .int m.depth),
    ("elements", .arr (m.elements.map .obj)), ("actions", .arr (m.actions.map .obj))]

end StoredPage

namespace PathRequest

def ofFields (fields : List (String × Json)) : Outcome PathRequest :=
  PathRequest.mk <$> required "start_url" text fields
    <*> required "end_url" text fields

def toJson (m : PathRequest) : Json :=
  .obj [("start_url", .str m.startUrl), ("end_url", .str m.endUrl)]

end PathRequest

namespace PathReply

def ofFields (fields : List (String × Json)) : Outcome PathReply :=
  PathReply.mk <$> required "path_found" truth fields
    <*> required "path_length" integer fields
    <*> required "nodes" (list (table anything)) fields
    <*> required "relationships" (list (table anything)) fields
    <*> required "total_distance" integer fields

def toJson (m : PathReply) : Json :=
  .obj [("path_found", .bool m.found), ("path_length", .int m.length),
    ("nodes", .arr (m.nodes.map .obj)), ("relationships", .arr (m.relationships.map .obj)),
    ("total_distance", .int m.distance)]

end PathReply

namespace GenerateRequest

def ofFields (fields : List (String × Json)) : Outcome GenerateRequest :=
  GenerateRequest.mk <$> required "crawl_id" text fields
    <*> required "page_urls" (list text) fields

def toJson (m : GenerateRequest) : Json :=
  .obj [("crawl_id", .str m.crawlId), ("page_urls", .texts m.pageUrls)]

end GenerateRequest

namespace GenerateReply

def ofFields (fields : List (String × Json)) : Outcome GenerateReply :=
  GenerateReply.mk <$> required "crawl_id" text fields
    <*> required "test_suite_id" text fields
    <*> required "test_count" integer fields
    <*> required "tests" (list (table anything)) fields

def toJson (m : GenerateReply) : Json :=
  .obj [("crawl_id", .str m.crawlId), ("test_suite_id", .str m.suiteId),
    ("test_count", .int m.count), ("tests", .arr (m.tests.map .obj))]

end GenerateReply

namespace CompileRequest

def ofFields (fields : List (String × Json)) : Outcome CompileRequest :=
  CompileRequest.mk <$> required "suite_id" text fields

def toJson (m : CompileRequest) : Json :=
  .obj [("suite_id", .str m.suiteId)]

end CompileRequest

namespace CompileReply

def ofFields (fields : List (String × Json)) : Outcome CompileReply :=
  CompileReply.mk <$> required "suite_id" text fields
    <*> required "spec_file_path" text fields
    <*> required "success" truth fields

def toJson (m : CompileReply) : Json :=
  .obj [("suite_id", .str m.suiteId), ("spec_file_path", .str m.specPath),
    ("success", .bool m.success)]

end CompileReply

namespace RunRequest

def ofFields (fields : List (String × Json)) : Outcome RunRequest :=
  RunRequest.mk <$> required "suite_id" text fields

def toJson (m : RunRequest) : Json :=
  .obj [("suite_id", .str m.suiteId)]

end RunRequest

namespace RunReply

def ofFields (fields : List (String × Json)) : Outcome RunReply :=
  RunReply.mk <$> required "suite_id" text fields
    <*> required "run_id" text fields
    <*> required "total_tests" integer fields
    <*> required "passed" integer fields
    <*> required "failed" integer fields
    <*> optional "report_path" text fields
    <*> optional "ai_summary" text fields
    <*> optional "test_results" (list (table anything)) fields

def toJson (m : RunReply) : Json :=
  .obj [("suite_id", .str m.suiteId), ("run_id", .str m.runId), ("total_tests", .int m.total),
    ("passed", .int m.passed), ("failed", .int m.failed), ("report_path", .ofOption m.reportPath),
    ("ai_summary", .ofOption m.analysis),
    ("test_results", (m.results.map fun items => .arr (items.map .obj)).getD .null)]

end RunReply

namespace GraphView

def ofFields (fields : List (String × Json)) : Outcome GraphView :=
  GraphView.mk <$> required "nodes" (list (table anything)) fields
    <*> required "edges" (list (table anything)) fields

def toJson (m : GraphView) : Json :=
  .obj [("nodes", .arr (m.nodes.map .obj)), ("edges", .arr (m.edges.map .obj))]

end GraphView

namespace CrawlChange

def ofFields (fields : List (String × Json)) : Outcome CrawlChange :=
  CrawlChange.mk <$> required "max_depth" integer fields
    <*> required "max_pages" integer fields
    <*> required "timeout" integer fields
    <*> required "screenshot" truth fields
    <*> required "page_delay_ms" integer fields
    <*> required "skip_embeddings" truth fields

def toJson (m : CrawlChange) : Json :=
  .obj [("max_depth", .int m.maxDepth), ("max_pages", .int m.maxPages),
    ("timeout", .int m.timeout), ("screenshot", .bool m.screenshot),
    ("page_delay_ms", .int m.pageDelay), ("skip_embeddings", .bool m.skipEmbeddings)]

end CrawlChange

namespace LogicRequest

def ofFields (fields : List (String × Json)) : Outcome LogicRequest :=
  LogicRequest.mk <$> required "crawl_id" text fields
    <*> required "test_types" (list text) fields

def toJson (m : LogicRequest) : Json :=
  .obj [("crawl_id", .str m.crawlId), ("test_types", .texts m.kinds)]

end LogicRequest

namespace LogicReply

def ofFields (fields : List (String × Json)) : Outcome LogicReply :=
  LogicReply.mk <$> required "suite_id" text fields
    <*> required "form_tests_count" integer fields
    <*> required "workflow_tests_count" integer fields
    <*> required "api_tests_count" integer fields
    <*> required "total_tests" integer fields
    <*> required "success" truth fields

def toJson (m : LogicReply) : Json :=
  .obj [("suite_id", .str m.suiteId), ("form_tests_count", .int m.forms),
    ("workflow_tests_count", .int m.workflows), ("api_tests_count", .int m.apis),
    ("total_tests", .int m.total), ("success", .bool m.success)]

end LogicReply

namespace LoadRequest

def ofFields (fields : List (String × Json)) : Outcome LoadRequest :=
  LoadRequest.mk <$> required "base_url" text fields
    <*> required "pages" (list text) fields
    <*> withDefault "max_users" 100 integer fields
    <*> withDefault "ramp_up_duration" 30 integer fields
    <*> withDefault "steady_duration" 60 integer fields
    <*> withDefault "ramp_down_duration" 30 integer fields
    <*> withDefault "think_time" 1 integer fields

def toJson (m : LoadRequest) : Json :=
  .obj [("base_url", .str m.baseUrl), ("pages", .texts m.pages), ("max_users", .int m.maxUsers),
    ("ramp_up_duration", .int m.rampUp), ("steady_duration", .int m.steady),
    ("ramp_down_duration", .int m.rampDown), ("think_time", .int m.thinkTime)]

end LoadRequest

namespace LoadReply

def ofFields (fields : List (String × Json)) : Outcome LoadReply :=
  LoadReply.mk <$> required "test_id" text fields
    <*> required "total_requests" integer fields
    <*> required "failed_requests" integer fields
    <*> required "requests_per_second" number fields
    <*> required "avg_response_time_ms" number fields
    <*> required "p95_response_time_ms" number fields
    <*> required "p99_response_time_ms" number fields
    <*> required "passed_thresholds" truth fields
    <*> required "errors" (list (table anything)) fields

def toJson (m : LoadReply) : Json :=
  .obj [("test_id", .str m.testId), ("total_requests", .int m.requests),
    ("failed_requests", .int m.failures), ("requests_per_second", .float m.requestsPerSecond),
    ("avg_response_time_ms", .float m.average), ("p95_response_time_ms", .float m.percentile95),
    ("p99_response_time_ms", .float m.percentile99), ("passed_thresholds", .bool m.passed),
    ("errors", .arr (m.errors.map .obj))]

end LoadReply

end Sitecheck.Server
