import Sitecheck.Schema.Container
import Sitecheck.Schema.Scalar

/-!
# Settings

The sections of the settings document.  Every section has defaults for its
members, the password of the graph store apart.
-/

namespace Sitecheck.Settings

structure Assistant where
  provider : String
  model : String
  apiKey : String
  maxTokens : Int
  temperature : Binary64

structure Crawl where
  maxDepth : Int
  maxPages : Int
  timeout : Int
  screenshot : Bool
  viewport : List (String × Int)
  pageDelay : Int
  skipEmbeddings : Bool

structure Runner where
  browser : String
  headless : Bool
  trace : Bool
  video : Bool
  screenshot : String

structure Storage where
  artifacts : String
  siteMaps : String
  specs : String
  reports : String

structure Server where
  host : String
  port : Int
  origins : List String

structure GraphStore where
  uri : String
  user : String
  password : String

end Settings

structure Settings where
  assistant : Settings.Assistant
  crawl : Settings.Crawl
  runner : Settings.Runner
  storage : Settings.Storage
  graphStore : Settings.GraphStore
  server : Settings.Server

namespace Settings

open Schema

namespace Assistant

def ofFields (fields : List (String × Json)) : Outcome Assistant :=
  Assistant.mk <$> withDefault "provider" "anthropic" text fields
    <*> withDefault "model" "claude-3-5-sonnet-20241022" text fields
    <*> withDefault "api_key" "" text fields
    <*> withDefault "max_tokens" 4096 integer fields
    <*> withDefault "temperature" (Binary64.ofRatio false 7 10) number fields

def toJson (s : Assistant) : Json :=
  .obj [("provider", .str s.provider), ("model", .str s.model), ("api_key", .str s.apiKey),
    ("max_tokens", .int s.maxTokens), ("temperature", .float s.temperature)]

end Assistant

namespace Crawl

def ofFields (fields : List (String × Json)) : Outcome Crawl :=
  Crawl.mk <$> withDefault "max_depth" 3 integer fields
    <*> withDefault "max_pages" 50 integer fields
    <*> withDefault "timeout" 30000 integer fields
    <*> withDefault "screenshot" true truth fields
    <*> withDefault "viewport" [("width", 1280), ("height", 720)] (table integer) fields
    <*> withDefault "page_delay_ms" 300 integer fields
    <*> withDefault "skip_embeddings" true truth fields

def toJson (s : Crawl) : Json :=
  .obj [("max_depth", .int s.maxDepth), ("max_pages", .int s.maxPages), ("timeout", .int s.timeout),
    ("screenshot", .bool s.screenshot),
    ("viewport", .obj (s.viewport.map fun (name, size) => (name, .int size))),
    ("page_delay_ms", .int s.pageDelay), ("skip_embeddings", .bool s.skipEmbeddings)]

end Crawl

namespace Runner

def ofFields (fields : List (String × Json)) : Outcome Runner :=
  Runner.mk <$> withDefault "browser" "chromium" text fields
    <*> withDefault "headless" true truth fields
    <*> withDefault "trace" true truth fields
    <*> withDefault "video" true truth fields
    <*> withDefault "screenshot" "only-on-failure" text fields

def toJson (s : Runner) : Json :=
  .obj [("browser", .str s.browser), ("headless", .bool s.headless), ("trace", .bool s.trace),
    ("video", .bool s.video), ("screenshot", .str s.screenshot)]

end Runner

namespace Storage

def ofFields (fields : List (String × Json)) : Outcome Storage :=
  Storage.mk <$> withDefault "artifacts_path" "./backend/artifacts" text fields
    <*> withDefault "app_maps_path" "./backend/app_maps" text fields
    <*> withDefault "test_specs_path" "./backend/test_specs" text fields
    <*> withDefault "reports_path" "./backend/reports" text fields

def toJson (s : Storage) : Json :=
  .obj [("artifacts_path", .str s.artifacts), ("app_maps_path", .str s.siteMaps),
    ("test_specs_path", .str s.specs), ("reports_path", .str s.reports)]

def directories (s : Storage) : List String := [s.artifacts, s.siteMaps, s.specs, s.reports]

end Storage

namespace Server

def defaultOrigins : List String := ["http://localhost:3000", "http://localhost:5173"]

def ofFields (fields : List (String × Json)) : Outcome Server :=
  Server.mk <$> withDefault "host" "0.0.0.0" text fields
    <*> withDefault "port" 8000 integer fields
    <*> withDefault "cors_origins" defaultOrigins (list text) fields

def toJson (s : Server) : Json :=
  .obj [("host", .str s.host), ("port", .int s.port), ("cors_origins", .texts s.origins)]

end Server

namespace GraphStore

def ofFields (fields : List (String × Json)) : Outcome GraphStore :=
  GraphStore.mk <$> withDefault "uri" "neo4j://localhost:7687" text fields
    <*> withDefault "user" "neo4j" text fields
    <*> required "password" text fields

def toJson (s : GraphStore) : Json :=
  .obj [("uri", .str s.uri), ("user", .str s.user), ("password", .str s.password)]

end GraphStore

def sections : List String := ["llm", "crawler", "runner", "storage", "neo4j", "api"]

def onlySections (fields : List (String × Json)) : Outcome Unit :=
  let unknown := (fields.map Prod.fst).filter fun name => !sections.contains name
  if unknown.isEmpty then .value ()
  else .issues ((unknown.mergeSort Text.atOrBefore).map fun name => ⟨[.key name], .unknownField⟩)

def ofFields (fields : List (String × Json)) : Outcome Settings :=
  Settings.mk <$> required "llm" (record Assistant.ofFields) fields
    <*> required "crawler" (record Crawl.ofFields) fields
    <*> required "runner" (record Runner.ofFields) fields
    <*> required "storage" (record Storage.ofFields) fields
    <*> required "neo4j" (record GraphStore.ofFields) fields
    <*> required "api" (record Server.ofFields) fields
    <* onlySections fields

def toJson (s : Settings) : Json :=
  .obj [("llm", s.assistant.toJson), ("crawler", s.crawl.toJson), ("runner", s.runner.toJson),
    ("storage", s.storage.toJson), ("neo4j", s.graphStore.toJson), ("api", s.server.toJson)]

end Settings

end Sitecheck
