import Sitecheck.Crawl.Site
import Sitecheck.Server.Http
import Sitecheck.Server.Message

/-!
# Crawls

Crawling a site and asking the graph about crawls.  The graph is opened for
each request, and closed when the request got what it wanted from it.
-/

namespace Sitecheck.Server

/-! ## Crawling -/

def openGraph : Run Unit := do Graph.connect (← settings).base.graphStore

def generator? : Run (Option Embedding.Generator) := do
  match ← Run.attempt Embedding.Generator.default with
  | .ok generator => return some generator
  | .error _ => return none

def newCrawler (notify : Option (Json → Run Unit)) : Run Crawl.Crawler := do
  openGraph
  let generator ← generator?
  return ⟨← Settings.current, generator, notify⟩

def crawl (request : CrawlRequest) : Endpoint := do
  let crawler ← newCrawler none
  let (crawl, _) ← crawler.crawl request.url []
  let summary ← Graph.summary crawl
  Run.closeStore
  let reply ← Run.lift do
    (CrawlReply.ofFields [("crawl_id", crawl), ("base_url", .str request.url),
      ("status", .str "completed"), ("total_pages", ← summary.getD "page_count" (.int 0)),
      ("total_elements", ← summary.getD "element_count" (.int 0)),
      ("total_links", ← summary.getD "link_count" (.int 0))]).orFault "CrawlResponse"
  return .ok reply.toJson

/-! ## Stored crawls -/

def inquire {α : Type} (question : Run α) : Run α := do
  openGraph
  let answer ← question
  Run.closeStore
  return answer

def crawls : Endpoint := do return .ok (.arr (← inquire Graph.crawls))

/-- The figures of a crawl, where the graph has none with defaults in their place. -/
def summaryOf (crawl : String) (figures : Json) : Except Fault CrawlSummary := do
  (CrawlSummary.ofFields [("crawl_id", .str crawl),
    ("base_url", ← figures.getD "base_url" (.str "")),
    ("domain", ← figures.getD "domain" (.str "")),
    ("status", ← figures.getD "status" (.str "unknown")),
    ("page_count", ← figures.getD "page_count" (.int 0)),
    ("element_count", ← figures.getD "element_count" (.int 0)),
    ("link_count", ← figures.getD "link_count" (.int 0))]).orFault "CrawlSummaryResponse"

def summary (crawl : String) : Endpoint := do
  let figures ← inquire (Graph.summary (.str crawl))
  if figures.isTruthy then return .ok (← Run.lift (summaryOf crawl figures)).toJson
  else return .error ⟨404, "Crawl " ++ crawl ++ " not found"⟩

def pages (crawl : String) : Endpoint := do return .ok (.arr (← inquire (Graph.pages (.str crawl))))

/-! ## Graphs -/

/-- The nodes and edges of a crawl.  What the graph gave is checked only after
the request was served, so what is wrong with it is no refusal. -/
def view (crawl : String) : Run Answer := do
  match ← Run.attempt (inquire (Graph.drawing (.str crawl))) with
  | .error fault => return .ofRefusal ⟨500, "Failed to export graph: " ++ fault.text⟩ (some fault)
  | .ok (nodes, edges) =>
    let view := GraphView.ofFields [("nodes", nodes), ("edges", .arr edges)]
    match (view.under (.key "response")).orFault "GraphVisualizationResponse" with
    | .ok view => return .ofValue view.toJson
    | .error fault => return .ofRaised fault

/-- A way between two pages can only be found within a crawl, and the request
names none. -/
def findPath (_request : PathRequest) : Endpoint := do
  openGraph
  throw (.wrongKind "no crawl to find a way in")

end Sitecheck.Server
