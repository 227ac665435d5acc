import Sitecheck.Server.Http
import Sitecheck.Server.Message

/-!
# Crawl settings

Showing and changing how sites are crawled.
-/

namespace Sitecheck.Server

def crawlSettings (crawl : Settings.LiveCrawl) : Json :=
  .obj [("max_depth", crawl.maxDepth), ("max_pages", crawl.maxPages), ("timeout", crawl.timeout),
    ("screenshot", crawl.screenshot), ("page_delay_ms", crawl.pageDelay),
    ("skip_embeddings", crawl.skipEmbeddings)]

def showSettings : Endpoint := do return .ok (crawlSettings (← settings).crawl)

def setCrawl (crawl : Settings.LiveCrawl) : Run Unit :=
  modify fun s => { s with server := s.server.map fun live => { live with crawl := crawl } }

def requestedCrawl (crawl : Settings.LiveCrawl) (request : CrawlChange) : Settings.LiveCrawl :=
  { crawl with
    maxDepth := .int request.maxDepth
    maxPages := .int request.maxPages
    timeout := .int request.timeout
    screenshot := .bool request.screenshot
    pageDelay := .int request.pageDelay
    skipEmbeddings := .bool request.skipEmbeddings }

def changeSettings (request : CrawlChange) : Endpoint := do
  setCrawl (requestedCrawl (← settings).crawl request)
  Settings.change (.obj [("crawler", request.toJson)])
  return .ok (.obj [("status", .str "success"), ("message", .str "Crawler configuration updated")])

end Sitecheck.Server
