import Sitecheck.Server.Endpoint.Crawl
import Sitecheck.Server.Endpoint.Settings

/-!
# Conversations

A client that wants to watch a crawl sends one message with an address and,
if it likes, settings, and is told of the progress until the end.
-/

namespace Sitecheck.Server

def send (fields : List (String × Json)) : Run Unit := Run.record (.sent (.obj fields))

def sendError (message : String) : Run Unit :=
  send [("type", .str "error"), ("message", .str message)]

def changedCrawl (crawl : Settings.LiveCrawl) (changes : Json) :
    Except Fault Settings.LiveCrawl := do
  return { maxDepth := ← changes.getD "max_depth" crawl.maxDepth
           maxPages := ← changes.getD "max_pages" crawl.maxPages
           timeout := ← changes.getD "timeout" crawl.timeout
           screenshot := ← changes.getD "screenshot" crawl.screenshot
           viewport := crawl.viewport
           pageDelay := ← changes.getD "page_delay_ms" crawl.pageDelay
           skipEmbeddings := ← changes.getD "skip_embeddings" crawl.skipEmbeddings }

/-- Puts the settings of a message in place of the server's own, if it has any. -/
def supply (changes : Json) : Run Unit := do
  if changes.isTruthy then setCrawl (← Run.lift (changedCrawl (← settings).crawl changes))

/-- The crawler of a conversation.  The settings of the message are those of the
crawler as long as nobody has changed the settings file. -/
def crawlerFor (changes : Json) : Run Crawl.Crawler := do
  let crawler ← newCrawler (some fun update => Run.record (.sent update))
  supply changes
  return { crawler with settings := ← Settings.current }

def crawlAndSend (crawler : Crawl.Crawler) (url : Json) : Run Unit := do
  let address ← Run.lift (url.textFor "rstrip")
  let (crawl, _) ← crawler.crawl address []
  let summary ← Graph.summary crawl
  send [("type", .str "crawl_complete"), ("crawl_id", crawl), ("summary", summary)]

def timeoutMessage : String :=
  "Crawl operation timed out after 5 minutes. Try with a smaller depth/max_pages."

def watch (url changes : Json) : Run Unit := do
  send [("type", .str "crawl_start"), ("url", url)]
  let crawler ← crawlerFor changes
  match ← Run.attempt (crawlAndSend crawler url) with
  | .ok _ => Run.closeStore
  | .error fault => if fault.isTimeout then sendError timeoutMessage else throw fault

abbrev Received := Except Fault Json

def converse (received : Received) : Run Unit := do
  let message ← Run.lift received
  let url ← Run.lift (message.get "url")
  let changes ← Run.lift (message.get "settings")
  if url.isTruthy then watch url changes else sendError "URL is required"

/-- Accepts a client, answers what it sends, if it sends anything, and closes. -/
def hold (received : Option Received) : Run Unit := do
  Run.record .accepted
  match received with
  | none => pure ()
  | some received => Run.orElse (converse received) fun fault => sendError fault.text
  Run.record .closed

end Sitecheck.Server
