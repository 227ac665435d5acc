import Sitecheck.Server.Conversation
import Sitecheck.Server.Endpoint.Run
import Sitecheck.Server.Endpoint.Trial
import Sitecheck.Server.Query
import Sitecheck.Server.Route

/-!
# Sessions

A server reads its settings once and then answers one request after another.
-/

namespace Sitecheck.Server

def start : Run Unit := do
  let live ← Settings.current
  modify fun s => { s with server := some live, cache := .shared }

def withSuite (request : Request) (next : String → Run Answer) : Run Answer :=
  match Query.value? "suite_id" request.query with
  | some suite => next suite
  | none =>
    let missing : Schema.Issue := ⟨[.key "query", .key "suite_id"], .missing⟩
    return unprocessable [missing.toJson]

def onRoute (request : Request) : Route → Run Answer
  | .health => return .ofValue (.obj [("status", .str "ok"), ("service", .str "QAsmith API")])
  | .crawl => withBody CrawlRequest.ofFields request fun body => answer "Crawl failed: " (crawl body)
  | .crawls => answer "Failed to list crawls: " crawls
  | .summary id => answer "Failed to get crawl summary: " (summary id)
  | .pages id => answer "Failed to get crawl pages: " (pages id)
  | .view id => view id
  | .findPath => withBody PathRequest.ofFields request fun body =>
    answer "Failed to find path: " (findPath body)
  | .generate => withBody GenerateRequest.ofFields request fun body =>
    answer "Test generation failed: " (generate body)
  | .compile => withBody CompileRequest.ofFields request fun body =>
    answer "Compilation failed: " (compile body)
  | .run => withBody RunRequest.ofFields request fun body => answer "Test run failed: " (run body)
  | .settings => answer "Failed to get crawler config: " showSettings
  | .changeSettings => withBody CrawlChange.ofFields request fun body =>
    answer "Failed to update crawler config: " (changeSettings body)
  | .logic => withBody LogicRequest.ofFields request fun body => answer "" (logic body)
  | .load => withBody LoadRequest.ofFields request loadAnswer
  | .api => withSuite request fun suite => answer "" (compileApi suite)
  | .manual => return ⟨200, .text "", none, none⟩

def respond (request : Request) : Run Answer :=
  match Routing.ofRequest request.method request.path with
  | .found route => onRoute request route
  | .wrongMethod => return .ofRefusal ⟨405, "Method Not Allowed"⟩ none
  | .redirect =>
    return if Text.isScalar request.path then ⟨307, .text "", none, none⟩ else .ofRaised .unencodable
  | .missing => return .ofRefusal ⟨404, "Not Found"⟩ none

def listen (path : String) (message : Option Json) : Run Unit :=
  if isConversation path then hold (message.map .ok) else Run.record .closed

end Sitecheck.Server
