import Sitecheck.Generate.Payload
import Sitecheck.Generate.Prompt
import Sitecheck.Generate.Summary
import Sitecheck.Settings.File
import Sitecheck.Suite.Basic

/-!
# Suites from the language model

The model is shown a summary of the site and replies with test cases.  A reply
that holds anything else counts as no test cases.
-/

namespace Sitecheck.Generate

def casesOf (document : Json) : Except Fault (List TestCase) := do
  let cases := match document with
    | .obj fields => (Fields.get? "test_cases" fields).getD document
    | other => other
  (← cases.elements).mapM (Schema.makeFrom "TestCase" TestCase.ofFields)

/-- The test cases in a reply; none when it holds no list of them. -/
def casesInReply (reply : String) : List TestCase :=
  match Json.parse (String.ofList (payload reply.toList)) >>= casesOf with
  | .ok cases => cases
  | .error _ => []

def userMessage (content : String) : Json :=
  .arr [.obj [("role", .str "user"), ("content", .str content)]]

def suiteRequest (settings : Settings.Assistant) (site : SiteMap) (summary : String) :
    List (String × Json) :=
  [("model", .str settings.model), ("max_tokens", .int settings.maxTokens),
    ("temperature", .float settings.temperature), ("system", .str systemPrompt),
    ("messages", userMessage (userPrompt site.baseUrl summary))]

def suiteFor (site : SiteMap) : Run Suite := do
  let settings := (← Settings.current).base
  let summary ← Run.lift (siteSummary site)
  let reply ← Run.ask settings.assistant.apiKey (suiteRequest settings.assistant site summary)
  let cases := (reply.map casesInReply).getD []
  let id ← Run.freshId "suite_"
  let suite : Suite := ⟨id, "Test Suite for " ++ site.baseUrl, site.baseUrl, cases⟩
  Run.saveJson ((Path.ofText settings.storage.specs).join (id ++ ".json")) suite.toJson
  return suite

end Sitecheck.Generate
