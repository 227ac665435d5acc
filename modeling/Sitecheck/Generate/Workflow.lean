import Sitecheck.Generate.Form

/-!
# Tests of workflows

The language model is asked for ways through the site.  A reply that does not
hold such ways counts as no tests.
-/

namespace Sitecheck.Generate

def pageLines (pages : List Page) : String :=
  Text.join "\n" (pages.map fun page =>
    "- " ++ page.url ++ ": " ++ page.title ++
      (if page.forms.isEmpty then "" else " (has " ++ toString page.forms.length ++ " form(s))"))

def workflowPrompt (site : SiteMap) : String :=
  "Analyze this website and generate realistic user workflow tests.

Website: " ++ site.baseUrl ++ "

Pages Available:
" ++ pageLines site.pages ++ "

Generate 3-5 realistic user workflow tests that span multiple pages. Examples:
- Signup → Login → Use feature → Logout
- Browse products → Add to cart → Checkout
- Search → Filter results → View details → Contact

For each workflow, provide:
1. Clear user journey name
2. Step-by-step actions with specific selectors
3. Validation at each step

Return ONLY valid JSON in this format:
\x7b
  \"workflows\": [
    \x7b
      \"name\": \"User Signup and Login Flow\",
      \"description\": \"Tests complete user registration and authentication\",
      \"steps\": [
        \x7b\"action\": \"goto\", \"url\": \"/signup\", \"description\": \"Navigate to signup\"\x7d,
        \x7b\"action\": \"fill\", \"selector\": \"input[name='email']\", \"value\": \"test@example.com\"\x7d,
        \x7b\"action\": \"click\", \"selector\": \"button[type='submit']\"\x7d,
        \x7b\"action\": \"expect\", \"selector\": \".success\", \"assertion\": \"toBeVisible\"\x7d
      ]
    \x7d
  ]
\x7d
"

def workflowStep (step : Json) : Except Fault Step := do
  let action ← step.member "action"
  let selector ← step.getD "selector" (.str "")
  let value ← step.get "value"
  let url ← step.get "url"
  let assertion ← step.get "assertion"
  let description ← step.getD "description" (.str "")
  (Step.ofFields [("action", action), ("selector", selector), ("value", value), ("url", url),
    ("assertion", assertion), ("description", description)]).orFault "TestStep"

def workflowTest (workflow : Json) : Run TestCase := do
  let steps ← Run.lift do (← (← workflow.member "steps").elements).mapM workflowStep
  let id ← Run.freshId "test_"
  let name ← Run.lift (workflow.member "name")
  let description ← Run.lift (workflow.member "description")
  let case ← Run.lift ((TestCase.ofFields [("test_id", .str id), ("name", name),
    ("description", description), ("steps", .arr [])]).orFault "TestCase")
  return { case with tags := ["workflow", "integration", "e2e"], steps := steps }

def workflowsInReply (reply : String) : Run (List TestCase) := do
  let document ← Run.lift (Json.parse (String.ofList (taggedPayload reply.toList)))
  let workflows ← Run.lift (document.getD "workflows" (.arr []) >>= Json.elements)
  workflows.mapM workflowTest

def workflowRequest (settings : Settings.Assistant) (site : SiteMap) : List (String × Json) :=
  [("model", .str settings.model), ("max_tokens", .int settings.maxTokens),
    ("temperature", .float (Binary64.ofRatio false 7 10)),
    ("messages", userMessage (workflowPrompt site))]

def siteWorkflowTests (site : SiteMap) : Run (List TestCase) := do
  let settings := (← Settings.current).base.assistant
  Run.orElse
    (do
      match ← Run.ask settings.apiKey (workflowRequest settings site) with
      | some reply => workflowsInReply reply
      | none => pure [])
    fun _ => pure []

end Sitecheck.Generate
