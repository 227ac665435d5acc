import Sitecheck.Embedding.Vector
import Sitecheck.Settings.File
import Sitecheck.Text.Optional

/-!
# Embedding generators

Vectors for the texts of pages come from a remote model if its package and its
key are there, and from digests otherwise.
-/

namespace Sitecheck.Embedding

inductive Generator where
  | digest (apiKey : String)
  | remote (apiKey : String)

def remoteKeyVariable : String := "OPENAI_API_KEY"

def remoteModel : String := "text-embedding-3-small"

namespace Generator

def apiKey : Generator → String
  | digest apiKey => apiKey
  | remote apiKey => apiKey

def keyFrom (given : Option String) (name : String) : Run (Option String) :=
  return (firstText given (← Run.environmentValue name)).filter (· != "")

def openDigest (given : Option String) : Run Generator := do
  match ← keyFrom given Settings.keyVariable with
  | some key => pure (.digest key)
  | none => throw (.refused ("Anthropic API key is required. Set " ++ Settings.keyVariable ++
      " environment variable."))

def openRemote (given : Option String) : Run Generator := do
  unless (← get).embeddingPackage do
    throw (.packageMissing "OpenAI package not installed. Run: pip install openai")
  match ← keyFrom given remoteKeyVariable with
  | some key => pure (.remote key)
  | none => throw (.refused ("OpenAI API key required. Set " ++ remoteKeyVariable ++
      " environment variable."))

def default : Run Generator := do
  let fallback : Run Generator := do
    match ← keyFrom none Settings.keyVariable with
    | some _ => openDigest none
    | none => throw (.refused ("No embedding API key found. Set " ++ remoteKeyVariable ++ " or " ++
        Settings.keyVariable ++ " environment variable."))
  match ← keyFrom none remoteKeyVariable with
  | some _ => Run.orElse (openRemote none) fun _ => fallback
  | none => fallback

/-- The vector of a text; empty where none can be had. -/
def vector (generator : Generator) (text : String) : Run Json :=
  match generator with
  | .digest _ => pure (.arr ((hashed text).map .float))
  | .remote _ =>
    let text := Text.strip text
    if text == "" then pure (.arr [])
    else Run.orElse
      (do
        let values ← Run.embed remoteModel (Text.take textLimit text)
        let _ ← Run.lift values.size
        pure values)
      fun _ => pure (.arr [])

/-! ## Summaries -/

def summaryLimit : Nat := 10000

def excerptLimit : Nat := 500

def summaryRequest (words : Json) (text : String) : List (String × Json) :=
  [("model", .str "claude-3-haiku-20240307"), ("max_tokens", .int 200),
    ("messages", .arr [.obj [("role", .str "user"),
      ("content", .str ("Summarize this web page content in " ++ words.display ++
        " words or less, focusing on the main purpose and key information:\n\n" ++ text))]])]

def summary (generator : Generator) (text : String) (words : Json) : Run String := do
  let text := Text.take summaryLimit (Text.strip text)
  if text == "" then return ""
  match ← Run.attempt (Run.ask generator.apiKey (summaryRequest words text)) with
  | .ok (some reply) => return Text.strip reply
  | _ => return Text.take excerptLimit text

end Generator

end Sitecheck.Embedding
