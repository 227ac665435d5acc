import Sitecheck.Settings.Source

/-!
# The settings file

Settings are read from the nearest settings file.  The key of the language
model comes from the environment if that has one, and has to come from
somewhere.  Changing the file makes the next component read it again.
-/

namespace Sitecheck.Settings

/-! ## Reading -/

def keyVariable : String := "ANTHROPIC_API_KEY"

def filePath : Path := .ofText "config/config.json"

def candidates : List Path :=
  [filePath, .ofText "../config/config.json", .ofText "../../config/config.json"]

def firstExisting : List Path → Run Path
  | [] => throw (.fileMissing
      "Config file not found. Please create config/config.json from config/config.example.json")
  | path :: rest => do if ← Run.fileExists path then pure path else firstExisting rest

/-- Puts the environment's key in, or checks that the file has one. -/
def withKey (key : Option String) (fields : List (String × Json)) :
    Except Fault (List (String × Json)) :=
  match key with
  | some key =>
    match (Fields.get? "llm" fields).getD .emptyObj with
    | .obj section_ => .ok (Fields.set "llm" (.obj (Fields.set "api_key" (.str key) section_)) fields)
    | _ => .error (.wrongKind "the section takes no members")
  | none =>
    match Fields.get? "llm" fields with
    | none => .ok fields
    | some section_ => do
      if (← section_.get "api_key").isTruthy then pure fields
      else throw (.refused (keyVariable ++ " must be set in environment variable or config.json"))

def ofMembers (fields : List (String × Json)) : Run Settings := do
  if Fields.has Schema.reservedName fields then throw (.wrongKind Schema.Cause.reserved.message)
  Run.lift (Schema.make "Config" ofFields (← withSources sections fields))

def ofJson : Json → Run Settings
  | .obj fields => ofMembers fields
  | _ => throw (.wrongKind "argument after ** must be a mapping")

def ofDocument (document : Json) : Run Settings := do
  let .obj fields := document | throw (.wrongKind "the settings have no members")
  let key := (← Run.environmentValue keyVariable).filter (· != "")
  ofMembers (← Run.lift (withKey key fields))

def load (path : Option Path) : Run Settings := do
  let path ← match path with
    | some path => pure path
    | none => firstExisting candidates
  ofDocument (← Run.lift (Json.parse (← Run.readFile path)))

/-- Reads the settings, keeps them at hand and makes the directories in which
things are kept. -/
def refresh : Run Live := do
  let live := (← load none).live
  modify fun s => { s with cache := .own live }
  live.base.storage.directories.forM fun directory => Run.makeDirectory (.ofText directory)
  pure live

/-- The settings for the next component: those at hand, or else they are read. -/
def current : Run Live := do
  let s ← get
  match s.cache.read? s.server with
  | some live => pure live
  | none => refresh

/-! ## Changing -/

/-- Puts pairs into a section and keeps all its other members. -/
def changeSection (changes section_ : Json) : Except Fault Json := do
  let fields ← section_.fieldsFor "update"
  let pairs ← changes.pairs
  return .ofTable (Json.putPairs pairs (fields.map fun (key, value) => (.str key, value)))

def changeDocument (document : Json) (name : String) (changes : Json) : Except Fault Json :=
  match document with
  | .obj fields =>
    match Fields.get? name fields with
    | some section_ => do
      return .obj (Fields.set name (← changeSection changes section_) fields)
    | none => .ok (.obj (Fields.set name changes fields))
  | _ => .error (.wrongKind "the settings have no members")

def changeAll (document : Json) : List (String × Json) → Except Fault Json
  | [] => .ok document
  | (name, changes) :: rest => do changeAll (← changeDocument document name changes) rest

def rewriteFile (updates : Json) : Run Unit := do
  match ← Run.loadJson? filePath with
  | none => throw (.fileMissing ("Config file not found: " ++ filePath.text))
  | some document =>
    let updates ← Run.lift (updates.fieldsFor "items")
    Run.writeJson filePath (← Run.lift (changeAll document updates))

/-- Changes sections of the settings file; the settings are read again by the
next component that asks for them. -/
def change (updates : Json) : Run Unit := do
  rewriteFile updates
  modify fun s => { s with cache := .empty }

end Sitecheck.Settings
