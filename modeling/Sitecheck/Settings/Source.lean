import Sitecheck.Service.Basic

/-!
# Sources of settings

The members that settings are made from lie over the sections that the
environment holds, and these over sections kept as secrets, one file to a
section.  A variable holds a whole section, or one value of it if its name goes
on after a separator.  Four members are no settings: they say where to look.
-/

namespace Sitecheck.Settings

/-- Lays one value over another: objects member by member, all else whole. -/
def layOver (lower upper : Json) : Json :=
  match lower, upper with
  | .obj below, .obj above =>
    .obj (above.attach.foldl
      (fun fields ⟨(key, value), _⟩ =>
        match Fields.get? key fields with
        | some old => Fields.set key (layOver old value) fields
        | none => Fields.set key value fields)
      below)
  | _, upper => upper
termination_by sizeOf upper
decreasing_by
  rename_i h
  have := List.sizeOf_lt_of_mem h
  simp_all
  omega

/-! ## Where to look -/

/-- The members that say where to look: a file with variables, how it is encoded,
what separates the parts of a variable's name, and a directory of secrets. -/
def sourceNames : List String :=
  ["_env_file", "_env_file_encoding", "_env_nested_delimiter", "_secrets_dir"]

def placeOf : Json → Except Fault Path
  | .str text => .ok (.ofText text)
  | _ => .error (.wrongKind "expected str, bytes or os.PathLike object")

/-- The directory of a user whose name follows a tilde, if it is known. -/
def homeOf? (user : List Char) (environment : List (String × String)) : Option String :=
  let own := (Fields.get? "HOME" environment).getD "/root"
  if user = [] then some (Text.trimEnd (· = '/') own)
  else if user = "root".toList then some "/root"
  else none

/-- A path in which a tilde at the start stands for the directory of a user. -/
def expanded (environment : List (String × String)) (path : Path) : Except Fault Path :=
  match path.isAbsolute, path.parts with
  | false, first :: rest =>
    match first.toList with
    | '~' :: user =>
      match homeOf? user environment with
      | none => .error (.outer .runtime "Could not determine home directory.")
      | some home =>
        if Text.startsWith "~" home then
          .error (.outer .runtime "Could not determine home directory.")
        else
          let start := Path.ofText (if home == "" then "/" else home)
          .ok { start with parts := start.parts ++ rest }
    | _ => .ok path
  | _, _ => .ok path

def namedPlace (place : Json) : Run Path := do
  Run.lift (expanded (← get).environment (← Run.lift (placeOf place)))

/-- A file with variables cannot be read; one that is not there is not missed. -/
def checkVariableFile (place : Json) : Run Unit := do
  match place with
  | .null => pure ()
  | place =>
    let path ← namedPlace place
    match ← Run.look path with
    | some (.file _) => throw (.packageMissing
        "python-dotenv is not installed, run `pip install pydantic[dotenv]`")
    | _ => pure ()

/-! ## The environment -/

/-- The variables by their names in small letters; the last of several counts. -/
def lowerNames (environment : List (String × String)) : List (String × String) :=
  environment.foldl (fun known (name, value) => Fields.set (Text.lower name) value known) []

def partsOf (delimiter : Json) (name : String) : Except Fault (List String) :=
  match delimiter with
  | .str "" => .error (.refused "empty separator")
  | .str delimiter => .ok (Text.splitOn delimiter name)
  | other => .error (.wrongKind ("must be str or None, not " ++ other.kindName))

/-- Puts a text below a row of names; what is no object on the way is in the way. -/
def putBelow (value : String) : (names : List String) → Json → Except Fault Json
  | [], below => .ok below
  | [name], .obj fields => .ok (.obj (Fields.set name (.str value) fields))
  | [_], below =>
    .error (.wrongKind ("'" ++ below.kindName ++ "' object does not support item assignment"))
  | name :: names, .obj fields => do
    let inner ← putBelow value names ((Fields.get? name fields).getD .emptyObj)
    return .obj (Fields.set name inner fields)
  | _ :: _ :: _, below => .error (.noMember below.kindName "setdefault")

def nestedValues (delimiter : Json) (name : String) :
    (found : Json) → List (String × String) → Except Fault Json
  | found, [] => .ok found
  | found, (variableName, value) :: rest => do
    if Text.startsWith (name ++ delimiter.display) variableName then
      let parts ← partsOf delimiter variableName
      nestedValues delimiter name (← putBelow value (parts.drop 1) found) rest
    else nestedValues delimiter name found rest

def sectionOf (text : String) : Except Fault Json :=
  match Json.parse text with
  | .error .tooDeep => .error .tooDeep
  | .error _ => .error .settings
  | .ok value => .ok value

def environmentSection (delimiter : Json) (environment : List (String × String)) (name : String) :
    Except Fault (Option Json) := do
  match Fields.get? name environment with
  | none =>
    let nested ← nestedValues delimiter name .emptyObj environment
    return if nested.isTruthy then some nested else none
  | some text =>
    match ← sectionOf text with
    | .obj fields =>
      return some (layOver (.obj fields) (← nestedValues delimiter name .emptyObj environment))
    | value => return some value

def found {m : Type → Type} [Monad m] (find : String → m (Option Json)) :
    List String → m (List (String × Json))
  | [] => pure []
  | name :: names => do
    let value ← find name
    let others ← found find names
    return (value.map (Prod.mk name)).toList ++ others

/-! ## Secrets -/

def secretSection (directory : Path) (name : String) : Run (Option Json) := do
  let path := directory.join name
  match ← Run.look path with
  | some (.file _) => return some (← Run.lift (sectionOf (Text.strip (← Run.readFile path))))
  | _ => return none

/-- The sections in a directory of secrets; one that is not there is not missed. -/
def secretSections (place : Json) (names : List String) : Run (List (String × Json)) := do
  if place.isTruthy then
    let path ← namedPlace place
    match ← Run.look path with
    | none => return []
    | some (.file _) => throw .settings
    | some (.directory _) => found (secretSection path) names
  else return []

/-! ## Together -/

def withSources (names : List String) (fields : List (String × Json)) :
    Run (List (String × Json)) := do
  let source (name : String) : Json := (Fields.get? name fields).getD .null
  checkVariableFile (source "_env_file")
  let environment := lowerNames (← get).environment
  let sections ← Run.lift (found (environmentSection (source "_env_nested_delimiter") environment) names)
  let secrets ← secretSections (source "_secrets_dir") names
  let own := fields.filter fun (name, _) => !sourceNames.contains name
  match layOver (layOver (.obj secrets) (.obj sections)) (.obj own) with
  | .obj all => return all
  | _ => return own

end Sitecheck.Settings
