import Sitecheck.Text.Basic

/-!
# Routes

Which request is answered how: a route has methods and a pattern of names, of
which one may be left open.  A newline at the end of a path does not keep it from
fitting.  A path that would fit with or without a slash at its end is
redirected.
-/

namespace Sitecheck.Server

/-- What can be asked of the server; an open name is the identifier of a crawl.
`manual` stands for the pages that describe the server itself. -/
inductive Route where
  | health
  | crawl
  | crawls
  | summary (crawl : String)
  | pages (crawl : String)
  | view (crawl : String)
  | findPath
  | generate
  | compile
  | run
  | settings
  | changeSettings
  | logic
  | load
  | api
  | manual
  deriving DecidableEq

inductive Part where
  | name (text : String)
  | any

structure Pattern where
  methods : List String
  parts : List Part
  route : String → Route

namespace Pattern

def fixed (names : List String) : List Part := names.map .name

def all : List Pattern :=
  [⟨["POST"], fixed ["tests", "logic", "generate"], fun _ => .logic⟩,
    ⟨["POST"], fixed ["tests", "load", "run"], fun _ => .load⟩,
    ⟨["POST"], fixed ["tests", "api", "compile"], fun _ => .api⟩,
    ⟨["GET"], fixed [""], fun _ => .health⟩,
    ⟨["POST"], fixed ["crawl"], fun _ => .crawl⟩,
    ⟨["GET"], fixed ["crawls"], fun _ => .crawls⟩,
    ⟨["GET"], [.name "crawl", .any, .name "summary"], .summary⟩,
    ⟨["GET"], [.name "crawl", .any, .name "pages"], .pages⟩,
    ⟨["GET"], [.name "graph", .any, .name "visualize"], .view⟩,
    ⟨["POST"], fixed ["graph", "find-path"], fun _ => .findPath⟩,
    ⟨["POST"], fixed ["generate-tests"], fun _ => .generate⟩,
    ⟨["POST"], fixed ["compile-tests"], fun _ => .compile⟩,
    ⟨["POST"], fixed ["run-tests"], fun _ => .run⟩,
    ⟨["GET"], fixed ["config", "crawler"], fun _ => .settings⟩,
    ⟨["POST"], fixed ["config", "crawler"], fun _ => .changeSettings⟩,
    ⟨["GET", "HEAD"], fixed ["openapi.json"], fun _ => .manual⟩,
    ⟨["GET", "HEAD"], fixed ["docs"], fun _ => .manual⟩,
    ⟨["GET", "HEAD"], fixed ["docs", "oauth2-redirect"], fun _ => .manual⟩,
    ⟨["GET", "HEAD"], fixed ["redoc"], fun _ => .manual⟩]

/-- The open name, if the names fit the parts; empty if no part is open. -/
def fit? : List Part → List String → Option String
  | [], [] => some ""
  | .name text :: parts, name :: names => if text = name then fit? parts names else none
  | .any :: parts, name :: names =>
    if name = "" then none else (fit? parts names).map fun _ => name
  | _, _ => none

def names? (path : String) : Option (List String) :=
  match Text.splitOn "/" path with
  | "" :: names => if names.isEmpty then none else some names
  | _ => none

def fitExactly? (parts : List Part) (path : List Char) : Option String := do
  fit? parts (← names? (String.ofList path))

/-- The open name of a path that fits the parts, a newline at its end apart. -/
def fitPath? (parts : List Part) (path : String) : Option String :=
  let chars := path.toList
  (fitExactly? parts chars).or
    (if chars.getLast? = some '\n' then fitExactly? parts chars.dropLast else none)

def route? (path : String) (pattern : Pattern) : Option Route :=
  (fitPath? pattern.parts path).map pattern.route

end Pattern

inductive Routing where
  | found (route : Route)
  | wrongMethod
  | redirect
  | missing

def Routing.ofRequest (method path : String) : Routing :=
  let fitting := Pattern.all.filterMap fun pattern =>
    (pattern.route? path).map fun route => (pattern.methods, route)
  match fitting.find? fun entry => entry.1.contains method with
  | some (_, route) => .found route
  | none =>
    if !fitting.isEmpty then .wrongMethod
    else
      let other := if path.toList.getLast? = some '/' then Text.trimEnd (· = '/') path else path ++ "/"
      if path != "/" && Pattern.all.any fun pattern => (pattern.route? other).isSome then .redirect
      else .missing

def isConversation (path : String) : Bool :=
  (Pattern.fitPath? [.name "ws", .name "crawl", .any] path).isSome

end Sitecheck.Server
