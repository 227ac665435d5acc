import Sitecheck.Digest.Md5
import Sitecheck.Service.Disk
import Sitecheck.Settings.Live
import Sitecheck.Time
import Sitecheck.Uuid

/-!
# Surroundings

What the tool asks of the services around it: files, a clock, a language
model, a graph store, other programs and a browser.  The state holds what each
service will answer next and the list of what was asked of it, newest first.
An action may fail; what it asked before stays asked.
-/

namespace Sitecheck

/-! ## What is asked of the services -/

inductive Event where
  | prompt (request : List (String × Json)) (apiKey : String)
  | embedding (model input : String)
  | storeOpened (uri user password : String)
  | query (text : String) (params : List (String × Json))
  | storeClosed
  | program (arguments : List String) (directory : Option String) (timeout : Option Nat)
  | launched (browser : String) (headless : Bool)
  | newPage (viewport : Json)
  | visited (url : String) (timeout : Json) (waitUntil : Option String)
  | screenshot (path : String) (fullPage : Bool)
  | browserClosed
  | slept (seconds : Json)
  | progress (update : Json)
  | accepted
  | sent (message : Json)
  | closed

/-! ## What the services answer -/

inductive Reply where
  | text (content : Option String)
  | empty
  | fault (fault : Fault)

inductive EmbeddingReply where
  | vector (values : Json)
  | fault (fault : Fault)

/-- The answer to the first query whose text has a pattern in it. -/
structure QueryReply where
  pattern : String
  answer : Except Fault (List Json)

/-- How queries are answered.  The first reply that fits a query is used up by
it; where none fits, the answer may depend on all that was asked before and on
the query itself, newest first. -/
structure Answers where
  replies : List QueryReply
  otherwise? : List Event → Option (Except Fault (List Json))

def Answers.ofReplies (replies : List QueryReply) : Answers := ⟨replies, fun _ => none⟩

instance : Coe (List QueryReply) Answers := ⟨Answers.ofReplies⟩

structure Store where
  openFault : Option Fault
  answers : Answers
  issued : Nat

/-- What a program leaves behind: its exit code, its output, and the texts of
its results file and its summary file. -/
structure Finished where
  code : Json
  output : String
  errors : String
  results : Option String
  summary : Option String

inductive ProgramReply where
  | finished (result : Finished)
  | fault (fault : Fault)

/-- A node of a page.  `faults` names the questions about it that fail. -/
structure Node where
  attributes : List (String × String)
  text : Option String
  data : Json
  disabled : Bool
  visible : Bool
  children : List (String × List Node)
  faults : List (String × String)
  deriving Inhabited

structure WebPage where
  title : Json
  hrefs : Json
  links : Json
  buttons : Json
  content : Json
  nodes : List (String × List Node)
  faults : List (String × String)

namespace WebPage

def blank : WebPage := ⟨.str "", .arr [], .arr [], .arr [], .emptyObj, [], []⟩

end WebPage

/-- The pages that can be loaded.  The page at an address may depend on all that
was asked before, newest first.  A crawl whose limit is infinite takes `size` for
the number of pages. -/
structure Web where
  page? : List Event → String → Option WebPage
  size : Nat

def Web.ofTable (pages : List (String × WebPage)) : Web :=
  ⟨fun _ url => Fields.get? url pages, pages.length⟩

instance : Coe (List (String × WebPage)) Web := ⟨Web.ofTable⟩

structure Browser where
  launchFault : Option Fault
  web : Web
  current : WebPage

/-! ## The state of all services -/

/-- `silence` is the fault of a service that has nothing more to say, and
`tools` the directory in which the programs that run tests are installed. -/
structure Surroundings where
  disk : Disk
  environment : List (String × String)
  now : Moment
  tick : Int
  uuids : List String
  loopTimes : List Binary64
  replies : List Reply
  embeddingReplies : List EmbeddingReply
  embeddingPackage : Bool
  store : Store
  programs : List ProgramReply
  browser : Browser
  server : Option Settings.Live
  cache : Settings.Cache
  silence : Fault
  tools : String
  log : List Event

/-! ## Actions -/

abbrev Run (α : Type) := ExceptT Fault (StateM Surroundings) α

namespace Run

variable {α : Type}

def lift (result : Except Fault α) : Run α := ExceptT.mk (pure result)

def attempt (action : Run α) : Run (Except Fault α) := fun s =>
  let (result, s) := action s
  (.ok result, s)

def orElse (action : Run α) (instead : Fault → Run α) : Run α := do
  match ← attempt action with
  | .ok a => pure a
  | .error fault => instead fault

def record (event : Event) : Run Unit := modify fun s => { s with log := event :: s.log }

/-! ## Clock and identifiers -/

def moment : Run Moment := do
  let s ← get
  unless s.now.isInRange do throw .overflow
  set { s with now := s.now.later s.tick }
  return s.now

def timestamp : Run String := return (← moment).text

/-- A short identifier made from a label and the present moment. -/
def freshId (label : String) : Run String := do
  let now ← timestamp
  match Text.scalar? (label ++ now) with
  | some text => return label ++ Text.take 8 (Digest.md5Hex text)
  | none => throw .unencodable

def noUuid : String := Text.repeated 32 '0'

def uuid : Run String := do
  let s ← get
  match s.uuids with
  | [] => return noUuid
  | id :: rest =>
    set { s with uuids := rest }
    lift (Uuid.digits id)

def loopTime : Run Binary64 := modifyGet fun s =>
  match s.loopTimes with
  | [] => (.zero false, s)
  | time :: rest => (time, { s with loopTimes := rest })

def environmentValue (name : String) : Run (Option String) :=
  return Fields.get? name (← get).environment

/-! ## Files -/

def fileExists (path : Path) : Run Bool := do lift ((← get).disk.exists? path)

def readFile (path : Path) : Run String := do lift ((← get).disk.read path)

def look (path : Path) : Run (Option Entry) := do lift ((← get).disk.look path)

/-- Writes a file; a text that has no bytes leaves it empty. -/
def writeFile (path : Path) (text : String) : Run Unit := do
  let disk ← lift ((← get).disk.write path (if Text.isScalar text then text else ""))
  modify fun s => { s with disk := disk }
  unless Text.isScalar text do throw .unencodable

def makeDirectory (path : Path) : Run Unit := fun s =>
  let (result, disk) := s.disk.makeDirectory path
  (result, { s with disk := disk })

/-- Writes a document to a file, up to the first number that cannot be written. -/
def writeJson (path : Path) (value : Json) : Run Unit :=
  match value.draft with
  | none => writeFile path value.pretty
  | some draft => do
    writeFile path draft
    throw .unwritable

def saveJson (path : Path) (value : Json) : Run Unit := do
  makeDirectory path.parent
  writeJson path value

def loadJson (path : Path) : Run Json := do lift (Json.parse (← readFile path))

def loadJson? (path : Path) : Run (Option Json) := do
  if ← fileExists path then return some (← loadJson path) else return none

/-! ## Other services -/

/-- Asks the language model; the answer is the text of its first part. -/
def ask (apiKey : String) (request : List (String × Json)) : Run (Option String) := do
  record (.prompt request apiKey)
  let reply ← modifyGet fun s =>
    match s.replies with
    | [] => (Reply.fault s.silence, s)
    | reply :: rest => (reply, { s with replies := rest })
  match reply with
  | .text content => pure content
  | .empty => throw .outOfRange
  | .fault fault => throw fault

def embed (model input : String) : Run Json := do
  record (.embedding model input)
  let reply ← modifyGet fun s =>
    match s.embeddingReplies with
    | [] => (EmbeddingReply.fault s.silence, s)
    | reply :: rest => (reply, { s with embeddingReplies := rest })
  match reply with
  | .vector values => pure values
  | .fault fault => throw fault

def argumentAfter? (name : String) : List String → Option String
  | first :: second :: rest => if first == name then some second else argumentAfter? name (second :: rest)
  | _ => none

/-- Runs a program; files that it writes lie where its arguments say. -/
def runProgram (arguments : List String) (directory : Option String) (timeout : Option Nat) :
    Run Finished := do
  record (.program arguments directory timeout)
  let reply ← modifyGet fun s =>
    match s.programs with
    | [] =>
      (ProgramReply.fault (.outer .fileMissing ("no such program: " ++ arguments.headD "")), s)
    | reply :: rest => (reply, { s with programs := rest })
  match reply with
  | .fault fault => throw fault
  | .finished result =>
    if let (some text, some config) := (result.results, argumentAfter? "--config" arguments) then
      writeFile ((Path.ofText config).parent.join "results.json") text
    if let (some text, some path) := (result.summary, argumentAfter? "--summary-export" arguments)
    then writeFile (Path.ofText path) text
    pure result

end Run

end Sitecheck
