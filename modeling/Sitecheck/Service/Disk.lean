import Sitecheck.Fault
import Sitecheck.Json.Reader
import Sitecheck.Path

/-!
# Files

A tree of directories and text files, with a working directory from which
relative paths are walked.  Reading turns every line ending into a newline;
writing keeps the text.
-/

namespace Sitecheck

inductive Entry where
  | file (text : String)
  | directory (entries : List (String × Entry))

namespace Entry

def isFile : Entry → Bool
  | file _ => true
  | directory _ => false

def find? : (location : List String) → Entry → Option Entry
  | [], entry => some entry
  | name :: location, directory entries => (Fields.get? name entries).bind (find? location)
  | _ :: _, file _ => none

def put (new : Entry) : (location : List String) → Entry → Entry
  | [], _ => new
  | name :: location, directory entries =>
    directory (Fields.set name
      (put new location ((Fields.get? name entries).getD (directory []))) entries)
  | _ :: _, file text => file text

def remove : (location : List String) → Entry → Entry
  | name :: location, directory entries =>
    match location, Fields.get? name entries with
    | [], _ => directory (entries.filter fun (known, _) => known != name)
    | location, some entry => directory (Fields.set name (remove location entry) entries)
    | _, none => directory entries
  | _, entry => entry

mutual

def contents (location : List String) : Entry → List (List String × Entry)
  | file _ => []
  | directory entries => contentsAll location entries

def contentsAll (location : List String) : List (String × Entry) → List (List String × Entry)
  | [] => []
  | (name, entry) :: entries =>
    (location ++ [name], entry) :: (contents (location ++ [name]) entry ++ contentsAll location entries)

end

end Entry

structure Disk where
  home : List String
  root : Entry

namespace Disk

def entry? (disk : Disk) (location : List String) : Option Entry := disk.root.find? location

def put (location : List String) (entry : Entry) (disk : Disk) : Disk :=
  { disk with root := Entry.put entry location disk.root }

def remove (location : List String) (disk : Disk) : Disk :=
  { disk with root := disk.root.remove location }

/-! ## Walking a path -/

def maxNameBytes : Nat := 255

def maxPathBytes : Nat := 4095

def hasNull (path : Path) : Bool := path.parts.any fun part => part.toList.contains '\x00'

def refusal? (path : Path) : Option Fault :=
  match path.byteSize? with
  | none => some .unencodable
  | some bytes =>
    if hasNull path then some (.refused "embedded null byte")
    else if maxPathBytes < bytes then some (.disk .nameTooLong path.text)
    else none

def step (place : List String) (part : String) : List String :=
  if part == ".." then place.dropLast else place ++ [part]

def isTooLong (part : String) : Bool := maxNameBytes < (Path.nameBytes? part).getD 0

def start (disk : Disk) (path : Path) : List String := if path.isAbsolute then [] else disk.home

/-- Steps through names and two dots; every place that is left has to be a directory. -/
def walk (disk : Disk) : (place : List String) → List String → Except DiskFault (List String)
  | place, [] => .ok place
  | place, part :: parts =>
    match disk.entry? place with
    | none => .error .missing
    | some (.file _) => .error .notDirectory
    | some (.directory _) =>
      if isTooLong part then .error .nameTooLong else walk disk (step place part) parts

def locate (disk : Disk) (path : Path) : Except DiskFault (List String) :=
  disk.walk (disk.start path) path.parts

def place (disk : Disk) (path : Path) : Except Fault (List String) :=
  match refusal? path with
  | some fault => .error fault
  | none =>
    match disk.locate path with
    | .ok location => .ok location
    | .error cause => .error (.disk cause path.text)

/-! ## Operations -/

def look (disk : Disk) (path : Path) : Except Fault (Option Entry) :=
  match disk.place path with
  | .ok location => .ok (disk.entry? location)
  | .error (.disk .nameTooLong text) => .error (.disk .nameTooLong text)
  | .error _ => .ok none

def exists? (disk : Disk) (path : Path) : Except Fault Bool :=
  (disk.look path).map Option.isSome

def newlines : List Char → List Char
  | '\r' :: '\n' :: rest => '\n' :: newlines rest
  | '\r' :: rest => '\n' :: newlines rest
  | c :: rest => c :: newlines rest
  | [] => []

def read (disk : Disk) (path : Path) : Except Fault String := do
  match disk.entry? (← disk.place path) with
  | some (.file text) => .ok (String.ofList (newlines text.toList))
  | some (.directory _) => .error (.disk .directory path.text)
  | none => .error (.disk .missing path.text)

def write (path : Path) (text : String) (disk : Disk) : Except Fault Disk := do
  let location ← disk.place path
  match disk.entry? location with
  | some (.directory _) => .error (.disk .directory path.text)
  | _ => .ok (disk.put location (.file text))

/-! ## Making directories -/

/-- Steps through directories up to the first place where nothing is; gives the
place and the names that are left. -/
def reach (disk : Disk) : (place : List String) → List String →
    Except DiskFault (List String × List String)
  | place, parts =>
    match disk.entry? place, parts with
    | none, parts => .ok (place, parts)
    | some (.file _), [] => .error .present
    | some (.file _), _ :: _ => .error .notDirectory
    | some (.directory _), [] => .ok (place, [])
    | some (.directory _), part :: parts =>
      if isTooLong part then .error .nameTooLong else reach disk (step place part) parts

def fillPlace (place : List String) (disk : Disk) : Except DiskFault Disk :=
  match disk.entry? place with
  | none => .ok (disk.put place (.directory []))
  | some (.directory _) => .ok disk
  | some (.file _) => .error .present

def fill (disk : Disk) : (place : List String) → List String → Option DiskFault × Disk
  | _, [] => (none, disk)
  | place, part :: parts =>
    if isTooLong part then (some .nameTooLong, disk)
    else
      match disk.fillPlace (step place part) with
      | .error cause => (some cause, disk)
      | .ok disk => disk.fill (step place part) parts

/-- Makes a directory and those above it, where they are missing, but not at any
depth.  What was made before a fault stays. -/
def makeDirectory (path : Path) (disk : Disk) : Except Fault Unit × Disk :=
  match refusal? path with
  | some fault => (.error fault, disk)
  | none =>
    match disk.reach (disk.start path) path.parts with
    | .error cause => (.error (.disk cause path.text), disk)
    | .ok (place, parts) =>
      if Json.maxDepth < parts.length then (.error .tooDeep, disk)
      else
        match disk.fillPlace place with
        | .error cause => (.error (.disk cause path.text), disk)
        | .ok disk =>
          match disk.fill place parts with
          | (none, disk) => (.ok (), disk)
          | (some cause, disk) => (.error (.disk cause path.text), disk)

def below (disk : Disk) : List (Path × Entry) :=
  match disk.entry? disk.home with
  | some entry => (entry.contents []).map fun (location, entry) => (⟨.working, location⟩, entry)
  | none => []

end Disk

end Sitecheck
