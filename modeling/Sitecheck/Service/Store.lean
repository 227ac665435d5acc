import Sitecheck.Service.Basic

/-!
# The graph store as a service

A query goes to the store on one line, with its parameters beside it.  The
answer is a list of records.
-/

namespace Sitecheck.Run

def openStore (uri user password : String) : Run Unit := do
  record (.storeOpened uri user password)
  match (← get).store.openFault with
  | some fault => throw fault
  | none => pure ()

def closeStore : Run Unit := record .storeClosed

def takeReply? (text : String) :
    List QueryReply → Option (Except Fault (List Json) × List QueryReply)
  | [] => none
  | reply :: rest =>
    if Text.contains reply.pattern text then some (reply.answer, rest)
    else (takeReply? text rest).map fun (answer, others) => (answer, reply :: others)

def lastName (text : String) : String := (Text.splitOn " as " text).getLastD text

def givesIdentifier (text : String) : Bool :=
  Text.contains "randomUUID()" text && Text.contains " RETURN " text

/-- The record that an unprepared store gives: the next identifier for a query
that makes a node, and nothing for any other. -/
def identifier (text : String) : Run (List Json) := do
  if givesIdentifier text then
    let name := lastName text
    let number := (← get).store.issued + 1
    modify fun s => { s with store := { s.store with issued := number } }
    pure [.obj [(name, .str (name ++ "-" ++ toString number))]]
  else pure []

def query (text : String) (params : List (String × Json)) : Run (List Json) := do
  let text := Text.collapse text
  record (.query text params)
  let s ← get
  match takeReply? text s.store.answers.replies with
  | some (answer, others) =>
    set { s with store := { s.store with answers := { s.store.answers with replies := others } } }
    lift answer
  | none =>
    match s.store.answers.otherwise? s.log with
    | some answer => lift answer
    | none => identifier text

def querySingle (text : String) (params : List (String × Json)) : Run Json :=
  return (← query text params).headD .null

end Sitecheck.Run
