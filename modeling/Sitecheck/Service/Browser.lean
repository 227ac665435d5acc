import Sitecheck.Service.Basic

/-!
# The browser as a service

Going to an address makes its page the current one; every question about a
page or a node of it can fail.
-/

namespace Sitecheck

def answerUnless {α : Type} (faults : List (String × String)) (question : String) (answer : α) :
    Except Fault α :=
  match Fields.get? question faults with
  | some message => .error (.outer .runtime message)
  | none => .ok answer

namespace Node

def getAttribute (node : Node) (name : String) : Except Fault (Option String) :=
  answerUnless node.faults ("attr:" ++ name) (Fields.get? name node.attributes)

def textContent (node : Node) : Except Fault (Option String) :=
  answerUnless node.faults "text" node.text

def dataAttributes (node : Node) : Except Fault Json := answerUnless node.faults "data" node.data

def isDisabled (node : Node) : Except Fault Bool := answerUnless node.faults "disabled" node.disabled

def isVisible (node : Node) : Except Fault Bool := answerUnless node.faults "visible" node.visible

def queryAll (node : Node) (selector : String) : Except Fault (List Node) :=
  answerUnless node.faults ("query:" ++ selector) ((Fields.get? selector node.children).getD [])

end Node

namespace WebPage

def getTitle (page : WebPage) : Except Fault Json := answerUnless page.faults "title" page.title

def getHrefs (page : WebPage) : Except Fault Json := answerUnless page.faults "hrefs" page.hrefs

def getLinks (page : WebPage) : Except Fault Json := answerUnless page.faults "links" page.links

def getButtons (page : WebPage) : Except Fault Json :=
  answerUnless page.faults "buttons" page.buttons

def getContent (page : WebPage) : Except Fault Json :=
  answerUnless page.faults "content" page.content

def queryAll (page : WebPage) (selector : String) : Except Fault (List Node) :=
  answerUnless page.faults ("query:" ++ selector) ((Fields.get? selector page.nodes).getD [])

end WebPage

namespace Run

def launchBrowser : Run Unit := do
  record (.launched "firefox" true)
  match (← get).browser.launchFault with
  | some fault => throw fault
  | none => pure ()

def newPage (viewport : Json) : Run Unit := record (.newPage viewport)

/-- Goes to an address; an unknown one leaves a blank page. -/
def goto (url : String) (timeout : Json) (waitUntil : Option String) : Run Unit := do
  record (.visited url timeout waitUntil)
  let s ← get
  match s.browser.web.page? s.log url with
  | some page =>
    modify fun s => { s with browser := { s.browser with current := page } }
    lift (answerUnless page.faults "goto" ())
  | none =>
    modify fun s => { s with browser := { s.browser with current := .blank } }
    throw (.outer .runtime "net::ERR_NAME_NOT_RESOLVED")

def currentPage : Run WebPage := return (← get).browser.current

def takeScreenshot (path : Path) : Run Unit := do
  record (.screenshot path.text false)
  lift (answerUnless (← currentPage).faults "screenshot" ())

def closeBrowser : Run Unit := record .browserClosed

def sleep (seconds : Json) : Run Unit := record (.slept seconds)

end Run

end Sitecheck
