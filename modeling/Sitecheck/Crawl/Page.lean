import Sitecheck.Analyze.Page
import Sitecheck.Embedding.Generator
import Sitecheck.FileName
import Sitecheck.Graph.Basic
import Sitecheck.Json.Arithmetic
import Sitecheck.Url.Split

/-!
# Storing one page

A page is loaded and stored in the graph with its screenshot and a part of its
elements.  Loading and storing have to succeed; all else may fail.
-/

namespace Sitecheck.Crawl

/-- What a crawl works with.  `notify` hears of its progress. -/
structure Crawler where
  settings : Settings.Live
  generator : Option Embedding.Generator
  notify : Option (Json → Run Unit)

namespace Crawler

def report (crawler : Crawler) (update : List (String × Json)) : Run Unit :=
  match crawler.notify with
  | some notify => notify (.obj update)
  | none => pure ()

/-! ## Screenshots -/

def pictureName (url : String) : Except Fault String := do
  let path := Text.trim (· = '/') (← Url.Split.ofText url).path
  return FileName.ofText (if path == "" then "home" else path) ++ ".png"

/-- Where the picture of a page is kept; its directory is made. -/
def picturePath (crawler : Crawler) (crawl : Json) (url : String) : Run Path := do
  let name ← Run.lift (pictureName url)
  let start := (Path.ofText crawler.settings.base.storage.artifacts).join "screenshots"
  match crawl with
  | .str crawl =>
    let directory := start.join crawl
    Run.makeDirectory directory
    return directory.join name
  | other => throw (Json.unsupported "/" (.str start.text) other)

/-- The path of the picture, also if it could not be taken. -/
def picture (crawler : Crawler) (crawl : Json) (url : String) : Run Json := do
  if crawler.settings.crawl.screenshot.isTruthy then
    match ← Run.attempt (picturePath crawler crawl url) with
    | .ok path =>
      let _ ← Run.attempt (Run.takeScreenshot path)
      return .str path.text
    | .error _ => return .null
  else return .null

/-! ## Elements -/

def linkSample : Nat := 10

def selectorLimit : Nat := 30

def textLimit : Nat := 50

/-- A link as an element of a page.  Its address stands in for a missing text. -/
def linkElement (page link : Json) : Except Fault Graph.NewElement := do
  let text ← link.getD "text" (.str "")
  let short ← text.front selectorLimit
  let selector ← if short.isTruthy then pure short
    else (← link.getD "url" (.str "")).front selectorLimit
  let shown ← text.front textLimit
  let target ← link.getD "url" (.str "")
  return { page := page, selector := selector, strategy := .str "TEXT", kind := .str "link",
           text := shown, attributes := .obj [("href", target)] }

def addLink (page link : Json) : Run Unit := do
  discard (Graph.addElement (← Run.lift (linkElement page link)))

def itemAt (value : Json) (position : Nat) : Except Fault Json := do
  match value with
  | .obj _ => throw (.missingKey (toString position))
  | value =>
    match (← value.elements)[position]? with
    | some item => return item
    | none => throw .outOfRange

/-- Stores a sample of the links; buttons count but are not stored. -/
def addLinks (page : Json) : Run Unit := do
  let shown ← Run.currentPage
  let links ← Run.lift shown.getLinks
  let buttons ← Run.lift shown.getButtons
  let linkCount ← Run.lift links.size
  let buttonCount ← Run.lift buttons.size
  let sample := min linkSample (linkCount + buttonCount)
  (List.range (min sample linkCount)).forM fun position => do
    let link ← Run.lift (itemAt links position)
    discard (Run.attempt (addLink page link))

def textInputs : List String := ["text", "email", "password", "search", "tel", "url"]

def actionOf? (element : Element) : Option ActionKind :=
  if ["button", "input[type='button']", "input[type='submit']", "link"].contains element.kind then
    some .click
  else if ["input", "textarea"].contains element.kind then
    match (Fields.get? "type" element.attributes).getD (.str "text") with
    | .str kind =>
      if textInputs.contains kind then some .fill
      else if ["checkbox", "radio"].contains kind then some .check
      else none
    | _ => none
  else if element.kind == "select" then some .select
  else none

def addActions (element : Element) (id : Json) : Run Unit :=
  match actionOf? element with
  | some kind => Graph.addAction id (.str kind.name) .null .null
  | none => pure ()

def elementLimit : Nat := 30

def addElements (page : Json) : Run Unit := do
  let elements ← Run.lift (Analyze.elements (← Run.currentPage))
  (elements.take elementLimit).forM fun element => discard <| Run.attempt do
    let id ← Graph.addElement
      { page := page, selector := .str element.selector, strategy := .str element.strategy.name,
        kind := .str element.kind, text := .ofOption element.text,
        attributes := .obj element.attributes }
    addActions element id

/-! ## The whole page -/

def embedding (crawler : Crawler) (content : Option Analyze.Content) : Run Json :=
  match crawler.generator, content with
  | some generator, some content =>
    if content.summary == "" then pure .null else generator.vector content.summary
  | _, _ => pure .null

/-- Goes to a page; `count` pages were visited before. -/
def loadPage (crawler : Crawler) (url : String) (depth : Json) (count : Nat) : Run Unit := do
  crawler.report [("type", .str "page_loading"), ("url", .str url), ("depth", depth),
    ("visited", .ofNat count)]
  match ← Run.attempt (Run.goto url crawler.settings.crawl.timeout (some "domcontentloaded")) with
  | .ok () => pure ()
  | .error fault =>
    crawler.report [("type", .str "page_error"), ("url", .str url), ("error", .str fault.text)]
    throw fault

def isSimple (crawler : Crawler) : Bool := crawler.settings.crawl.skipEmbeddings.isTruthy

def titleOf (page : WebPage) : Json :=
  match page.getTitle with
  | .ok title => title
  | .error _ => .str "Unknown Title"

/-- What is to be stored of the current page, and how long its text is. -/
def readPage (crawler : Crawler) (crawl : Json) (url : String) (depth : Json) :
    Run (Graph.NewPage × Nat) := do
  let shown ← Run.currentPage
  let content := if crawler.isSimple then none else some (Analyze.content shown)
  let vector ← crawler.embedding content
  let screenshot ← crawler.picture crawl url
  return ({ crawl := crawl, url := .str url, title := titleOf shown, depth := depth,
            screenshot := screenshot, content := (content.map Analyze.Content.toJson).getD .null,
            embedding := vector },
    (content.map (·.length)).getD 0)

def storePage (crawler : Crawler) (crawl : Json) (url : String) (depth : Json) (count : Nat) :
    Run Json := do
  crawler.loadPage url depth count
  let (new, length) ← crawler.readPage crawl url depth
  let page ← Graph.addPage new
  crawler.report [("type", .str "page_complete"), ("url", .str url), ("page_id", page),
    ("title", new.title), ("depth", depth), ("content_length", .ofNat length)]
  let _ ← Run.attempt (if crawler.isSimple then addLinks page else addElements page)
  return page

end Crawler

end Sitecheck.Crawl
