import Sitecheck.Crawl.Frontier
import Sitecheck.Crawl.Hierarchy
import Sitecheck.Crawl.Page

/-!
# Crawling a site

A crawl starts at the base address, stores every page that it can load within
the bounds of the settings, and links the stored pages by their hierarchy.
-/

namespace Sitecheck.Crawl.Crawler

/-! ## Following links -/

def hrefTexts (page : WebPage) : Except Fault (List String) := do
  (← page.getHrefs >>= Json.elements).mapM (Json.textFor "startswith")

def linksOf (base : String) (visited : List String) : Run (List String) := do
  return internalLinks base visited (← Run.lift (hrefTexts (← Run.currentPage)))

def pause (crawler : Crawler) : Run Unit := do
  let delay := crawler.settings.crawl.pageDelay
  match delay.magnitude? with
  | none => throw (Json.notOrdered ">" delay (.int 0))
  | some magnitude =>
    if magnitude.exceeds 0 then
      Run.sleep (.float (← Run.lift (delay.dividedBy 1000)))

def expands (crawler : Crawler) (depth : Nat) : Bool :=
  match crawler.settings.crawl.maxDepth.magnitude? with
  | some magnitude => magnitude.exceeds depth
  | none => false

/-- The links to follow from the current page, if it is not too deep, after the
pause between two pages. -/
def followLinks (crawler : Crawler) (base : String) (visited : List String) (depth : Nat) :
    Run (List String) := do
  let links ← if crawler.expands depth then linksOf base visited else pure []
  let _ ← Run.attempt crawler.pause
  return links

/-- Stores a page and gives its identifier and the links to follow.  A page
that cannot be stored gives nothing; trouble with its links is passed over. -/
def visitPage (crawler : Crawler) (crawl : Json) (base : String) (visited : List String)
    (url : String) (depth : Nat) : Run (Option (Json × List String)) := do
  match ← Run.attempt (crawler.storePage crawl url (.ofNat depth) visited.length) with
  | .error _ => return none
  | .ok id =>
    match ← Run.attempt (crawler.followLinks base (visited ++ [url]) depth) with
    | .error _ => return some (id, [])
    | .ok links => return some (id, links)

def visit (crawler : Crawler) (crawl : Json) (base : String) : Visit Surroundings :=
  fun visited url depth s =>
    match crawler.visitPage crawl base visited url depth s with
    | (.ok result, s) => (result, s)
    | (.error _, s) => (none, s)

/-! ## The crawl -/

/-- The bounds that the settings set.  The depth matters only if the base is visited. -/
def bounds (crawler : Crawler) (base : String) (before : List String) (all : Nat) :
    Except Fault Bounds :=
  let maxPages := crawler.settings.crawl.maxPages
  let maxDepth := crawler.settings.crawl.maxDepth
  match maxPages.magnitude?, maxDepth.magnitude? with
  | none, _ => .error (Json.notOrdered "<" (.ofNat before.length) maxPages)
  | some pages, some depth => .ok (.ofMagnitudes all pages depth)
  | some pages, none =>
    let bounds := Bounds.ofMagnitudes all pages .undefined
    if before.length < bounds.limit && !before.contains base then
      .error (Json.notOrdered ">" (.ofNat (depth base base)) maxDepth)
    else .ok bounds

def viewport (crawler : Crawler) : Except Fault Json := do
  let get (name : String) : Except Fault Json :=
    match Fields.get? name crawler.settings.crawl.viewport with
    | some size => .ok (.int size)
    | none => .error (.missingKey name)
  return .obj [("width", ← get "width"), ("height", ← get "height")]

def start (base : String) (before : List String) (s : Surroundings) : Frontier Surroundings :=
  { queue := [base], visited := before, pages := [], state := s }

/-- Begins a crawl in the graph and opens the browser; gives the identifier of the crawl and
the number that stands for all pages. -/
def opening (crawler : Crawler) (base : String) (before : List String) : Run (Json × Nat) := do
  let split ← Run.lift (Url.Split.ofText base)
  let crawl ← Graph.createCrawl (.str base) (.str split.host)
  Run.launchBrowser
  Run.newPage (← Run.lift crawler.viewport)
  return (crawl, before.length + (← get).browser.web.size + 1)

def prepare (crawler : Crawler) (base : String) (before : List String) : Run (Json × Bounds) := do
  let (crawl, all) ← crawler.opening base before
  return (crawl, ← Run.lift (crawler.bounds base before all))

/-- Crawls a site and gives the identifier of the crawl and the stored pages;
addresses visited before are not visited again. -/
def crawl (crawler : Crawler) (url : String) (before : List String) : Run (Json × Stored) := do
  let base := Text.trimEnd (· = '/') url
  let before := before.eraseDups
  let (crawl, bounds) ← crawler.prepare base before
  let stored ← modifyGet fun s =>
    let done := (start base before s).walk bounds base (crawler.visit crawl base)
    (done.pages, done.state)
  linkHierarchy stored base
  Run.closeBrowser
  Graph.markComplete crawl
  return (crawl, stored)

/-! ## Links between pages -/

def linkPage (crawler : Crawler) (pages : Stored) (base : String) (page : String × Json) :
    Run Unit := do
  Run.goto page.1 crawler.settings.crawl.timeout none
  let nodes ← Run.lift ((← Run.currentPage).queryAll "a[href]")
  nodes.forM fun node => discard <| Run.attempt do
    match ← Run.lift (node.getAttribute "href") with
    | none => pure ()
    | some href =>
      if href != "" && Text.startsWith base href then
        match Fields.get? (Text.before '?' (Text.before '#' href)) pages with
        | none => pure ()
        | some target =>
          let text ← Run.lift node.textContent
          Graph.linkPages page.2 target (.ofOption text)

/-- Stores the links between stored pages; trouble with a page or a link is passed over. -/
def linkPages (crawler : Crawler) (pages : Stored) (base : String) : Run Unit :=
  pages.forM fun page => discard (Run.attempt (crawler.linkPage pages base page))

end Sitecheck.Crawl.Crawler
