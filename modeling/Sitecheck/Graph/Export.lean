import Sitecheck.Graph.Basic
import Sitecheck.Site.Basic

/-!
# Site maps from the graph

The store gives one record for every page, element and action.  The records
are gathered by page and by element, each in the order of its first record,
and the gathered pages become a site map.
-/

namespace Sitecheck.Graph

/-! ## Gathering -/

structure GatheredElement where
  selector : Json
  strategy : Json
  kind : Json
  text : Json
  attributes : Json
  actions : List Json

structure GatheredPage where
  url : Json
  title : Json
  screenshot : Json
  elements : List (Json × GatheredElement)

/-- Changes the value under a key, or adds one at the end. -/
def alter {α : Type} (key : Json) (change : Option α → Except Fault α) :
    List (Json × α) → Except Fault (List (Json × α))
  | [] => do return [(key, ← change none)]
  | (name, value) :: rest => do
    if Json.sameKey name key then return (name, ← change (some value)) :: rest
    else return (name, value) :: (← alter key change rest)

def startElement (record : Json) : Except Fault GatheredElement := do
  return { selector := ← record.member "selector"
           strategy := ← record.member "selector_strategy"
           kind := ← record.member "element_type"
           text := ← record.member "text"
           attributes := ← record.member "attributes"
           actions := [] }

def startPage (record : Json) : Except Fault GatheredPage := do
  return { url := ← record.member "url"
           title := ← record.member "title"
           screenshot := ← record.member "screenshot_path"
           elements := [] }

def gatherElement (record : Json) (known : Option GatheredElement) : Except Fault GatheredElement := do
  let element ← match known with
    | some element => pure element
    | none => startElement record
  let action ← record.member "action_type"
  if action.isTruthy then
    let _ ← record.member "target_url"
    let _ ← record.member "value"
    return { element with actions := element.actions ++ [action] }
  else return element

def gatherPage (record : Json) (known : Option GatheredPage) : Except Fault GatheredPage := do
  let page ← match known with
    | some page => pure page
    | none => startPage record
  let id ← record.member "element_id"
  if id.isTruthy then
    id.checkKey
    return { page with elements := ← alter id (gatherElement record) page.elements }
  else return page

def gather : (pages : List (Json × GatheredPage)) → (records : List Json) →
    Except Fault (List (Json × GatheredPage))
  | pages, [] => .ok pages
  | pages, record :: records => do
    let id ← record.member "page_id"
    id.checkKey
    gather (← alter id (gatherPage record) pages) records

/-! ## Building the site map -/

/-- The member of a family that a stored word names, whatever its case. -/
def wordIn {α : Type} (family : String) (members : List (String × α)) (word : Json) :
    Except Fault α := do
  let name := Text.lower (← word.textFor "lower")
  match Fields.get? name members with
  | some value => return value
  | none => throw (.refused (Text.quoted name ++ " is not a valid " ++ family))

/-- Attributes are stored as a document; nothing stored is no attributes. -/
def storedAttributes (value : Json) : Except Fault Json :=
  if value.isTruthy then
    match value with
    | .str document => Json.parse document
    | other => .error (.wrongKind ("the JSON object must be str, bytes or bytearray, not " ++
        other.kindName))
  else .ok .emptyObj

open Schema in
def GatheredElement.element (gathered : GatheredElement) : Except Fault Element := do
  let strategy ← wordIn "SelectorStrategy" Strategy.members gathered.strategy
  let attributes ← storedAttributes gathered.attributes
  let fields := [("selector", gathered.selector), ("element_type", gathered.kind),
    ("text", gathered.text), ("attributes", attributes)]
  (Element.mk <$> required "selector" Schema.text fields
    <*> pure strategy
    <*> required "element_type" Schema.text fields
    <*> optional "text" Schema.text fields
    <*> required "attributes" (table anything) fields).orFault "PageElement"

def GatheredElement.interactions (gathered : GatheredElement) : Except Fault (List Interaction) :=
  gathered.actions.mapM fun action => do
    let kind ← wordIn "ActionType" ActionKind.members action
    let element ← gathered.element
    return { kind := kind, element := element, value := none,
             description := action.display ++ " on " ++ gathered.kind.display }

open Schema in
def GatheredPage.page (gathered : GatheredPage) : Except Fault Page := do
  let parts ← gathered.elements.mapM fun (_, element) => do
    let first ← element.element
    return (first, ← element.interactions)
  let fields := [("url", gathered.url), ("title", gathered.title),
    ("screenshot_path", gathered.screenshot)]
  (Page.mk <$> required "url" webAddress fields
    <*> required "title" Schema.text fields
    <*> pure (parts.map Prod.fst)
    <*> pure (parts.flatMap Prod.snd)
    <*> optional "screenshot_path" Schema.text fields
    <*> pure []).orFault "PageInfo"

def crawlQuery : String :=
  "MATCH (c:Crawl \x7bcrawl_id: $crawl_id\x7d)
      RETURN c.base_url as base_url, c.domain as domain"

/-- The query for the pages of a site map, with a record for every action of
every element, and one for an element or a page that has none. -/
def rowsQuery : String :=
  "MATCH (p:Page)
      WHERE p.page_id IN $page_ids AND p.crawl_id = $crawl_id
      OPTIONAL MATCH (p)-[:HAS_ELEMENT]->(e:Element)
      OPTIONAL MATCH (e)-[:CAN_PERFORM]->(a:Action)
      RETURN
        p.page_id as page_id,
        p.url as url,
        p.title as title,
        p.screenshot_path as screenshot_path,
        e.element_id as element_id,
        e.selector as selector,
        e.selector_strategy as selector_strategy,
        e.element_type as element_type,
        e.text as text,
        e.attributes as attributes,
        a.action_type as action_type,
        a.target_url as target_url,
        a.value as value
      ORDER BY p.page_id, e.element_id, a.action_id"

open Schema in
def siteMap (crawl pageIds : Json) : Run SiteMap := do
  let start ← Run.querySingle crawlQuery [("crawl_id", crawl)]
  unless start.isTruthy do throw (.refused ("No crawl found with ID " ++ crawl.display))
  let records ← Run.query rowsQuery [("crawl_id", crawl), ("page_ids", pageIds)]
  let gathered ← Run.lift (gather [] records)
  if gathered.isEmpty then throw (.refused "No pages found for provided page IDs")
  let pages ← Run.lift (gathered.mapM fun (_, page) => page.page)
  let baseUrl ← Run.lift (start.member "base_url")
  let now ← Run.timestamp
  Run.lift ((SiteMap.mk <$> required "base_url" webAddress [("base_url", baseUrl)]
    <*> pure pages <*> pure now <*> pure pages.length).orFault "AppMap")

end Sitecheck.Graph
