import Sitecheck.Service.Store

/-!
# The graph of a crawl

A crawl has pages, a page has elements and links to other pages, and an
element allows actions.  Each function here writes to the graph or reads from
it by one query.  Identifiers and stored values are whatever the store gives
and takes.
-/

namespace Sitecheck.Graph

/-! ## Opening -/

def constraints : List String :=
  ["CREATE CONSTRAINT page_url_crawl IF NOT EXISTS
      FOR (p:Page) REQUIRE (p.crawl_id, p.url) IS UNIQUE",
    "CREATE INDEX crawl_id_idx IF NOT EXISTS
      FOR (p:Page) ON (p.crawl_id)",
    "CREATE INDEX element_selector_idx IF NOT EXISTS
      FOR (e:Element) ON (e.selector)"]

def createConstraints : Run Unit := constraints.forM fun text => discard (Run.query text [])

def connect (store : Settings.GraphStore) : Run Unit := do
  Run.openStore store.uri store.user store.password
  createConstraints

/-! ## Writing -/

def createCrawlQuery : String :=
  "CREATE (c:Crawl \x7b
        crawl_id: randomUUID(),
        base_url: $base_url,
        domain: $domain,
        created_at: datetime(),
        status: 'in_progress'
      \x7d)
      RETURN c.crawl_id as crawl_id"

def createCrawl (baseUrl domain : Json) : Run Json := do
  let record ← Run.querySingle createCrawlQuery [("base_url", baseUrl), ("domain", domain)]
  Run.lift (record.member "crawl_id")

/-- A page to be stored.  `content` is what was read off it, if anything. -/
structure NewPage where
  crawl : Json
  url : Json
  title : Json
  depth : Json
  screenshot : Json
  content : Json
  embedding : Json

def contentLimit : Nat := 10000

structure Content where
  description : Json
  text : Json
  length : Json
  links : Json
  images : Json
  headers : String

def Content.ofJson (value : Json) : Except Fault Content :=
  if value.isTruthy then do
    return { description := ← value.getD "meta_description" (.str "")
             text := ← (← value.getD "content_text" (.str "")).front contentLimit
             length := ← value.getD "content_length" (.int 0)
             links := ← value.getD "link_count" (.int 0)
             images := ← value.getD "image_count" (.int 0)
             headers := (← value.getD "headers" .emptyObj).write .line }
  else
    .ok { description := .str "", text := .str "", length := .int 0, links := .int 0,
          images := .int 0, headers := Json.emptyObj.write .line }

def addPageQuery : String :=
  "MATCH (c:Crawl \x7bcrawl_id: $crawl_id\x7d)
      CREATE (p:Page \x7b
        page_id: randomUUID(),
        crawl_id: $crawl_id,
        url: $url,
        title: $title,
        depth: $depth,
        screenshot_path: $screenshot_path,
        meta_description: $meta_description,
        content_text: $content_text,
        content_length: $content_length,
        link_count: $link_count,
        image_count: $image_count,
        headers: $headers_json,
        embedding: $embedding,
        created_at: datetime()
      \x7d)
      CREATE (c)-[:HAS_PAGE]->(p)
      RETURN p.page_id as page_id"

def NewPage.params (page : NewPage) (content : Content) : List (String × Json) :=
  [("crawl_id", page.crawl), ("url", page.url), ("title", page.title), ("depth", page.depth),
    ("screenshot_path", page.screenshot), ("meta_description", content.description),
    ("content_text", content.text), ("content_length", content.length),
    ("link_count", content.links), ("image_count", content.images),
    ("headers_json", .str content.headers),
    ("embedding", if page.embedding.isTruthy then page.embedding else .arr [])]

def addPage (page : NewPage) : Run Json := do
  let content ← Run.lift (Content.ofJson page.content)
  let record ← Run.querySingle addPageQuery (page.params content)
  Run.lift (record.member "page_id")

structure NewElement where
  page : Json
  selector : Json
  strategy : Json
  kind : Json
  text : Json
  attributes : Json

def addElementQuery : String :=
  "MATCH (p:Page \x7bpage_id: $page_id\x7d)
      CREATE (e:Element \x7b
        element_id: randomUUID(),
        selector: $selector,
        selector_strategy: $selector_strategy,
        element_type: $element_type,
        text: $text,
        attributes: $attributes
      \x7d)
      CREATE (p)-[:HAS_ELEMENT]->(e)
      RETURN e.element_id as element_id"

def addElement (element : NewElement) : Run Json := do
  let attributes := if element.attributes.isTruthy then element.attributes else .emptyObj
  let record ← Run.querySingle addElementQuery
    [("page_id", element.page), ("selector", element.selector),
      ("selector_strategy", element.strategy), ("element_type", element.kind),
      ("text", element.text), ("attributes", .str (attributes.write .line))]
  Run.lift (record.member "element_id")

def addActionQuery : String :=
  "MATCH (e:Element \x7belement_id: $element_id\x7d)
      CREATE (a:Action \x7b
        action_id: randomUUID(),
        action_type: $action_type,
        target_url: $target_url,
        value: $value
      \x7d)
      CREATE (e)-[:CAN_PERFORM]->(a)"

def addAction (element action target value : Json) : Run Unit :=
  discard <| Run.query addActionQuery
    [("element_id", element), ("action_type", action), ("target_url", target), ("value", value)]

def linkPagesQuery : String :=
  "MATCH (from:Page \x7bpage_id: $from_page_id\x7d)
      MATCH (to:Page \x7bpage_id: $to_page_id\x7d)
      MERGE (from)-[l:LINKS_TO]->(to)
      ON CREATE SET l.link_text = $link_text, l.created_at = datetime()"

def linkPages (source target text : Json) : Run Unit :=
  discard <| Run.query linkPagesQuery
    [("from_page_id", source), ("to_page_id", target), ("link_text", text)]

def markCompleteQuery : String :=
  "MATCH (c:Crawl \x7bcrawl_id: $crawl_id\x7d)
      SET c.status = 'completed', c.completed_at = datetime()"

def markComplete (crawl : Json) : Run Unit :=
  discard (Run.query markCompleteQuery [("crawl_id", crawl)])

/-! ## Reading -/

def asObject (record : Json) : Except Fault Json := do return .ofTable (← record.table)

/-- The figures of a crawl; an empty object if there is no such crawl. -/
def summary (crawl : Json) : Run Json := do
  let record ← Run.querySingle
    "MATCH (c:Crawl \x7bcrawl_id: $crawl_id\x7d)
      OPTIONAL MATCH (c)-[:HAS_PAGE]->(p:Page)
      OPTIONAL MATCH (p)-[:HAS_ELEMENT]->(e:Element)
      OPTIONAL MATCH (p)-[:LINKS_TO]->(linked:Page)
      RETURN
        c.base_url as base_url,
        c.domain as domain,
        c.status as status,
        count(DISTINCT p) as page_count,
        count(DISTINCT e) as element_count,
        count(DISTINCT linked) as link_count"
    [("crawl_id", crawl)]
  if record.isTruthy then Run.lift (asObject record) else return .emptyObj

def pages (crawl : Json) : Run (List Json) := do
  let records ← Run.query
    "MATCH (c:Crawl \x7bcrawl_id: $crawl_id\x7d)-[:HAS_PAGE]->(p:Page)
      RETURN p.page_id as page_id, p.url as url, p.title as title,
        p.depth as depth, p.screenshot_path as screenshot_path
      ORDER BY p.depth, p.url"
    [("crawl_id", crawl)]
  Run.lift (records.mapM asObject)

/-- The pages on a shortest way from one page to another; empty if there is no way. -/
def shortestPath (crawl start finish : Json) : Run Json := do
  let record ← Run.querySingle
    "MATCH (start:Page \x7bcrawl_id: $crawl_id, url: $start_url\x7d)
      MATCH (end:Page \x7bcrawl_id: $crawl_id, url: $end_url\x7d)
      MATCH path = shortestPath((start)-[:LINKS_TO*]->(end))
      RETURN [node in nodes(path) | \x7b
        page_id: node.page_id,
        url: node.url,
        title: node.title
      \x7d] as pages"
    [("crawl_id", crawl), ("start_url", start), ("end_url", finish)]
  if record.isTruthy then Run.lift (record.member "pages") else pure (.arr [])

def edgesWithTarget : List Json → Except Fault (List Json)
  | [] => .ok []
  | edge :: edges => do
    let target ← edge.member "to_url"
    let others ← edgesWithTarget edges
    return if target.isTruthy then edge :: others else others

def drawing (crawl : Json) : Run (Json × List Json) := do
  let record ← Run.querySingle
    "MATCH (c:Crawl \x7bcrawl_id: $crawl_id\x7d)-[:HAS_PAGE]->(p:Page)
      OPTIONAL MATCH (p)-[l:LINKS_TO]->(target:Page)
      RETURN
        collect(DISTINCT \x7b
          id: p.page_id,
          label: p.title,
          url: p.url,
          depth: p.depth
        \x7d) as nodes,
        collect(DISTINCT \x7b
          from_url: p.url,
          to_url: target.url,
          label: l.link_text
        \x7d) as edges"
    [("crawl_id", crawl)]
  if record.isTruthy then
    let nodes ← Run.lift (record.member "nodes")
    let edges ← Run.lift (do edgesWithTarget (← (← record.member "edges").elements))
    return (nodes, edges)
  else return (.arr [], [])

def crawls : Run (List Json) := do
  let records ← Run.query
    "MATCH (c:Crawl)
      OPTIONAL MATCH (c)-[:HAS_PAGE]->(p:Page)
      RETURN
        c.crawl_id as crawl_id,
        c.base_url as base_url,
        c.domain as domain,
        c.status as status,
        c.created_at as created_at,
        count(p) as page_count
      ORDER BY c.created_at DESC"
    []
  Run.lift (records.mapM asObject)

end Sitecheck.Graph
