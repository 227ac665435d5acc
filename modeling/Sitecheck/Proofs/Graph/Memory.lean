import Sitecheck.Graph.Export
import Sitecheck.Proofs.Run

/-!
# A store that keeps what is written

What a store holds is what was written to it, in the order in which it was
written (`Keeper.memory`).  A store is faithful to that memory (`Faithful`) if a
write is answered with the name of the new node, and if a question about pages is
answered with all of their elements and actions, in whatever order.
-/

namespace Sitecheck.Graph

variable {text : String}

/-! ## Queries that write -/

inductive Write where
  | crawl
  | page
  | element
  | action
  deriving DecidableEq

namespace Write

def query : Write → String
  | crawl => createCrawlQuery
  | page => addPageQuery
  | element => addElementQuery
  | action => addActionQuery

def ofText? (text : String) : Option Write :=
  [crawl, page, element, action].find? fun write => Text.collapse write.query = text

/-- The character at the first place where no two queries agree. -/
def mark : Write → Char
  | crawl => '('
  | page => 'C'
  | element => 'A'
  | action => '_'

end Write

theorem mark_of_toList {chars : List Char} {mark : Char} (htext : text.toList = chars)
    (h : (Chars.join [' '] (Text.Words.ofChars [] chars))[38]? = some mark) :
    (Text.collapse text).toList[38]? = some mark := by
  rw [Text.toList_collapse, htext, h]

set_option maxRecDepth 10000 in
theorem Write.mark_query (write : Write) :
    (Text.collapse write.query).toList[38]? = some write.mark := by
  cases write with
  | crawl | page | element | action => exact mark_of_toList String.toList_ofList (by decide +kernel)

set_option maxRecDepth 10000 in
theorem mark_crawlQuery : (Text.collapse crawlQuery).toList[38]? = some 'R' :=
  mark_of_toList String.toList_ofList (by decide +kernel)

set_option maxRecDepth 10000 in
theorem mark_rowsQuery : (Text.collapse rowsQuery).toList[38]? = some 'e' :=
  mark_of_toList String.toList_ofList (by decide +kernel)

theorem Write.ofText?_query (write : Write) : ofText? (Text.collapse write.query) = some write := by
  have hinjective : ∀ other, Text.collapse other.query = Text.collapse write.query ↔ other = write := by
    intro other
    constructor
    · intro heq
      have hmark := other.mark_query
      rw [heq, write.mark_query] at hmark
      revert hmark
      cases write <;> cases other <;> decide
    · rintro rfl
      rfl
  simp only [ofText?, hinjective]
  cases write <;> rfl

theorem Write.ofText?_of_mark {mark : Char} (h : (Text.collapse text).toList[38]? = some mark)
    (hmark : ∀ write, Write.mark write ≠ mark) : ofText? (Text.collapse text) = none := by
  rw [ofText?, List.find?_eq_none]
  intro write _ heq
  have hwrite := write.mark_query
  rw [of_decide_eq_true heq, h] at hwrite
  exact hmark write (Option.some.inj hwrite).symm

theorem ofText?_crawlQuery : Write.ofText? (Text.collapse crawlQuery) = none :=
  Write.ofText?_of_mark mark_crawlQuery (by rintro (_ | _) <;> decide)

theorem ofText?_rowsQuery : Write.ofText? (Text.collapse rowsQuery) = none :=
  Write.ofText?_of_mark mark_rowsQuery (by rintro (_ | _) <;> decide)

/-! ## What is kept -/

structure CrawlNode where
  id : String
  base : Json
  domain : Json

structure PageNode where
  id : String
  crawl : String
  url : Json
  title : Json
  screenshot : Json

structure ElementNode where
  id : String
  page : String
  selector : Json
  strategy : Json
  kind : Json
  text : Json
  attributes : Json

structure ActionNode where
  element : String
  kind : Json
  target : Json
  value : Json

/-- Nodes in the order in which they were made. -/
structure Memory where
  crawls : List CrawlNode
  pages : List PageNode
  elements : List ElementNode
  actions : List ActionNode

def told (name : String) (params : List (String × Json)) : Json :=
  (Fields.get? name params).getD .null

namespace Memory

variable {name id : String} {params : List (String × Json)} {ids : List String}

def owner? (name : String) (params : List (String × Json)) (ids : List String) : Option String :=
  match told name params with
  | .str id => if id ∈ ids then some id else none
  | _ => none

def crawlOf? (memory : Memory) (params : List (String × Json)) : Option String :=
  owner? "crawl_id" params (memory.crawls.map CrawlNode.id)

def pageOf? (memory : Memory) (params : List (String × Json)) : Option String :=
  owner? "page_id" params (memory.pages.map PageNode.id)

def elementOf? (memory : Memory) (params : List (String × Json)) : Option String :=
  owner? "element_id" params (memory.elements.map ElementNode.id)

theorem owner?_of_told {found : String} (htold : told name params = .str id)
    (h : owner? name params ids = some found) : found = id := by
  rw [owner?, htold] at h
  dsimp only at h
  split at h
  · exact (Option.some.inj h).symm
  · cases h

theorem owner?_of_mem (htold : told name params = .str id) (hmem : id ∈ ids) :
    owner? name params ids = some id := by
  rw [owner?, htold]
  exact if_pos hmem

def add (memory : Memory) (id : String) (params : List (String × Json)) : Write → Memory
  | .crawl => { memory with crawls := memory.crawls ++ [⟨id, told "base_url" params, told "domain" params⟩] }
  | .page =>
    match memory.crawlOf? params with
    | some crawl => { memory with pages := memory.pages ++
        [⟨id, crawl, told "url" params, told "title" params, told "screenshot_path" params⟩] }
    | none => memory
  | .element =>
    match memory.pageOf? params with
    | some page => { memory with elements := memory.elements ++
        [⟨id, page, told "selector" params, told "selector_strategy" params, told "element_type" params,
          told "text" params, told "attributes" params⟩] }
    | none => memory
  | .action =>
    match memory.elementOf? params with
    | some element => { memory with actions := memory.actions ++
        [⟨element, told "action_type" params, told "target_url" params, told "value" params⟩] }
    | none => memory

def reply (memory : Memory) (id : String) (params : List (String × Json)) : Write → List Json
  | .crawl => [.obj [("crawl_id", .str id)]]
  | .page => if (memory.crawlOf? params).isSome then [.obj [("page_id", .str id)]] else []
  | .element => if (memory.pageOf? params).isSome then [.obj [("element_id", .str id)]] else []
  | .action => []

/-! ## Questions -/

def orNothing {α : Type} : List α → List (Option α)
  | [] => [none]
  | items => items.map some

def record (page : PageNode) (element : Option ElementNode) (action : Option ActionNode) : Json :=
  .obj [("page_id", .str page.id), ("url", page.url), ("title", page.title),
    ("screenshot_path", page.screenshot), ("element_id", .ofOption (element.map ElementNode.id)),
    ("selector", (element.map ElementNode.selector).getD .null),
    ("selector_strategy", (element.map ElementNode.strategy).getD .null),
    ("element_type", (element.map ElementNode.kind).getD .null),
    ("text", (element.map ElementNode.text).getD .null),
    ("attributes", (element.map ElementNode.attributes).getD .null),
    ("action_type", (action.map ActionNode.kind).getD .null),
    ("target_url", (action.map ActionNode.target).getD .null),
    ("value", (action.map ActionNode.value).getD .null)]

def elementsOf (memory : Memory) (page : String) : List ElementNode :=
  memory.elements.filter fun element => element.page = page

def actionsOf (memory : Memory) (element : String) : List ActionNode :=
  memory.actions.filter fun action => action.element = element

/-- The records of a page: the left join with its elements and their actions. -/
def recordsOf (memory : Memory) (page : PageNode) : List Json :=
  (orNothing (memory.elementsOf page.id)).flatMap fun element =>
    (orNothing (element.elim [] fun element => memory.actionsOf element.id)).map (record page element)

def isListed (ids : Json) (id : String) : Bool :=
  match ids with
  | .arr items => items.any fun item => Json.sameKey item (.str id)
  | _ => false

def records (memory : Memory) (params : List (String × Json)) : List Json :=
  (memory.pages.filter fun page =>
    isListed (told "page_ids" params) page.id && Json.sameKey (told "crawl_id" params) (.str page.crawl)).flatMap
      memory.recordsOf

def crawlRecords (memory : Memory) (params : List (String × Json)) : List Json :=
  (memory.crawls.filter fun crawl => Json.sameKey (told "crawl_id" params) (.str crawl.id)).map fun crawl =>
    .obj [("base_url", crawl.base), ("domain", crawl.domain)]

end Memory

/-! ## Faithful stores -/

def written? : Event → Option (Write × List (String × Json))
  | .query text params => (Write.ofText? text).map fun write => (write, params)
  | _ => none

structure Keeper where
  name : Nat → String
  refuses : List Event → Bool
  injective : Function.Injective name
  nonempty : ∀ n, name n ≠ ""

namespace Keeper

variable {event : Event} {log : List Event}

/-- What is kept of all that was asked, newest first. -/
def memory (keeper : Keeper) : List Event → Memory
  | [] => ⟨[], [], [], []⟩
  | event :: log =>
    match written? event with
    | some (write, params) =>
      if keeper.refuses (event :: log) then keeper.memory log
      else (keeper.memory log).add (keeper.name log.length) params write
    | none => keeper.memory log

variable {keeper : Keeper}

theorem memory_of_written? (h : written? event = none) :
    keeper.memory (event :: log) = keeper.memory log := by
  simp [memory, h]

theorem memory_of_write {write : Write} {params : List (String × Json)}
    (h : written? event = some (write, params)) (hrefuses : keeper.refuses (event :: log) = false) :
    keeper.memory (event :: log) = (keeper.memory log).add (keeper.name log.length) params write := by
  simp [memory, h, hrefuses]

theorem memory_append {new : List Event} (h : ∀ event ∈ new, written? event = none) :
    keeper.memory (new ++ log) = keeper.memory log := by
  induction new with
  | nil => rfl
  | cons event new ih =>
    rw [List.cons_append, memory_of_written? (h event (by simp))]
    exact ih fun event hevent => h event (by simp [hevent])

end Keeper

/-- A store whose answers tell what it keeps. -/
structure Faithful (keeper : Keeper) (answers : Answers) : Prop where
  replies : answers.replies = []
  refused : ∀ log write params,
    keeper.refuses (.query (Text.collapse (Write.query write)) params :: log) = true →
    ∃ fault, answers.otherwise? (.query (Text.collapse write.query) params :: log) =
      some (.error fault)
  replied : ∀ log write params,
    keeper.refuses (.query (Text.collapse (Write.query write)) params :: log) = false →
    answers.otherwise? (.query (Text.collapse write.query) params :: log) =
      some (.ok ((keeper.memory log).reply (keeper.name log.length) params write))
  crawls : ∀ log params, answers.otherwise? (.query (Text.collapse crawlQuery) params :: log) =
    some (.ok ((keeper.memory log).crawlRecords params))
  records : ∀ log params, ∃ found,
    answers.otherwise? (.query (Text.collapse rowsQuery) params :: log) = some (.ok found) ∧
      found.Perm ((keeper.memory log).records params)

theorem query_of_otherwise? {params : List (String × Json)} {s : Surroundings}
    {answer : Except Fault (List Json)} (hreplies : s.store.answers.replies = [])
    (h : s.store.answers.otherwise? (.query (Text.collapse text) params :: s.log) = some answer) :
    Run.query text params s =
      (answer, { s with log := .query (Text.collapse text) params :: s.log }) := by
  unfold Run.query
  rw [Run.bind_of_ok (Run.record_apply _ s), Run.bind_of_ok (Run.get_apply _)]
  rw [hreplies, h]
  rfl

namespace Faithful

variable {params : List (String × Json)} {first id : Json} {crawl page : String}

variable {keeper : Keeper} {s t : Surroundings}

theorem query_accepted (hfaithful : Faithful keeper s.store.answers) (write : Write)
    (h : keeper.refuses (.query (Text.collapse write.query) params :: s.log) = false) :
    Run.query write.query params s =
      (.ok ((keeper.memory s.log).reply (keeper.name s.log.length) params write),
        { s with log := .query (Text.collapse write.query) params :: s.log }) :=
  query_of_otherwise? hfaithful.replies (hfaithful.replied _ _ _ h)

theorem query_write (hfaithful : Faithful keeper s.store.answers) (write : Write)
    {found : List Json} (h : Run.query write.query params s = (.ok found, t)) :
    t = { s with log := .query (Text.collapse write.query) params :: s.log } ∧
      found = (keeper.memory s.log).reply (keeper.name s.log.length) params write ∧
      keeper.memory t.log = (keeper.memory s.log).add (keeper.name s.log.length) params write := by
  cases hrefuses : keeper.refuses (.query (Text.collapse write.query) params :: s.log) with
  | true =>
    obtain ⟨fault, hfault⟩ := hfaithful.refused _ _ _ hrefuses
    rw [query_of_otherwise? hfaithful.replies hfault] at h
    cases h
  | false =>
    rw [hfaithful.query_accepted write hrefuses] at h
    obtain ⟨hfound, rfl⟩ := Prod.mk.inj h
    refine ⟨rfl, (Except.ok.inj hfound).symm, ?_⟩
    exact Keeper.memory_of_write (by rw [written?, write.ofText?_query]; rfl) hrefuses

theorem querySingle_write (hfaithful : Faithful keeper s.store.answers) (write : Write)
    (h : Run.querySingle write.query params s = (.ok first, t)) :
    (∃ event, t = { s with log := event :: s.log }) ∧
      first = ((keeper.memory s.log).reply (keeper.name s.log.length) params write).headD .null ∧
      keeper.memory t.log = (keeper.memory s.log).add (keeper.name s.log.length) params write := by
  obtain ⟨found, u, hquery, h⟩ := Run.exists_of_bind_ok h
  obtain ⟨hu, rfl, hmemory⟩ := hfaithful.query_write write hquery
  obtain ⟨hfirst, rfl⟩ := Prod.mk.inj h
  exact ⟨⟨_, hu⟩, (Except.ok.inj hfirst).symm, hmemory⟩

/-! ## Writes that succeed -/

theorem createCrawl_ok (hfaithful : Faithful keeper s.store.answers) {base domain crawl : Json}
    (h : createCrawl base domain s = (.ok crawl, t)) :
    (∃ event, t = { s with log := event :: s.log }) ∧ crawl = .str (keeper.name s.log.length) ∧
      keeper.memory t.log = { keeper.memory s.log with
        crawls := (keeper.memory s.log).crawls ++ [⟨keeper.name s.log.length, base, domain⟩] } := by
  obtain ⟨record, u, hquery, h⟩ := Run.exists_of_bind_ok h
  obtain ⟨hevent, rfl, hmemory⟩ := hfaithful.querySingle_write .crawl hquery
  obtain ⟨hcrawl, rfl⟩ := Prod.mk.inj h
  exact ⟨hevent, (Except.ok.inj hcrawl).symm, hmemory⟩

theorem addPage_ok (hfaithful : Faithful keeper s.store.answers) {page : NewPage}
    (hcrawl : page.crawl = .str crawl) (h : addPage page s = (.ok id, t)) :
    (∃ event, t = { s with log := event :: s.log }) ∧ id = .str (keeper.name s.log.length) ∧
      keeper.memory t.log = { keeper.memory s.log with
        pages := (keeper.memory s.log).pages ++
          [⟨keeper.name s.log.length, crawl, page.url, page.title, page.screenshot⟩] } := by
  obtain ⟨content, -, h⟩ := Run.exists_of_lift_ok h
  obtain ⟨record, u, hquery, h⟩ := Run.exists_of_bind_ok h
  obtain ⟨hevent, rfl, hmemory⟩ := hfaithful.querySingle_write .page hquery
  obtain ⟨hid, rfl⟩ := Prod.mk.inj h
  have htold : told "crawl_id" (page.params content) = .str crawl := hcrawl
  cases hfound : (keeper.memory s.log).crawlOf? (page.params content) with
  | none =>
    rw [Memory.reply, hfound] at hid
    cases hid
  | some =>
    rw [Memory.reply, hfound] at hid
    rw [Memory.add, hfound, Memory.owner?_of_told htold hfound] at hmemory
    exact ⟨hevent, (Except.ok.inj hid).symm, hmemory⟩

theorem addElement_ok (hfaithful : Faithful keeper s.store.answers) {element : NewElement}
    (hpage : element.page = .str page) (h : addElement element s = (.ok id, t)) :
    (∃ event, t = { s with log := event :: s.log }) ∧ id = .str (keeper.name s.log.length) ∧
      keeper.memory t.log = { keeper.memory s.log with
        elements := (keeper.memory s.log).elements ++
          [⟨keeper.name s.log.length, page, element.selector, element.strategy, element.kind,
            element.text, .str ((if element.attributes.isTruthy then element.attributes
              else .emptyObj).write .line)⟩] } := by
  obtain ⟨record, u, hquery, h⟩ := Run.exists_of_bind_ok h
  obtain ⟨hevent, rfl, hmemory⟩ := hfaithful.querySingle_write .element hquery
  obtain ⟨hid, rfl⟩ := Prod.mk.inj h
  generalize hparams : [("page_id", element.page), _, _, _, _, _] = params at hid hmemory
  have htold : told "page_id" params = .str page := by
    rw [← hparams]
    exact hpage
  cases hfound : (keeper.memory s.log).pageOf? params with
  | none =>
    rw [Memory.reply, hfound] at hid
    cases hid
  | some =>
    rw [Memory.reply, hfound] at hid
    rw [Memory.add, hfound, Memory.owner?_of_told htold hfound, ← hparams] at hmemory
    exact ⟨hevent, (Except.ok.inj hid).symm, hmemory⟩

theorem addAction_ok (hfaithful : Faithful keeper s.store.answers) {element : String}
    {action target value : Json} {a : Unit}
    (helement : element ∈ (keeper.memory s.log).elements.map ElementNode.id)
    (h : addAction (.str element) action target value s = (.ok a, t)) :
    (∃ event, t = { s with log := event :: s.log }) ∧
      keeper.memory t.log = { keeper.memory s.log with
        actions := (keeper.memory s.log).actions ++ [⟨element, action, target, value⟩] } := by
  obtain ⟨found, u, hquery, h⟩ := Run.exists_of_bind_ok h
  obtain ⟨hevent, -, hmemory⟩ := hfaithful.query_write .action hquery
  obtain ⟨-, rfl⟩ := Prod.mk.inj h
  refine ⟨⟨_, hevent⟩, ?_⟩
  generalize hparams : [("element_id", Json.str element), _, _, _] = params at hmemory
  have hfound : (keeper.memory s.log).elementOf? params = some element := by
    rw [← hparams]
    exact Memory.owner?_of_mem rfl helement
  rw [Memory.add, hfound, ← hparams] at hmemory
  exact hmemory

/-! ## Writes that are accepted -/

theorem querySingle_accepted (hfaithful : Faithful keeper s.store.answers) (write : Write)
    (h : keeper.refuses (.query (Text.collapse write.query) params :: s.log) = false)
    (hreply : (keeper.memory s.log).reply (keeper.name s.log.length) params write = [first]) :
    Run.querySingle write.query params s =
      (.ok first, { s with log := .query (Text.collapse write.query) params :: s.log }) := by
  rw [Run.querySingle, Run.bind_of_ok (hfaithful.query_accepted write h), hreply]
  rfl

variable (hfaithful : Faithful keeper s.store.answers) (hfree : ∀ log, keeper.refuses log = false)

include hfaithful hfree

theorem exists_createCrawl (base domain : Json) :
    ∃ event, createCrawl base domain s =
      (.ok (.str (keeper.name s.log.length)), { s with log := event :: s.log }) := by
  have hquery := hfaithful.querySingle_accepted .crawl (hfree _)
    (show Memory.reply _ _ [("base_url", base), ("domain", domain)] _ = _ from rfl)
  exact ⟨_, Run.bind_of_ok hquery⟩

theorem exists_addPage (page : NewPage) {content : Content} (hpage : page.crawl = .str crawl)
    (hcontent : Content.ofJson page.content = .ok content)
    (hcrawl : crawl ∈ (keeper.memory s.log).crawls.map CrawlNode.id) :
    ∃ event, addPage page s =
      (.ok (.str (keeper.name s.log.length)), { s with log := event :: s.log }) := by
  have htold : told "crawl_id" (page.params content) = .str crawl := hpage
  have hreply : (keeper.memory s.log).reply (keeper.name s.log.length) (page.params content) .page =
      [.obj [("page_id", .str (keeper.name s.log.length))]] := by
    rw [Memory.reply, Memory.crawlOf?, Memory.owner?_of_mem htold hcrawl]
    rfl
  unfold addPage
  rw [hcontent]
  exact ⟨_, Run.bind_of_ok (hfaithful.querySingle_accepted .page (hfree _) hreply)⟩

theorem exists_addElement (hpage : page ∈ (keeper.memory s.log).pages.map PageNode.id)
    (selector strategy kind text attributes : Json) :
    ∃ event, addElement ⟨.str page, selector, strategy, kind, text, attributes⟩ s =
      (.ok (.str (keeper.name s.log.length)), { s with log := event :: s.log }) := by
  have hfound : ∀ params, told "page_id" params = .str page →
      (keeper.memory s.log).reply (keeper.name s.log.length) params .element =
        [.obj [("element_id", .str (keeper.name s.log.length))]] := by
    intro params htold
    rw [Memory.reply, Memory.pageOf?, Memory.owner?_of_mem htold hpage]
    rfl
  exact ⟨_, Run.bind_of_ok (hfaithful.querySingle_accepted .element (hfree _) (hfound _ rfl))⟩

theorem exists_addAction (element action target value : Json) :
    ∃ event, addAction element action target value s = (.ok (), { s with log := event :: s.log }) := by
  exact ⟨_, Run.bind_of_ok (hfaithful.query_accepted .action (hfree _))⟩

end Faithful

/-! ## A store that answers from its memory -/

theorem collapse_crawlQuery_ne : Text.collapse rowsQuery ≠ Text.collapse crawlQuery := by
  intro heq
  have hmark := mark_rowsQuery
  rw [heq, mark_crawlQuery] at hmark
  cases hmark

namespace Keeper

/-- What is answered to a query that writes this, or to a question. -/
def answer? (keeper : Keeper) (text : String) (params : List (String × Json)) (log : List Event) :
    Option Write → Option (Except Fault (List Json))
  | some write =>
    if keeper.refuses (.query text params :: log) then some (.error .malformed)
    else some (.ok ((keeper.memory log).reply (keeper.name log.length) params write))
  | none =>
    if text = Text.collapse crawlQuery then some (.ok ((keeper.memory log).crawlRecords params))
    else if text = Text.collapse rowsQuery then some (.ok ((keeper.memory log).records params))
    else none

def answers (keeper : Keeper) : Answers where
  replies := []
  otherwise?
    | .query text params :: log => keeper.answer? text params log (Write.ofText? text)
    | _ => none

theorem otherwise?_answers (keeper : Keeper) (text : String) (params : List (String × Json))
    (log : List Event) : keeper.answers.otherwise? (.query text params :: log) =
      keeper.answer? text params log (Write.ofText? text) := by
  simp only [answers]

theorem faithful (keeper : Keeper) : Faithful keeper keeper.answers := by
  constructor
  · rfl
  · intro log write params h
    exact ⟨.malformed, by rw [otherwise?_answers, write.ofText?_query, answer?, if_pos h]⟩
  · intro log write params h
    rw [otherwise?_answers, write.ofText?_query, answer?, h, if_neg Bool.false_ne_true]
  · intro log params
    rw [otherwise?_answers, ofText?_crawlQuery, answer?, if_pos rfl]
  · intro log params
    refine ⟨_, ?_, .refl _⟩
    rw [otherwise?_answers, ofText?_rowsQuery, answer?, if_neg collapse_crawlQuery_ne, if_pos rfl]

end Keeper

end Sitecheck.Graph
