import Sitecheck.Proofs.Graph.Records
import Sitecheck.Proofs.Json.RoundTrip

/-!
# What comes back from a faithful store

A crawl is begun, pages are written with their elements and the actions of these,
and a site map is made of them.  It can be made unless there is no page, an address
is none, or an action is to go back (`siteMap_of_writes`).  It then has the pages,
elements and actions that were written, but the values of the actions are lost.
-/

namespace Sitecheck.Graph

variable {element : WrittenElement} {rows : List Json}

open Json

/-! ## Elements read back -/

def WrittenElement.restored (element : WrittenElement) : Element where
  selector := element.selector
  strategy := element.strategy
  kind := element.kind
  text := element.text
  attributes := rereadFields element.attributes

def WrittenElement.interaction (element : WrittenElement) (value : WrittenAction → Option String)
    (action : WrittenAction) : Interaction where
  kind := action.kind
  element := element.restored
  value := value action
  description := action.kind.name ++ " on " ++ element.kind

theorem WrittenElement.attributes_restored (h : Whole (.obj element.attributes)) :
    element.restored.attributes = element.attributes := by
  have hreread := h.reread_eq
  exact Json.obj.inj hreread

/-- An element as it is gathered, with its actions in some order. -/
def WrittenElement.gathered (element : WrittenElement) (actions : List WrittenAction) : GatheredElement where
  selector := .str element.selector
  strategy := .str element.strategy.name
  kind := .str element.kind
  text := .ofOption element.text
  attributes := .str ((Json.obj element.attributes).write .line)
  actions := actions.map fun action => .str action.kind.name

theorem MadeElement.eq_gathered {gathered : GatheredElement} {page : PageNode}
    (hmade : MadeElement rows gathered) (hrows : rows.Perm (element.records page)) :
    ∃ actions, actions.Perm element.actions ∧ gathered = element.gathered actions := by
  have hactions : gathered.actions.Perm (element.actions.map fun action => .str action.kind.name) := by
    rw [hmade.actions, ← filter_actions page]
    exact (hrows.map _).filter _
  obtain ⟨order, horder, hperm⟩ := (congrFun (congrFun (List.eq_map_comp_perm
    fun action : WrittenAction => Json.str action.kind.name) gathered.actions) element.actions).mpr hactions
  refine ⟨order, hperm, ?_⟩
  obtain ⟨first, hfirst, hstart⟩ := hmade.first
  obtain ⟨action, -, rfl⟩ := List.mem_map.mp (hrows.mem_iff.mp (List.mem_of_mem_head? hfirst))
  cases gathered
  cases hstart
  dsimp only at horder
  rw [horder]
  rfl

theorem wordIn_strategy (strategy : Strategy) :
    wordIn "SelectorStrategy" Strategy.members (.str strategy.name) = .ok strategy := by
  cases strategy <;> rfl

theorem wordIn_action_eq_ok_iff {kind found : ActionKind} :
    wordIn "ActionType" ActionKind.members (.str kind.name) = .ok found ↔ kind ≠ .goBack ∧ kind = found := by
  cases kind with
  | goBack =>
    have hlower : Text.lower ActionKind.goBack.name = "goback" := by decide +kernel
    have hnone : Fields.get? "goback" ActionKind.members = none := rfl
    simp [wordIn, textFor, bind, Except.bind, hlower, hnone, throw, throwThe, MonadExceptOf.throw]
  | _ => exact ⟨fun h => ⟨by decide, Except.ok.inj h⟩, fun h => congrArg Except.ok h.2⟩

section Elements

variable {element : WrittenElement} (hstorable : Storable maxDepth (.obj element.attributes))

include hstorable

theorem element_gathered (actions : List WrittenAction) :
    (element.gathered actions).element = .ok element.restored := by
  rw [GatheredElement.element_eq_ok_iff]
  refine ⟨wordIn_strategy _, rfl, rfl, Schema.nullable_text _, .obj (rereadFields element.attributes), ?_, ?_⟩
  · have htruthy : (Json.str ((Json.obj element.attributes).write .line)).isTruthy = true := by
      rw [isTruthy, bne_iff_ne, write, Ne, ← String.toList_inj, String.toList_ofList]
      cases element.attributes with
      | nil | cons => simp [writeValue]
    exact (if_pos htruthy).trans (parse_write hstorable .line)
  · cases hstorable with
    | obj _ hkeys => exact Schema.table_obj hkeys

theorem interactions_gathered {actions : List WrittenAction} {interactions : List Interaction} :
    (element.gathered actions).interactions = .ok interactions ↔
      (∀ action ∈ actions, action.kind ≠ .goBack) ∧
        interactions = actions.map (element.interaction fun _ => none) := by
  rw [GatheredElement.interactions_eq_ok_iff (element_gathered hstorable actions)]
  have hone : ∀ (action : WrittenAction) (interaction : Interaction),
      (∃ kind, wordIn "ActionType" ActionKind.members (.str action.kind.name) = .ok kind ∧
        (element.gathered actions).interaction element.restored (.str action.kind.name) kind = interaction) ↔
      action.kind ≠ .goBack ∧ element.interaction (fun _ => none) action = interaction := by
    intro action interaction
    simp only [wordIn_action_eq_ok_iff, and_assoc, exists_and_left, exists_eq_left']
    rfl
  have hactions : (element.gathered actions).actions =
    actions.map fun action => .str action.kind.name := rfl
  have hmap : interactions = actions.map (element.interaction fun _ => none) ↔
      List.Forall₂ (fun action interaction => element.interaction (fun _ => none) action = interaction)
        actions interactions := by
    rw [← List.forall₂_map_left_iff, List.forall₂_eq_eq_eq, eq_comm]
  rw [hactions, List.forall₂_map_left_iff, hmap, ← List.forall₂_and_left]
  exact ⟨fun h => h.imp fun _ _ => (hone _ _).mp, fun h => h.imp fun _ _ => (hone _ _).mpr⟩

end Elements

/-! ## Pages read back -/

/-- A page as it is gathered, with its elements and their actions in some order. -/
structure WrittenPage.GathersTo (page : WrittenPage) (gathered : GatheredPage) : Prop where
  url : gathered.url = .str page.url
  title : gathered.title = .str page.title
  screenshot : gathered.screenshot = .ofOption page.screenshot
  elements : ∃ order, order.Perm page.elements ∧
    List.Forall₂ (fun element entry =>
      ∃ actions, actions.Perm element.actions ∧ entry.2 = element.gathered actions) order gathered.elements

theorem MadePage.gathersTo {gathered : GatheredPage} {crawl : String} {page : WrittenPage}
    (hmade : MadePage rows gathered) (hrows : rows.Perm (page.records crawl))
    (hids : ∀ element ∈ page.elements, element.id ≠ "")
    (hnodup : (page.elements.map WrittenElement.id).Nodup) : page.GathersTo gathered := by
  obtain ⟨first, hfirst, hstart⟩ := hmade.first
  obtain ⟨_, _, rfl⟩ := exists_of_mem_records (hrows.mem_iff.mp (List.mem_of_mem_head? hfirst))
  have helements := hrows.filter fun row => (field "element_id" row).isTruthy
  rw [filter_records hids] at helements
  have hlabel : ∀ element ∈ page.elements, ∀ row ∈ element.records (page.node crawl),
      field "element_id" row = .str element.id := by
    intro element _ row hrow
    obtain ⟨_, -, rfl⟩ := List.mem_map.mp hrow
    rfl
  obtain ⟨order, hperm, horder⟩ := hmade.elements.exists_order helements hnodup hlabel
    fun element _ => element.records_ne_nil _
  cases gathered
  cases hstart
  refine ⟨rfl, rfl, rfl, order, hperm, horder.imp ?_⟩
  rintro element entry ⟨group, hgroup, hentry⟩
  exact hentry.eq_gathered hgroup

/-- A page comes back with its address, its title and its picture, and with its elements and what
they allow in some order, each action with some value. -/
structure WrittenPage.Restored (value : WrittenAction → Option String) (written : WrittenPage)
    (page : Page) : Prop where
  url : Schema.webAddress (.str written.url) = .value page.url
  title : page.title = written.title
  screenshot : page.screenshot = written.screenshot
  elements : page.elements.Perm (written.elements.map WrittenElement.restored)
  interactions : page.interactions.Perm
    (written.elements.flatMap fun element => element.actions.map (element.interaction value))

theorem perm_flatMap_snd {α β γ : Type} {f : α → List γ} {items : List α} {parts : List (β × List γ)}
    (h : List.Forall₂ (fun item part => part.2.Perm (f item)) items parts) :
    (parts.flatMap Prod.snd).Perm (items.flatMap f) := by
  induction h with
  | nil => exact .nil
  | cons hpart _ ih => exact hpart.append ih

section Pages

variable {written : WrittenPage} {gathered : GatheredPage} (hgathers : written.GathersTo gathered)
  (hstorable : ∀ element ∈ written.elements, Storable maxDepth (.obj element.attributes))

include hgathers hstorable

theorem restored_of_page {page : Page} (h : gathered.page = .ok page) :
    written.Restored (fun _ => none) page ∧
      ∀ element ∈ written.elements, ∀ action ∈ element.actions, action.kind ≠ .goBack := by
  obtain ⟨parts, hparts, hurl, htitle, hscreenshot, helements, hinteractions, -⟩ :=
    GatheredPage.page_eq_ok_iff.mp h
  obtain ⟨order, hperm, horder⟩ := hgathers.elements
  rw [hgathers.url] at hurl
  rw [hgathers.title] at htitle
  rw [hgathers.screenshot, Schema.nullable_text] at hscreenshot
  have hrestored : List.Forall₂ (fun (element : WrittenElement) (part : Element × List Interaction) =>
      element.restored = part.1 ∧ (∀ action ∈ element.actions, action.kind ≠ .goBack) ∧
        part.2.Perm (element.actions.map (element.interaction fun _ => none))) order parts := by
    refine ((List.forall₂_and_left _ _).mpr
      ⟨fun element => hperm.mem_iff.mp, forall₂_comp horder hparts⟩).imp ?_
    rintro element ⟨_, _⟩ ⟨hmem, ⟨_, gathered⟩, ⟨actions, hactions, rfl⟩, helement, hinteractions⟩
    rw [element_gathered (hstorable element hmem)] at helement
    obtain ⟨hkinds, rfl⟩ := (interactions_gathered (hstorable element hmem)).mp hinteractions
    exact ⟨Except.ok.inj helement, fun action haction => hkinds action (hactions.mem_iff.mpr haction),
      hactions.map _⟩
  refine ⟨⟨hurl, (Schema.Outcome.value.inj htitle).symm, (Schema.Outcome.value.inj hscreenshot).symm,
    ?_, ?_⟩, ?_⟩
  · have hmap : order.map WrittenElement.restored = parts.map Prod.fst := by
      rw [← List.forall₂_eq_eq_eq, List.forall₂_map_left_iff, List.forall₂_map_right_iff]
      exact hrestored.imp fun _ _ h => h.1
    rw [helements, ← hmap]
    exact hperm.map _
  · rw [hinteractions]
    exact (perm_flatMap_snd (hrestored.imp fun _ _ h => h.2.2)).trans (hperm.flatMap_right _)
  · intro element helement
    have hleft := (List.forall₂_and_left (p := fun element : WrittenElement =>
      ∀ action ∈ element.actions, action.kind ≠ .goBack) _ _).mp
        (hrestored.imp fun _ _ h => ⟨h.2.1, h.1⟩)
    exact hleft.1 element (hperm.mem_iff.mpr helement)

theorem exists_page (hurl : ∃ address, Schema.webAddress (.str written.url) = .value address)
    (hkinds : ∀ element ∈ written.elements, ∀ action ∈ element.actions, action.kind ≠ .goBack) :
    ∃ page, gathered.page = .ok page := by
  obtain ⟨address, hurl⟩ := hurl
  obtain ⟨order, hperm, horder⟩ := hgathers.elements
  have hparts : ∃ parts, List.Forall₂ (fun (entry : Json × GatheredElement)
      (part : Element × List Interaction) =>
        entry.2.element = .ok part.1 ∧ entry.2.interactions = .ok part.2) gathered.elements parts := by
    refine exists_forall₂ fun entry hentry => ?_
    obtain ⟨element, helement, actions, hactions, heq⟩ := exists_of_mem_forall₂ horder hentry
    have hmem := hperm.mem_iff.mp helement
    refine ⟨(element.restored, actions.map (element.interaction fun _ => none)), ?_, ?_⟩
    · rw [heq, element_gathered (hstorable element hmem)]
    · rw [heq, interactions_gathered (hstorable element hmem)]
      exact ⟨fun action haction => hkinds element hmem action (hactions.mem_iff.mp haction), rfl⟩
  obtain ⟨parts, hparts⟩ := hparts
  refine ⟨⟨address, written.title, parts.map Prod.fst, parts.flatMap Prod.snd, written.screenshot, []⟩, ?_⟩
  rw [GatheredPage.page_eq_ok_iff, hgathers.url, hgathers.title, hgathers.screenshot]
  exact ⟨parts, hparts, hurl, rfl, Schema.nullable_text _, rfl, rfl, rfl⟩

end Pages

/-! ## A crawl read back -/

/-- A site map has the pages that were written in some order, each action with some value. -/
def Restored (value : WrittenAction → Option String) (written : List WrittenPage) (site : SiteMap) : Prop :=
  ∃ order, order.Perm written ∧ List.Forall₂ (WrittenPage.Restored value) order site.pages

section Crawls

variable {keeper : Keeper} {s t u : Surroundings} {base domain : Json} {crawl : String}
  {written : List WrittenPage} {ids : List String}

theorem Writes.begun (hwrites : Writes crawl t written u) (hfaithful : Faithful keeper s.store.answers)
    (hcreate : createCrawl base domain s = (.ok (.str crawl), t)) :
    u.store.answers = s.store.answers ∧ Mirrors (keeper.memory u.log) crawl written ∧
      (keeper.memory u.log).crawlRecords [("crawl_id", .str crawl)] =
        [.obj [("base_url", base), ("domain", domain)]] := by
  obtain ⟨⟨event, rfl⟩, hcrawl, hmemory⟩ := hfaithful.createCrawl_ok hcreate
  cases hcrawl
  have hnames := keeper.names_memory s.log
  have hstart : Mirrors (keeper.memory (event :: s.log)) (keeper.name s.log.length) [] := by
    have hnil := Mirrors.nil hnames
    rw [hmemory]
    exact ⟨hnil.pages, hnil.elements, hnil.actions, hnil.pageIds, hnil.elementIds⟩
  obtain ⟨hanswers, hcrawls, hmirrors⟩ := hwrites.mirrors hfaithful hstart
  refine ⟨hanswers, hmirrors, ?_⟩
  have hothers : ((keeper.memory s.log).crawls.filter fun crawl =>
      sameKey (.str (keeper.name s.log.length)) (.str crawl.id)) = [] := by
    rw [List.filter_eq_nil_iff]
    intro crawl hcrawl
    rw [sameKey_str, beq_iff_eq]
    exact (hnames.crawls crawl hcrawl).ne.symm
  have htold : told "crawl_id" [("crawl_id", Json.str (keeper.name s.log.length))] =
    .str (keeper.name s.log.length) := rfl
  rw [Memory.crawlRecords, hcrawls, hmemory, htold, List.filter_append, hothers]
  simp [sameKey_str]

theorem Faithful.exists_answers (hfaithful : Faithful keeper u.store.answers)
    (hmirrors : Mirrors (keeper.memory u.log) crawl written)
    (hbegun : (keeper.memory u.log).crawlRecords [("crawl_id", .str crawl)] =
      [.obj [("base_url", base), ("domain", domain)]])
    (hids : ∀ page ∈ written, page.id ∈ ids) :
    ∃ v w records,
      Run.querySingle crawlQuery [("crawl_id", .str crawl)] u =
        (.ok (.obj [("base_url", base), ("domain", domain)]), v) ∧
      Run.query rowsQuery [("crawl_id", .str crawl), ("page_ids", .texts ids)] v = (.ok records, w) ∧
      w.now = u.now ∧ records.Perm (written.flatMap (WrittenPage.records crawl)) := by
  have hfirst := query_of_otherwise? hfaithful.replies (hfaithful.crawls u.log [("crawl_id", .str crawl)])
  rw [hbegun] at hfirst
  have hsingle : Run.querySingle crawlQuery [("crawl_id", .str crawl)] u =
      (.ok (.obj [("base_url", base), ("domain", domain)]),
        { u with log := .query (Text.collapse crawlQuery) [("crawl_id", .str crawl)] :: u.log }) := by
    rw [Run.querySingle, Run.bind_of_ok hfirst]
    rfl
  obtain ⟨records, hrecords, hperm⟩ := hfaithful.records
    (.query (Text.collapse crawlQuery) [("crawl_id", .str crawl)] :: u.log)
    [("crawl_id", .str crawl), ("page_ids", .texts ids)]
  rw [Keeper.memory_of_written? (by rw [written?, ofText?_crawlQuery]; rfl), hmirrors.records hids] at hperm
  have hquery := query_of_otherwise?
    (s := { u with log := .query (Text.collapse crawlQuery) [("crawl_id", .str crawl)] :: u.log })
    hfaithful.replies hrecords
  exact ⟨_, _, records, hsingle, hquery, rfl, hperm⟩

theorem Mirrors.gathersTo {memory : Memory} {n : Nat} (hmirrors : Mirrors memory crawl written)
    (hnames : keeper.Names n memory) {records : List Json} {gathered : List (Json × GatheredPage)}
    (hrecords : records.Perm (written.flatMap (WrittenPage.records crawl)))
    (hgather : gather [] records = .ok gathered) :
    ∃ order, order.Perm written ∧
      List.Forall₂ (fun page entry => page.GathersTo entry.2) order gathered := by
  have hgrouped := Grouped.nil.gather hgather
  have hlabel : ∀ page ∈ written, ∀ row ∈ page.records crawl, field "page_id" row = .str page.id := by
    intro page _ row hrow
    obtain ⟨_, _, rfl⟩ := exists_of_mem_records hrow
    rfl
  obtain ⟨order, hperm, horder⟩ := hgrouped.exists_order hrecords hmirrors.pageIds hlabel
    fun page _ => page.records_ne_nil crawl
  refine ⟨order, hperm, ((List.forall₂_and_left _ _).mpr ⟨fun page => hperm.mem_iff.mp, horder⟩).imp ?_⟩
  rintro page entry ⟨hpage, group, hgroup, hmade⟩
  have hmem : ∀ element ∈ page.elements, element ∈ elementsIn written :=
    fun element helement => List.mem_flatMap.mpr ⟨page, hpage, helement⟩
  refine hmade.gathersTo hgroup ?_ ?_
  · intro element helement
    obtain ⟨k, -, hk⟩ := hmirrors.isNamed_element hnames (hmem element helement)
    rw [hk]
    exact keeper.nonempty k
  · have hsublist : page.elements.Sublist (elementsIn written) := by
      exact List.sublist_flatten_of_mem (List.mem_map_of_mem hpage)
    exact hmirrors.elementIds.sublist (hsublist.map _)

theorem restored_value_iff {site : SiteMap} (h : Restored (fun _ => none) written site) :
    Restored WrittenAction.value written site ↔
      ∀ element ∈ elementsIn written, ∀ action ∈ element.actions, action.value = none := by
  constructor
  · rintro ⟨order, hperm, horder⟩ element helement action haction
    obtain ⟨other, -, hother⟩ := h
    obtain ⟨page, hpage, helement⟩ := List.mem_flatMap.mp helement
    -- The interaction with the value is on some page, and no page has one with a value.
    obtain ⟨restored, hrestored, hback⟩ := exists_of_mem_forall₂ horder.flip (hperm.mem_iff.mpr hpage)
    have hmem : element.interaction WrittenAction.value action ∈ restored.interactions :=
      hback.interactions.mem_iff.mpr
        (List.mem_flatMap.mpr ⟨element, helement, List.mem_map_of_mem haction⟩)
    obtain ⟨page', -, hback'⟩ := exists_of_mem_forall₂ hother hrestored
    obtain ⟨element', -, hmem⟩ := List.mem_flatMap.mp (hback'.interactions.mem_iff.mp hmem)
    obtain ⟨action', -, heq⟩ := List.mem_map.mp hmem
    exact (congrArg Interaction.value heq).symm
  · intro hnone
    obtain ⟨order, hperm, horder⟩ := h
    refine ⟨order, hperm, ((List.forall₂_and_left _ _).mpr ⟨fun page => hperm.mem_iff.mp, horder⟩).imp ?_⟩
    rintro page restored ⟨hpage, hback⟩
    refine { hback with interactions := ?_ }
    have hsame : (page.elements.flatMap fun element =>
        element.actions.map (element.interaction WrittenAction.value)) =
          page.elements.flatMap fun element => element.actions.map (element.interaction fun _ => none) := by
      refine List.flatMap_congr fun element helement => List.map_congr_left fun action haction => ?_
      have hvalue := hnone element (List.mem_flatMap.mpr ⟨page, hpage, helement⟩) action haction
      rw [WrittenElement.interaction, hvalue, WrittenElement.interaction]
    rw [hsame]
    exact hback.interactions

theorem Writes.exists_gathered (hwrites : Writes crawl t written u)
    (hfaithful : Faithful keeper s.store.answers)
    (hcreate : createCrawl base domain s = (.ok (.str crawl), t))
    (hids : ∀ page ∈ written, page.id ∈ ids) :
    ∃ v w records gathered order,
      Run.querySingle crawlQuery [("crawl_id", .str crawl)] u =
        (.ok (.obj [("base_url", base), ("domain", domain)]), v) ∧
      Run.query rowsQuery [("crawl_id", .str crawl), ("page_ids", .texts ids)] v = (.ok records, w) ∧
      w.now = u.now ∧ gather [] records = .ok gathered ∧ order.Perm written ∧
      List.Forall₂ (fun page entry => page.GathersTo entry.2) order gathered := by
  obtain ⟨hanswers, hmirrors, hbegun⟩ := hwrites.begun hfaithful hcreate
  rw [← hanswers] at hfaithful
  obtain ⟨v, w, records, hstart, hrecords, htime, hperm⟩ := hfaithful.exists_answers hmirrors hbegun hids
  have hrows : ∀ row ∈ records, IsRecord row := by
    intro row hrow
    obtain ⟨page, -, hrow⟩ := List.mem_flatMap.mp (hperm.mem_iff.mp hrow)
    obtain ⟨element, action, rfl⟩ := exists_of_mem_records hrow
    exact ⟨_, _, _, rfl⟩
  obtain ⟨gathered, hgather⟩ := exists_gather hrows []
  obtain ⟨order, horder, hgathers⟩ := hmirrors.gathersTo (keeper.names_memory _) hperm hgather
  exact ⟨v, w, records, gathered, order, hstart, hrecords, htime, hgather, horder, hgathers⟩

section Sites

variable {order : List WrittenPage} {records : List Json} {gathered : List (Json × GatheredPage)} {now : Moment}
  (hgather : gather [] records = .ok gathered)
  (hgathers : List.Forall₂ (fun page entry => page.GathersTo entry.2) order gathered)
  (hstorable : ∀ page ∈ order, ∀ element ∈ page.elements, Storable maxDepth (.obj element.attributes))

include hgather hgathers hstorable

theorem MadeSite.restored {site : SiteMap}
    (h : MadeSite (.obj [("base_url", base), ("domain", domain)]) records now site) :
    order ≠ [] ∧ (∃ address, Schema.webAddress base = .value address) ∧
      List.Forall₂ (fun written page => written.Restored (fun _ => none) page ∧
        ∀ element ∈ written.elements, ∀ action ∈ element.actions, action.kind ≠ .goBack) order site.pages := by
  obtain ⟨gathered', hgather', hnonempty, hpages⟩ := h.pages
  cases hgather.symm.trans hgather'
  refine ⟨?_, ?_, ?_⟩
  · rintro rfl
    cases hgathers
    exact hnonempty rfl
  · obtain ⟨_, hbase, haddress⟩ := h.base
    cases hbase
    exact ⟨_, haddress⟩
  · refine ((List.forall₂_and_left _ _).mpr ⟨hstorable, forall₂_comp hgathers hpages⟩).imp ?_
    rintro written page ⟨hstorable, entry, hgathers, hpage⟩
    exact restored_of_page hgathers hstorable hpage

theorem exists_madeSite (hnonempty : order ≠ []) (hbase : ∃ address, Schema.webAddress base = .value address)
    (hurls : ∀ page ∈ order, ∃ address, Schema.webAddress (.str page.url) = .value address)
    (hkinds : ∀ page ∈ order, ∀ element ∈ page.elements, ∀ action ∈ element.actions, action.kind ≠ .goBack)
    (hnow : now.isInRange = true) :
    ∃ site, MadeSite (.obj [("base_url", base), ("domain", domain)]) records now site := by
  obtain ⟨address, haddress⟩ := hbase
  have hpages : ∃ pages, List.Forall₂ (fun (entry : Json × GatheredPage) page => entry.2.page = .ok page)
      gathered pages := by
    refine exists_forall₂ fun entry hentry => ?_
    obtain ⟨page, hpage, hgathers⟩ := exists_of_mem_forall₂ hgathers hentry
    exact exists_page hgathers (hstorable page hpage) (hurls page hpage) (hkinds page hpage)
  obtain ⟨pages, hpages⟩ := hpages
  refine ⟨⟨address, pages, now.text, pages.length⟩, rfl, ⟨base, rfl, haddress⟩,
    ⟨gathered, hgather, ?_, hpages⟩, rfl, hnow, rfl⟩
  rintro rfl
  cases hgathers
  exact hnonempty rfl

end Sites

/-- Of a crawl that was written to a faithful store, a site map can be made exactly if it has
a page, all addresses are such, and no action is to go back.  It then has what was written,
but no values. -/
theorem siteMap_of_writes (hfaithful : Faithful keeper s.store.answers)
    (hcreate : createCrawl base domain s = (.ok (.str crawl), t)) (hwrites : Writes crawl t written u)
    (hids : ∀ page ∈ written, page.id ∈ ids)
    (hstorable : ∀ element ∈ elementsIn written, Storable maxDepth (.obj element.attributes))
    (hnow : u.now.isInRange = true) :
    ((∃ site v, siteMap (.str crawl) (.texts ids) u = (.ok site, v)) ↔
      written ≠ [] ∧ (∃ address, Schema.webAddress base = .value address) ∧
      (∀ page ∈ written, ∃ address, Schema.webAddress (.str page.url) = .value address) ∧
      ∀ element ∈ elementsIn written, ∀ action ∈ element.actions, action.kind ≠ .goBack) ∧
    (∀ site v, siteMap (.str crawl) (.texts ids) u = (.ok site, v) →
      Restored (fun _ => none) written site ∧
      (Restored WrittenAction.value written site ↔
        ∀ element ∈ elementsIn written, ∀ action ∈ element.actions, action.value = none)) ∧
    ∀ element ∈ elementsIn written, Whole (.obj element.attributes) →
      element.restored.attributes = element.attributes := by
  obtain ⟨v, w, records, gathered, order, hstart, hrecords, htime, hgather, horder, hgathers⟩ :=
    hwrites.exists_gathered hfaithful hcreate hids
  have hmem : ∀ page ∈ order, ∀ element ∈ page.elements, element ∈ elementsIn written :=
    fun page hpage element helement => List.mem_flatMap.mpr ⟨page, horder.mem_iff.mp hpage, helement⟩
  have hstorable' : ∀ page ∈ order, ∀ element ∈ page.elements, Storable maxDepth (.obj element.attributes) :=
    fun page hpage element helement => hstorable element (hmem page hpage element helement)
  have hmade : ∀ site x, siteMap (.str crawl) (.texts ids) u = (.ok site, x) →
      MadeSite (.obj [("base_url", base), ("domain", domain)]) records w.now site := by
    intro site x h
    obtain ⟨_, _, _, _, hstart', hrecords', hmade⟩ := exists_of_siteMap h
    cases hstart.symm.trans hstart'
    cases hrecords.symm.trans hrecords'
    exact hmade
  refine ⟨⟨?_, ?_⟩, ?_, fun _ _ => WrittenElement.attributes_restored⟩
  · rintro ⟨site, x, h⟩
    obtain ⟨hnonempty, hbase, hback⟩ := (hmade site x h).restored hgather hgathers hstorable'
    have hpage : ∀ page ∈ written, ∃ restored, page.Restored (fun _ => none) restored ∧
        ∀ element ∈ page.elements, ∀ action ∈ element.actions, action.kind ≠ .goBack := by
      intro page hpage
      obtain ⟨restored, -, hrestored⟩ := exists_of_mem_forall₂ hback.flip (horder.mem_iff.mpr hpage)
      exact ⟨restored, hrestored⟩
    refine ⟨?_, hbase, ?_, ?_⟩
    · rintro rfl
      exact hnonempty horder.eq_nil
    · intro page hmem
      obtain ⟨restored, hrestored, -⟩ := hpage page hmem
      exact ⟨_, hrestored.url⟩
    · intro element helement
      obtain ⟨page, hmem, helement⟩ := List.mem_flatMap.mp helement
      obtain ⟨_, -, hkinds⟩ := hpage page hmem
      exact hkinds element helement
  · rintro ⟨hnonempty, hbase, hurls, hkinds⟩
    have hsite : ∃ site, MadeSite (.obj [("base_url", base), ("domain", domain)]) records w.now site :=
      exists_madeSite hgather hgathers hstorable'
        (fun hnil => hnonempty (hnil ▸ horder).nil_eq.symm) hbase
        (fun page hpage => hurls page (horder.mem_iff.mp hpage))
        (fun page hpage element helement => hkinds element (hmem page hpage element helement))
        (htime ▸ hnow)
    obtain ⟨site, hsite⟩ := hsite
    exact ⟨site, hsite.exists_siteMap hstart hrecords⟩
  · intro site x h
    obtain ⟨-, -, hback⟩ := (hmade site x h).restored hgather hgathers hstorable'
    have hrestored : Restored (fun _ => none) written site :=
      ⟨order, horder, hback.imp fun _ _ h => h.1⟩
    exact ⟨hrestored, restored_value_iff hrestored⟩

end Crawls

/-! ## Stores that refuse nothing -/

section Accepted

variable {keeper : Keeper} {s t u : Surroundings} {base domain : Json} {crawl : String}
  (hfaithful : Faithful keeper s.store.answers) (hfree : ∀ log, keeper.refuses log = false)
  (hcreate : createCrawl base domain s = (.ok (.str crawl), t))
variable {front back : List WrittenPage} {page : WrittenPage}

include hfaithful hfree hcreate

theorem Writes.exists_page {written : List WrittenPage} (hwrites : Writes crawl t written u)
    (url title : String) (screenshot : Option String) :
    ∃ id event, Writes crawl t (written ++ [⟨id, url, title, screenshot, []⟩])
      { u with log := event :: u.log } := by
  obtain ⟨hanswers, -, hbegun⟩ := hwrites.begun hfaithful hcreate
  rw [← hanswers] at hfaithful
  have hcrawl : crawl ∈ (keeper.memory u.log).crawls.map CrawlNode.id := by
    have hmem := List.mem_singleton_self (Json.obj [("base_url", base), ("domain", domain)])
    rw [← hbegun] at hmem
    obtain ⟨node, hnode, -⟩ := List.mem_map.mp hmem
    obtain ⟨hnode, hsame⟩ := List.mem_filter.mp hnode
    have htold : told "crawl_id" [("crawl_id", Json.str crawl)] = .str crawl := rfl
    rw [htold, sameKey_str, beq_iff_eq] at hsame
    exact hsame ▸ List.mem_map_of_mem hnode
  obtain ⟨event, hadd⟩ := hfaithful.exists_addPage hfree
    ⟨.str crawl, .str url, .str title, .null, .ofOption screenshot, .null, .null⟩ rfl rfl hcrawl
  exact ⟨_, event, hwrites.page hadd⟩

theorem Writes.exists_element (hwrites : Writes crawl t (front ++ page :: back) u)
    (selector kind : String) (strategy : Strategy) (text : Option String)
    (attributes : List (String × Json)) :
    ∃ id event, Writes crawl t (front ++ { page with elements :=
      page.elements ++ [⟨id, selector, strategy, kind, text, attributes, []⟩] } :: back)
        { u with log := event :: u.log } := by
  obtain ⟨hanswers, hmirrors, -⟩ := hwrites.begun hfaithful hcreate
  rw [← hanswers] at hfaithful
  have hmem : page ∈ front ++ page :: back := by simp
  have hpage := List.mem_map_of_mem (f := PageNode.id) (hmirrors.mem_pages hmem)
  obtain ⟨event, hadd⟩ := hfaithful.exists_addElement hfree hpage (.str selector)
    (.str strategy.name) (.str kind) (.ofOption text) (.obj attributes)
  exact ⟨_, event, hwrites.element hadd⟩

theorem Writes.exists_action {above below : List WrittenElement} {element : WrittenElement}
    (hwrites : Writes crawl t (front ++ { page with elements := above ++ element :: below } :: back) u)
    (kind : ActionKind) (target : Json) (value : Option String) :
    ∃ event, Writes crawl t (front ++ { page with elements := above ++ { element with actions :=
      element.actions ++ [⟨kind, target, value⟩] } :: below } :: back) { u with log := event :: u.log } := by
  obtain ⟨hanswers, -, -⟩ := hwrites.begun hfaithful hcreate
  rw [← hanswers] at hfaithful
  obtain ⟨event, hadd⟩ := hfaithful.exists_addAction hfree (.str element.id) (.str kind.name)
    target (.ofOption value)
  exact ⟨event, hwrites.action hadd⟩

end Accepted

/-! ## A field that is filled -/

def plainKeeper : Keeper where
  name n := String.ofList (List.replicate (n + 1) 'i')
  refuses _ := false
  injective m n h := by simpa using congrArg String.length h
  nonempty n h := by simp at h

def plainStore : Surroundings :=
  { Crawl.Crawler.sampleSurroundings (Web.ofTable []) with
    store := ⟨none, plainKeeper.answers, 0⟩
    now := ⟨63082281600000000, ""⟩ }

def fieldPages (page element : String) : List WrittenPage :=
  [⟨page, "http://a.co", "A", none, [⟨element, "#q", .css, "input", none,
    [("name", .str "q"), ("width", .float (.finite false 6755399441055744 (-52)))],
    [⟨.fill, .null, some "x"⟩]⟩]⟩]

theorem exists_writes_fieldPages :
    ∃ crawl page element t u,
      createCrawl (.str "http://a.co") (.str "a.co") plainStore = (.ok (.str crawl), t) ∧
      Writes crawl t (fieldPages page element) u ∧ u.now = plainStore.now := by
  have hfree : ∀ log, plainKeeper.refuses log = false := fun _ => rfl
  have hfaithful : Faithful plainKeeper plainStore.store.answers := plainKeeper.faithful
  obtain ⟨event, hcreate⟩ := hfaithful.exists_createCrawl hfree (.str "http://a.co") (.str "a.co")
  obtain ⟨page, event₁, hpage⟩ := Writes.start.exists_page hfaithful hfree hcreate "http://a.co" "A" none
  obtain ⟨element, event₂, helement⟩ := hpage.exists_element hfaithful hfree hcreate "#q" "input" .css none
    [("name", .str "q"), ("width", .float (.finite false 6755399441055744 (-52)))]
  obtain ⟨event₃, haction⟩ := helement.exists_action hfaithful hfree hcreate .fill .null (some "x")
  exact ⟨_, page, element, _, _, hcreate, haction, rfl⟩

theorem storable_fieldPages (page id : String) :
    ∀ element ∈ elementsIn (fieldPages page id), Storable maxDepth (.obj element.attributes) := by
  have hwidth : Json.IsRegular (.finite false 6755399441055744 (-52)) := by
    constructor <;> decide
  simp only [elementsIn, fieldPages, List.flatMap_cons, List.flatMap_nil, List.append_nil,
    List.forall_mem_singleton]
  refine .obj ?_ ?_
  · simp [Storable.str, Storable.float hwidth]
  · decide

theorem siteMap_of_fieldPages :
    ∃ crawl page element t u site v,
      createCrawl (.str "http://a.co") (.str "a.co") plainStore = (.ok (.str crawl), t) ∧
      Writes crawl t (fieldPages page element) u ∧
      siteMap (.str crawl) (.texts [page]) u = (.ok site, v) ∧
      Restored (fun _ => none) (fieldPages page element) site ∧
      ¬ Restored WrittenAction.value (fieldPages page element) site := by
  obtain ⟨crawl, page, element, t, u, hcreate, hwrites, hnow⟩ := exists_writes_fieldPages
  have hurl : (Schema.webAddress (.str "http://a.co")).orFault "" = .ok "http://a.co" := by
    decide +kernel
  rw [Schema.Outcome.orFault_eq_ok_iff] at hurl
  have hids : ∀ other ∈ fieldPages page element, other.id ∈ [page] := by simp [fieldPages]
  have hrange : u.now.isInRange = true := by
    rw [hnow]
    decide
  obtain ⟨hmade, hback, -⟩ := siteMap_of_writes plainKeeper.faithful hcreate hwrites
    hids (storable_fieldPages page element) hrange
  obtain ⟨site, v, hsite⟩ := hmade.mpr ⟨by simp [fieldPages], ⟨_, hurl⟩, by simp [fieldPages, hurl],
    by simp [elementsIn, fieldPages]⟩
  obtain ⟨hrestored, hvalues⟩ := hback site v hsite
  refine ⟨crawl, page, element, t, u, site, v, hcreate, hwrites, hsite, hrestored, ?_⟩
  rw [hvalues]
  simp [elementsIn, fieldPages]

end Sitecheck.Graph
