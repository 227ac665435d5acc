import Sitecheck.Proofs.Graph.Memory

/-!
# What is written to a faithful store

Pages of a crawl, their elements and the actions of these are written one by one,
each under the name that the one above it was given (`Writes`).  After every write
the store keeps exactly what was written (`Mirrors`), besides whatever it kept
before.
-/

namespace Sitecheck.Graph

/-! ## Writing -/

structure WrittenAction where
  kind : ActionKind
  target : Json
  value : Option String

structure WrittenElement where
  id : String
  selector : String
  strategy : Strategy
  kind : String
  text : Option String
  attributes : List (String × Json)
  actions : List WrittenAction

structure WrittenPage where
  id : String
  url : String
  title : String
  screenshot : Option String
  elements : List WrittenElement

/-- From the one surroundings to the other, these pages of a crawl were written, in any order
that names a page before its elements and an element before its actions. -/
inductive Writes (crawl : String) (s : Surroundings) : List WrittenPage → Surroundings → Prop where
  | start : Writes crawl s [] s
  | page {written : List WrittenPage} {t u : Surroundings} {id url title : String}
      {screenshot : Option String} {depth content embedding : Json} (before : Writes crawl s written t)
      (adds : addPage ⟨.str crawl, .str url, .str title, depth, .ofOption screenshot, content,
        embedding⟩ t = (.ok (.str id), u)) :
      Writes crawl s (written ++ [⟨id, url, title, screenshot, []⟩]) u
  | element {front back : List WrittenPage} {page : WrittenPage} {t u : Surroundings}
      {id selector kind : String} {strategy : Strategy} {text : Option String}
      {attributes : List (String × Json)} (before : Writes crawl s (front ++ page :: back) t)
      (adds : addElement ⟨.str page.id, .str selector, .str strategy.name, .str kind, .ofOption text,
        .obj attributes⟩ t = (.ok (.str id), u)) :
      Writes crawl s (front ++ { page with elements :=
        page.elements ++ [⟨id, selector, strategy, kind, text, attributes, []⟩] } :: back) u
  | action {front back : List WrittenPage} {page : WrittenPage} {above below : List WrittenElement}
      {element : WrittenElement} {t u : Surroundings} {kind : ActionKind} {target : Json}
      {value : Option String}
      (before : Writes crawl s (front ++ { page with elements := above ++ element :: below } :: back) t)
      (adds : addAction (.str element.id) (.str kind.name) target (.ofOption value) t = (.ok (), u)) :
      Writes crawl s (front ++ { page with elements := above ++ { element with actions :=
        element.actions ++ [⟨kind, target, value⟩] } :: below } :: back) u
  | aside {written : List WrittenPage} {t u : Surroundings} {new : List Event}
      (before : Writes crawl s written t) (answers : u.store.answers = t.store.answers)
      (log : u.log = new ++ t.log) (asides : ∀ event ∈ new, written? event = none) :
      Writes crawl s written u

/-! ## Names -/

def Keeper.IsNamed (keeper : Keeper) (n : Nat) (id : String) : Prop := ∃ k < n, id = keeper.name k

/-- Everything kept has one of the first names, and so has what it belongs to. -/
structure Keeper.Names (keeper : Keeper) (n : Nat) (memory : Memory) : Prop where
  crawls : ∀ crawl ∈ memory.crawls, keeper.IsNamed n crawl.id
  pages : ∀ page ∈ memory.pages, keeper.IsNamed n page.id ∧ keeper.IsNamed n page.crawl
  elements : ∀ element ∈ memory.elements, keeper.IsNamed n element.id ∧ keeper.IsNamed n element.page
  actions : ∀ action ∈ memory.actions, keeper.IsNamed n action.element

namespace Keeper

variable {keeper : Keeper} {n : Nat} {memory : Memory}
variable {id : String}

theorem IsNamed.succ (h : keeper.IsNamed n id) : keeper.IsNamed (n + 1) id := by
  obtain ⟨k, hk, hid⟩ := h
  exact ⟨k, by omega, hid⟩

theorem isNamed_name (n : Nat) : keeper.IsNamed (n + 1) (keeper.name n) := ⟨n, by omega, rfl⟩

theorem IsNamed.ne (h : keeper.IsNamed n id) : id ≠ keeper.name n := by
  obtain ⟨k, hk, rfl⟩ := h
  intro heq
  have hsame := keeper.injective heq
  omega

theorem Names.succ (h : keeper.Names n memory) : keeper.Names (n + 1) memory where
  crawls crawl hcrawl := (h.crawls crawl hcrawl).succ
  pages page hpage := ⟨(h.pages page hpage).1.succ, (h.pages page hpage).2.succ⟩
  elements element helement := ⟨(h.elements element helement).1.succ, (h.elements element helement).2.succ⟩
  actions action haction := (h.actions action haction).succ

theorem mem_of_owner? {name : String} {params : List (String × Json)} {ids : List String}
    (h : Memory.owner? name params ids = some id) : id ∈ ids := by
  unfold Memory.owner? at h
  split at h
  · split at h
    · next hmem =>
      cases h
      exact hmem
    · cases h
  · cases h

theorem Names.add (h : keeper.Names n memory) (params : List (String × Json)) (write : Write) :
    keeper.Names (n + 1) (memory.add (keeper.name n) params write) := by
  have hnew : keeper.IsNamed (n + 1) (keeper.name n) := isNamed_name n
  have hsucc := h.succ
  cases write with
  | crawl =>
    exact { hsucc with
      crawls := List.forall_mem_append.mpr ⟨hsucc.crawls, List.forall_mem_singleton.mpr hnew⟩ }
  | page =>
    simp only [Memory.add]
    split
    · next crawl hcrawl =>
      obtain ⟨node, hnode, rfl⟩ := List.mem_map.mp (mem_of_owner? hcrawl)
      exact { hsucc with
        pages := List.forall_mem_append.mpr
          ⟨hsucc.pages, List.forall_mem_singleton.mpr ⟨hnew, hsucc.crawls node hnode⟩⟩ }
    · exact hsucc
  | element =>
    simp only [Memory.add]
    split
    · next page hpage =>
      obtain ⟨node, hnode, rfl⟩ := List.mem_map.mp (mem_of_owner? hpage)
      exact { hsucc with
        elements := List.forall_mem_append.mpr
          ⟨hsucc.elements, List.forall_mem_singleton.mpr ⟨hnew, (hsucc.pages node hnode).1⟩⟩ }
    · exact hsucc
  | action =>
    simp only [Memory.add]
    split
    · next element helement =>
      obtain ⟨node, hnode, rfl⟩ := List.mem_map.mp (mem_of_owner? helement)
      exact { hsucc with
        actions := List.forall_mem_append.mpr
          ⟨hsucc.actions, List.forall_mem_singleton.mpr (hsucc.elements node hnode).1⟩ }
    · exact hsucc

theorem names_memory (log : List Event) : keeper.Names log.length (keeper.memory log) := by
  induction log with
  | nil => constructor <;> simp [memory]
  | cons event log ih =>
    unfold memory
    split
    · split
      · exact ih.succ
      · exact ih.add _ _
    · exact ih.succ

end Keeper

/-! ## A memory of what was written -/

def WrittenAction.node (element : String) (action : WrittenAction) : ActionNode :=
  ⟨element, .str action.kind.name, action.target, .ofOption action.value⟩

def WrittenElement.node (page : String) (element : WrittenElement) : ElementNode :=
  ⟨element.id, page, .str element.selector, .str element.strategy.name, .str element.kind,
    .ofOption element.text, .str ((Json.obj element.attributes).write .line)⟩

def WrittenPage.node (crawl : String) (page : WrittenPage) : PageNode :=
  ⟨page.id, crawl, .str page.url, .str page.title, .ofOption page.screenshot⟩

theorem ne_of_nodup_middle {α : Type} {f : α → String} {front back : List α} {a : α}
    (h : ((front ++ a :: back).map f).Nodup) {other : α} (hother : other ∈ front ++ back) :
    f other ≠ f a := by
  rw [(List.perm_middle.map f).nodup_iff, List.map_cons, List.nodup_cons] at h
  intro heq
  exact h.1 (heq ▸ List.mem_map_of_mem hother)

theorem mem_middle_cases {α : Type} {front back : List α} {a b : α} (h : b ∈ front ++ a :: back) :
    b = a ∨ b ∈ front ++ back := by
  simp only [List.mem_append, List.mem_cons] at h ⊢
  tauto

def elementsIn (written : List WrittenPage) : List WrittenElement := written.flatMap WrittenPage.elements

/-- The memory keeps these pages of a crawl with their elements and actions, and no others. -/
structure Mirrors (memory : Memory) (crawl : String) (written : List WrittenPage) : Prop where
  pages : (memory.pages.filter fun page => page.crawl = crawl) = written.map (WrittenPage.node crawl)
  elements : ∀ page ∈ written,
    memory.elementsOf page.id = page.elements.map (WrittenElement.node page.id)
  actions : ∀ element ∈ elementsIn written,
    memory.actionsOf element.id = element.actions.map (WrittenAction.node element.id)
  pageIds : (written.map WrittenPage.id).Nodup
  elementIds : ((elementsIn written).map WrittenElement.id).Nodup

namespace Mirrors

variable {keeper : Keeper} {n : Nat} {memory : Memory} {crawl : String} {written : List WrittenPage}
variable {front back : List WrittenPage}

theorem mem_pages (h : Mirrors memory crawl written) {page : WrittenPage} (hpage : page ∈ written) :
    page.node crawl ∈ memory.pages := by
  have hnode : page.node crawl ∈ memory.pages.filter fun page => page.crawl = crawl := by
    rw [h.pages]
    exact List.mem_map_of_mem hpage
  exact (List.mem_filter.mp hnode).1

theorem isNamed_page (h : Mirrors memory crawl written) (hnames : keeper.Names n memory)
    {page : WrittenPage} (hpage : page ∈ written) : keeper.IsNamed n page.id :=
  (hnames.pages _ (h.mem_pages hpage)).1

theorem exists_node (h : Mirrors memory crawl written) {element : WrittenElement}
    (helement : element ∈ elementsIn written) :
    ∃ page ∈ written, element.node page.id ∈ memory.elements := by
  obtain ⟨page, hpage, hmem⟩ := List.mem_flatMap.mp helement
  have hnode : element.node page.id ∈ memory.elementsOf page.id := by
    rw [h.elements page hpage]
    exact List.mem_map_of_mem hmem
  exact ⟨page, hpage, (List.mem_filter.mp hnode).1⟩

theorem isNamed_element (h : Mirrors memory crawl written) (hnames : keeper.Names n memory)
    {element : WrittenElement} (helement : element ∈ elementsIn written) :
    keeper.IsNamed n element.id := by
  obtain ⟨page, -, hnode⟩ := h.exists_node helement
  exact (hnames.elements _ hnode).1

theorem nil (hnames : keeper.Names n memory) : Mirrors memory (keeper.name n) [] where
  pages := by
    rw [List.map_nil, List.filter_eq_nil_iff]
    intro page hpage
    simpa using (hnames.pages page hpage).2.ne
  elements := by simp
  actions := by simp [elementsIn]
  pageIds := by simp
  elementIds := by simp [elementsIn]

theorem page (h : Mirrors memory crawl written) (hnames : keeper.Names n memory)
    (url title : String) (screenshot : Option String) :
    Mirrors { memory with
        pages := memory.pages ++
          [⟨keeper.name n, crawl, .str url, .str title, .ofOption screenshot⟩] } crawl
      (written ++ [⟨keeper.name n, url, title, screenshot, []⟩]) where
  pages := by
    simp [List.filter_append, h.pages, WrittenPage.node]
  elements := by
    refine List.forall_mem_append.mpr ⟨h.elements, List.forall_mem_singleton.mpr ?_⟩
    simp only [Memory.elementsOf, List.map_nil, List.filter_eq_nil_iff]
    intro element helement
    simpa using (hnames.elements element helement).2.ne
  actions := by
    have hsame : elementsIn (written ++ [⟨keeper.name n, url, title, screenshot, []⟩]) =
        elementsIn written := by simp [elementsIn]
    rw [hsame]
    exact h.actions
  pageIds := by
    rw [List.map_append, List.nodup_append]
    refine ⟨h.pageIds, by simp, ?_⟩
    simp only [List.mem_map, List.map_cons, List.map_nil, List.mem_singleton]
    rintro _ ⟨page, hpage, rfl⟩ _ rfl
    exact (h.isNamed_page hnames hpage).ne
  elementIds := by simpa [elementsIn] using h.elementIds

theorem element {page : WrittenPage} (h : Mirrors memory crawl (front ++ page :: back))
    (hnames : keeper.Names n memory) (selector : String) (strategy : Strategy) (kind : String)
    (text : Option String) (attributes : List (String × Json)) :
    Mirrors { memory with
        elements := memory.elements ++ [⟨keeper.name n, page.id, .str selector, .str strategy.name,
          .str kind, .ofOption text, .str ((Json.obj attributes).write .line)⟩] } crawl
      (front ++ { page with elements := page.elements ++
        [⟨keeper.name n, selector, strategy, kind, text, attributes, []⟩] } :: back) := by
  have hpageIds := h.pageIds
  have hperm : (elementsIn (front ++ { page with elements := page.elements ++
      [⟨keeper.name n, selector, strategy, kind, text, attributes, []⟩] } :: back)).Perm
        (⟨keeper.name n, selector, strategy, kind, text, attributes, []⟩ ::
          elementsIn (front ++ page :: back)) := by
    simp only [elementsIn, List.flatMap_append, List.flatMap_cons, List.append_assoc,
      List.singleton_append]
    rw [← List.append_assoc, ← List.append_assoc]
    exact List.perm_middle
  constructor
  · simpa [WrittenPage.node] using h.pages
  · intro other hmem
    rcases mem_middle_cases hmem with rfl | hother
    · have helements := h.elements page (by simp)
      simp only [Memory.elementsOf] at helements ⊢
      simp [List.filter_append, helements, WrittenElement.node]
    · have hne := ne_of_nodup_middle h.pageIds hother
      have helements := h.elements other (by simp only [List.mem_append, List.mem_cons] at hother ⊢; tauto)
      simp only [Memory.elementsOf] at helements ⊢
      simp [List.filter_append, helements, hne.symm]
  · intro other hmem
    rcases List.mem_cons.mp (hperm.mem_iff.mp hmem) with rfl | hmem
    · simp only [Memory.actionsOf, List.map_nil, List.filter_eq_nil_iff]
      intro action haction
      simpa using (hnames.actions action haction).ne
    · exact h.actions other hmem
  · simpa using hpageIds
  · rw [(hperm.map WrittenElement.id).nodup_iff, List.map_cons, List.nodup_cons]
    refine ⟨?_, h.elementIds⟩
    simp only [List.mem_map, not_exists, not_and]
    intro element helement
    exact (h.isNamed_element hnames helement).ne

theorem action {page : WrittenPage} {above below : List WrittenElement} {element : WrittenElement}
    (h : Mirrors memory crawl (front ++ { page with elements := above ++ element :: below } :: back))
    (kind : ActionKind) (target : Json) (value : Option String) :
    Mirrors { memory with
        actions := memory.actions ++ [⟨element.id, .str kind.name, target, .ofOption value⟩] } crawl
      (front ++ { page with elements := above ++ { element with actions :=
        element.actions ++ [⟨kind, target, value⟩] } :: below } :: back) := by
  have hsplit : ∀ element : WrittenElement,
      elementsIn (front ++ { page with elements := above ++ element :: below } :: back) =
        (elementsIn front ++ above) ++ element :: (below ++ elementsIn back) := by
    simp [elementsIn]
  have hids := h.elementIds
  rw [hsplit] at hids
  constructor
  · simpa [WrittenPage.node] using h.pages
  · intro other hmem
    rcases mem_middle_cases hmem with rfl | hother
    · have helements := h.elements { page with elements := above ++ element :: below } (by simp)
      simpa [WrittenElement.node, Memory.elementsOf] using helements
    · refine h.elements other ?_
      simp only [List.mem_append, List.mem_cons] at hother ⊢
      tauto
  · intro other hmem
    rw [hsplit] at hmem
    rcases mem_middle_cases hmem with rfl | hother
    · have hactions := h.actions element (by rw [hsplit]; simp)
      simp only [Memory.actionsOf] at hactions ⊢
      simp [List.filter_append, hactions, WrittenAction.node]
    · have hne := ne_of_nodup_middle hids hother
      have hactions := h.actions other (by
        rw [hsplit]
        simp only [List.mem_append, List.mem_cons] at hother ⊢
        tauto)
      simp only [Memory.actionsOf] at hactions ⊢
      simp [List.filter_append, hactions, hne.symm]
  · simpa using h.pageIds
  · rw [hsplit]
    simpa using hids

end Mirrors

theorem Writes.mirrors {keeper : Keeper} {crawl : String} {s t : Surroundings}
    {written : List WrittenPage} (h : Writes crawl s written t)
    (hfaithful : Faithful keeper s.store.answers)
    (hstart : Mirrors (keeper.memory s.log) crawl []) :
    t.store.answers = s.store.answers ∧
      (keeper.memory t.log).crawls = (keeper.memory s.log).crawls ∧
      Mirrors (keeper.memory t.log) crawl written := by
  induction h with
  | start => exact ⟨rfl, rfl, hstart⟩
  | @page written t u id url title screenshot depth content embedding before adds ih =>
    obtain ⟨hanswers, hcrawls, hmirrors⟩ := ih
    rw [← hanswers] at hfaithful
    obtain ⟨⟨event, rfl⟩, hid, hmemory⟩ := hfaithful.addPage_ok rfl adds
    cases hid
    rw [hmemory]
    exact ⟨hanswers, hcrawls, hmirrors.page (keeper.names_memory _) url title screenshot⟩
  | @element front back page t u id selector kind strategy text attributes before adds ih =>
    obtain ⟨hanswers, hcrawls, hmirrors⟩ := ih
    rw [← hanswers] at hfaithful
    obtain ⟨⟨event, rfl⟩, hid, hmemory⟩ := hfaithful.addElement_ok rfl adds
    cases hid
    have hattributes : (if (Json.obj attributes).isTruthy then Json.obj attributes else .emptyObj) =
        .obj attributes := by cases attributes <;> rfl
    rw [hmemory, hattributes]
    exact ⟨hanswers, hcrawls,
      hmirrors.element (keeper.names_memory _) selector strategy kind text attributes⟩
  | @action front back page above below element t u kind target value before adds ih =>
    obtain ⟨hanswers, hcrawls, hmirrors⟩ := ih
    rw [← hanswers] at hfaithful
    have hmem : element ∈ elementsIn
        (front ++ { page with elements := above ++ element :: below } :: back) := by
      simp [elementsIn]
    obtain ⟨_, -, hnode⟩ := hmirrors.exists_node hmem
    obtain ⟨⟨event, rfl⟩, hmemory⟩ := hfaithful.addAction_ok (List.mem_map_of_mem hnode) adds
    rw [hmemory]
    exact ⟨hanswers, hcrawls, hmirrors.action kind target value⟩
  | @aside written t u new before answers log asides ih =>
    obtain ⟨hanswers, hcrawls, hmirrors⟩ := ih
    rw [log, Keeper.memory_append asides]
    exact ⟨answers.trans hanswers, hcrawls, hmirrors⟩

end Sitecheck.Graph
