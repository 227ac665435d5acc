import Mathlib.Data.List.Perm.Basic
import Sitecheck.Proofs.Graph.Grouping
import Sitecheck.Proofs.Graph.Written

/-!
# Records of what was written

A faithful store answers a question about pages with their records, in some order.
All of these can be gathered (`exists_gather`).  Whatever their order, the gathered
table has one entry for each page, made from the records of that page
(`Grouped.exists_order`), and so has the table of each page for its elements.
-/

namespace Sitecheck.Graph

variable {row : Json} {keys : List Json} {memory : Memory} {crawl : String}
  {written : List WrittenPage} {page : WrittenPage}

open Json

/-! ## Records of a memory -/

def IsRecord (row : Json) : Prop := ∃ page element action, row = Memory.record page element action

theorem exists_alter {α : Type} {key : Json} {change : Option α → Except Fault α}
    (h : ∀ known, ∃ value, change known = .ok value) (table : List (Json × α)) :
    ∃ table', alter key change table = .ok table' := by
  induction table with
  | nil =>
    obtain ⟨value, hvalue⟩ := h none
    exact ⟨[(key, value)], by simp [alter, hvalue, bind, Except.bind, pure, Except.pure]⟩
  | cons entry table ih =>
    obtain ⟨name, old⟩ := entry
    obtain ⟨value, hvalue⟩ := h (some old)
    obtain ⟨table', htable⟩ := ih
    rw [alter]
    split
    · exact ⟨(name, value) :: table, by simp [hvalue, bind, Except.bind, pure, Except.pure]⟩
    · exact ⟨(name, old) :: table', by simp [htable, bind, Except.bind, pure, Except.pure]⟩

theorem exists_gatherElement (h : IsRecord row) (known : Option GatheredElement) :
    ∃ gathered, gatherElement row known = .ok gathered := by
  obtain ⟨page, element, action, rfl⟩ := h
  cases known <;>
    simp only [gatherElement, startElement, Memory.record, Json.member, Fields.get?, List.lookup_cons,
      String.reduceBEq, bind, Except.bind, pure, Except.pure] <;>
    split <;>
    exact ⟨_, rfl⟩

theorem exists_gatherPage (h : IsRecord row) (known : Option GatheredPage) :
    ∃ gathered, gatherPage row known = .ok gathered := by
  have hchange := exists_gatherElement h
  obtain ⟨page, element, action, rfl⟩ := h
  have hkey : (Json.ofOption (element.map ElementNode.id)).checkKey = .ok () := by
    cases element <;> rfl
  have hid : (Memory.record page element action).member "element_id" =
    .ok (.ofOption (element.map ElementNode.id)) := rfl
  have hstart : ∃ start, startPage (Memory.record page element action) = .ok start := ⟨_, rfl⟩
  obtain ⟨start, hstart⟩ := hstart
  generalize Memory.record page element action = row at *
  have hrest : ∀ start : GatheredPage, ∃ gathered,
      (if (Json.ofOption (element.map ElementNode.id)).isTruthy then do
        return { start with elements :=
          (← alter (.ofOption (element.map ElementNode.id)) (gatherElement row) start.elements) }
      else return start : Except Fault GatheredPage) = .ok gathered := by
    intro start
    split
    · obtain ⟨elements, helements⟩ := exists_alter hchange start.elements
      exact ⟨_, by rw [helements]; rfl⟩
    · exact ⟨_, rfl⟩
  cases known with
  | none => simpa [gatherPage, hstart, hid, hkey, bind, Except.bind, pure, Except.pure] using hrest start
  | some start => simpa [gatherPage, hid, hkey, bind, Except.bind, pure, Except.pure] using hrest start

theorem exists_gather {rows : List Json} (h : ∀ row ∈ rows, IsRecord row)
    (pages : List (Json × GatheredPage)) : ∃ gathered, gather pages rows = .ok gathered := by
  induction rows generalizing pages with
  | nil => exact ⟨pages, rfl⟩
  | cons row rows ih =>
    have hrow := h row (by simp)
    have hid : ∃ id, row.member "page_id" = .ok (.str id) := by
      obtain ⟨page, element, action, rfl⟩ := hrow
      exact ⟨page.id, rfl⟩
    obtain ⟨id, hid⟩ := hid
    obtain ⟨next, hnext⟩ : ∃ next, alter (.str id) (gatherPage row) pages = .ok next :=
      exists_alter (exists_gatherPage hrow) pages
    obtain ⟨gathered, hgathered⟩ := ih (fun row hrow => h row (by simp [hrow])) next
    refine ⟨gathered, ?_⟩
    rw [gather, hid]
    change (alter (.str id) (gatherPage row) pages >>= fun next => gather next rows) = _
    rw [hnext]
    exact hgathered

/-! ## Groups of records in any order -/

theorem nodup_firstKeys (h : ∀ key ∈ keys, ∃ text, key = .str text) : (firstKeys keys).Nodup := by
  refine (pairwise_firstKeys keys).imp_of_mem ?_
  rintro key _ hkey - hother rfl
  obtain ⟨text, rfl⟩ := h key ((firstKeys_sublist keys).subset hkey)
  simp [sameKey_str] at hother

theorem perm_firstKeys {names : List String} (hnodup : names.Nodup)
    (hsame : ∀ key, key ∈ keys ↔ key ∈ names.map Json.str) :
    (firstKeys keys).Perm (names.map Json.str) := by
  have htexts : ∀ key ∈ keys, ∃ text, key = .str text := by
    intro key hkey
    obtain ⟨text, -, rfl⟩ := List.mem_map.mp ((hsame key).mp hkey)
    exact ⟨text, rfl⟩
  have hinjective : Function.Injective Json.str := fun _ _ => Json.str.inj
  rw [List.perm_ext_iff_of_nodup (nodup_firstKeys htexts) (hnodup.map hinjective)]
  intro key
  rw [← hsame]
  constructor
  · exact fun hkey => (firstKeys_sublist keys).subset hkey
  · intro hkey
    have hkeys : ∀ key ∈ keys, key.isKey = true := by
      intro key hkey
      obtain ⟨text, rfl⟩ := htexts key hkey
      rfl
    obtain ⟨first, hfirst, hsameKey⟩ := exists_firstKeys hkeys hkey
    obtain ⟨text, rfl⟩ := htexts key hkey
    obtain ⟨text', rfl⟩ := htexts first ((firstKeys_sublist keys).subset hfirst)
    rw [sameKey_str, beq_iff_eq] at hsameKey
    rwa [hsameKey] at hfirst

section Groups

variable {α γ : Type} {name : String} {items : List γ} {key : γ → String} {f : γ → List Json}

theorem filter_flatMap_of_nodup (hnodup : (items.map key).Nodup)
    (hlabel : ∀ item ∈ items, ∀ row ∈ f item, field name row = .str (key item)) {item : γ}
    (hitem : item ∈ items) :
    ((items.flatMap f).filter fun row => sameKey (.str (key item)) (field name row)) = f item := by
  induction items with
  | nil => cases hitem
  | cons head items ih =>
    rw [List.map_cons, List.nodup_cons] at hnodup
    have hothers : ∀ other ∈ items, ∀ row ∈ f other, field name row = .str (key other) :=
      fun other hother => hlabel other (by simp [hother])
    rw [List.flatMap_cons, List.filter_append]
    rcases List.mem_cons.mp hitem with rfl | hmem
    · have hown : (f item).filter (fun row => sameKey (.str (key item)) (field name row)) = f item := by
        rw [List.filter_eq_self]
        intro row hrow
        simp [hlabel item (by simp) row hrow, sameKey_str]
      have hnone : (items.flatMap f).filter
          (fun row => sameKey (.str (key item)) (field name row)) = [] := by
        rw [List.filter_eq_nil_iff]
        intro row hrow
        obtain ⟨other, hother, hrow⟩ := List.mem_flatMap.mp hrow
        rw [hothers other hother row hrow, sameKey_str, beq_iff_eq]
        intro heq
        exact hnodup.1 (heq ▸ List.mem_map_of_mem hother)
      rw [hown, hnone, List.append_nil]
    · have hnone : (f head).filter (fun row => sameKey (.str (key item)) (field name row)) = [] := by
        rw [List.filter_eq_nil_iff]
        intro row hrow
        rw [hlabel head (by simp) row hrow, sameKey_str, beq_iff_eq]
        intro heq
        exact hnodup.1 (heq ▸ List.mem_map_of_mem hmem)
      rw [hnone, ih hnodup.2 hothers hmem, List.nil_append]

/-- A grouped table has one entry for each item, made from its rows in some order. -/
theorem Grouped.exists_order {Made : List Json → α → Prop} {rows : List Json}
    {table : List (Json × α)} (hgrouped : Grouped name Made rows table)
    (hrows : rows.Perm (items.flatMap f)) (hnodup : (items.map key).Nodup)
    (hlabel : ∀ item ∈ items, ∀ row ∈ f item, field name row = .str (key item))
    (hnonempty : ∀ item ∈ items, f item ≠ []) :
    ∃ order, order.Perm items ∧
      List.Forall₂ (fun item entry => ∃ group, group.Perm (f item) ∧ Made group entry.2) order table := by
  have hkeys : (table.map Prod.fst).Perm (items.map (Json.str ∘ key)) := by
    rw [hgrouped.keys, ← List.map_map]
    refine perm_firstKeys hnodup fun label => ?_
    rw [(hrows.map (field name)).mem_iff, List.map_map, List.mem_map, List.mem_map]
    constructor
    · rintro ⟨row, hrow, rfl⟩
      obtain ⟨item, hitem, hrow⟩ := List.mem_flatMap.mp hrow
      exact ⟨item, hitem, (hlabel item hitem row hrow).symm⟩
    · rintro ⟨item, hitem, rfl⟩
      obtain ⟨row, hrow⟩ := List.exists_mem_of_ne_nil _ (hnonempty item hitem)
      exact ⟨row, List.mem_flatMap.mpr ⟨item, hitem, hrow⟩, hlabel item hitem row hrow⟩
  have horder : ∃ order : List γ, table.map Prod.fst = order.map (Json.str ∘ key) ∧ order.Perm items := by
    have hcomp := congrFun (congrFun (List.eq_map_comp_perm (Json.str ∘ key)) (table.map Prod.fst)) items
    exact hcomp.mpr hkeys
  obtain ⟨order, hmap, hperm⟩ := horder
  have hpairs : List.Forall₂ (· = ·) (table.map Prod.fst) (order.map (Json.str ∘ key)) := by
    rw [List.forall₂_eq_eq_eq, hmap]
  rw [List.forall₂_map_left_iff, List.forall₂_map_right_iff] at hpairs
  have hmade := ((List.forall₂_and_left _ _).mpr ⟨hgrouped.made, hpairs⟩).flip
  refine ⟨order, hperm, ((List.forall₂_and_left _ _).mpr ⟨fun item => hperm.mem_iff.mp, hmade⟩).imp ?_⟩
  rintro item ⟨label, value⟩ ⟨hitem, hmade, rfl⟩
  have hgroup := hrows.filter fun row => sameKey (.str (key item)) (field name row)
  rw [filter_flatMap_of_nodup hnodup hlabel hitem] at hgroup
  exact ⟨_, hgroup, hmade⟩

end Groups

/-! ## Records of what was written -/

theorem Memory.orNothing_of_ne_nil {α : Type} {items : List α} (h : items ≠ []) :
    orNothing items = items.map some := by
  cases items with
  | nil => contradiction
  | cons => rfl

def WrittenElement.records (page : PageNode) (element : WrittenElement) : List Json :=
  (Memory.orNothing (element.actions.map (WrittenAction.node element.id))).map
    (Memory.record page (some (element.node page.id)))

def WrittenPage.records (crawl : String) (page : WrittenPage) : List Json :=
  if page.elements = [] then [Memory.record (page.node crawl) none none]
  else page.elements.flatMap (WrittenElement.records (page.node crawl))

theorem Mirrors.recordsOf (h : Mirrors memory crawl written) (hpage : page ∈ written) :
    memory.recordsOf (page.node crawl) = page.records crawl := by
  have helements : memory.elementsOf (page.node crawl).id =
      page.elements.map (WrittenElement.node page.id) := h.elements page hpage
  rw [Memory.recordsOf, helements, WrittenPage.records]
  split
  · next hnone => simp [hnone, Memory.orNothing]
  · next hsome =>
    rw [Memory.orNothing_of_ne_nil (by simpa using hsome), List.map_map, List.flatMap_map]
    refine List.flatMap_congr fun element helement => ?_
    have hactions := h.actions element (List.mem_flatMap.mpr ⟨page, hpage, helement⟩)
    simp only [Function.comp_apply, Option.elim_some, WrittenElement.records]
    rw [← hactions]
    rfl

theorem Mirrors.records (h : Mirrors memory crawl written) {ids : List String}
    (hids : ∀ page ∈ written, page.id ∈ ids) :
    memory.records [("crawl_id", .str crawl), ("page_ids", .texts ids)] =
      written.flatMap (WrittenPage.records crawl) := by
  have hpages : (memory.pages.filter fun page =>
      Memory.isListed (.texts ids) page.id && sameKey (.str crawl) (.str page.crawl)) =
        written.map (WrittenPage.node crawl) := by
    rw [← List.filter_filter]
    have hcrawl : (memory.pages.filter fun page => sameKey (.str crawl) (.str page.crawl)) =
        written.map (WrittenPage.node crawl) := by
      rw [← h.pages]
      refine List.filter_congr fun page _ => ?_
      rw [sameKey_str, Bool.eq_iff_iff, beq_iff_eq, decide_eq_true_iff, eq_comm]
    rw [hcrawl, List.filter_eq_self]
    intro node hnode
    obtain ⟨page, hpage, rfl⟩ := List.mem_map.mp hnode
    refine List.any_eq_true.mpr ⟨.str page.id, List.mem_map_of_mem (hids page hpage), ?_⟩
    exact beq_self_eq_true page.id
  change (memory.pages.filter fun page =>
      Memory.isListed (.texts ids) page.id && sameKey (.str crawl) (.str page.crawl)).flatMap _ = _
  rw [hpages, List.flatMap_map]
  exact List.flatMap_congr fun page hpage => h.recordsOf hpage

theorem exists_of_mem_records (h : row ∈ page.records crawl) :
    ∃ element action, row = Memory.record (page.node crawl) element action := by
  unfold WrittenPage.records at h
  split at h
  · exact ⟨none, none, List.mem_singleton.mp h⟩
  · obtain ⟨element, -, h⟩ := List.mem_flatMap.mp h
    obtain ⟨action, -, rfl⟩ := List.mem_map.mp h
    exact ⟨_, _, rfl⟩

theorem WrittenElement.records_ne_nil (page : PageNode) (element : WrittenElement) :
    element.records page ≠ [] := by
  cases hactions : element.actions with
  | nil | cons => simp [records, hactions, Memory.orNothing]

theorem WrittenPage.records_ne_nil (crawl : String) (page : WrittenPage) : page.records crawl ≠ [] := by
  unfold records
  split
  · simp
  · cases helements : page.elements with
    | nil => contradiction
    | cons => simp [WrittenElement.records_ne_nil]

theorem filter_records (hids : ∀ element ∈ page.elements, element.id ≠ "") :
    ((page.records crawl).filter fun row => (field "element_id" row).isTruthy) =
      page.elements.flatMap (WrittenElement.records (page.node crawl)) := by
  unfold WrittenPage.records
  split
  · next hnone =>
    rw [hnone]
    rfl
  · rw [List.filter_eq_self]
    intro row hrow
    obtain ⟨element, helement, hrow⟩ := List.mem_flatMap.mp hrow
    obtain ⟨action, -, rfl⟩ := List.mem_map.mp hrow
    exact bne_iff_ne.mpr (hids element helement)

theorem filter_actions (page : PageNode) (element : WrittenElement) :
    (((element.records page).map (field "action_type")).filter isTruthy) =
      element.actions.map fun action => .str action.kind.name := by
  cases hactions : element.actions with
  | nil =>
    rw [WrittenElement.records, hactions]
    rfl
  | cons action =>
    rw [WrittenElement.records, hactions, Memory.orNothing_of_ne_nil (by simp), List.map_map, List.map_map,
      List.map_map, List.filter_eq_self.mpr]
    · rfl
    · intro name hname
      obtain ⟨action, -, rfl⟩ := List.mem_map.mp hname
      change (Json.str action.kind.name).isTruthy = true
      cases action.kind <;> rfl

end Sitecheck.Graph
