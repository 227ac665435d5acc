import Sitecheck.Graph.Export
import Sitecheck.Proofs.Crawl.Visit
import Sitecheck.Proofs.Except
import Sitecheck.Proofs.Json.Key
import Sitecheck.Proofs.Schema

/-!
# Records grouped by page and element

Gathering goes through the records once and keeps a table of pages, with a table
of elements in each.  After every record a table has one entry for each key that
came up, in the order of first occurrence, and the entry is made from the records
with that key (`Grouped`).  So a site map has the pages, elements and actions that
the records name, in that order, whatever the order of the records.
-/

namespace Sitecheck.Graph

variable {name : String} {record key crawl ids : Json} {element gathered : GatheredElement}
  {page : GatheredPage} {rows records : List Json} {interactions : List Interaction}
  {site : SiteMap} {s : Surroundings}

open Json

/-- What a record has under a name; null if it has nothing there. -/
def field (name : String) (record : Json) : Json := (Json.member name record).toOption.getD .null

theorem field_of_member {value : Json} (h : Json.member name record = .ok value) :
    field name record = value := by
  simp [field, h, Except.toOption]

/-! ## Tables that are changed key by key -/

section Tables

variable {α : Type}

theorem alter_cases {key : Json} {change : Option α → Except Fault α} {table table' : List (Json × α)}
    (h : alter key change table = .ok table') :
    (∃ front name old new back, table = front ++ (name, old) :: back ∧ sameKey name key = true ∧
      change (some old) = .ok new ∧ table' = front ++ (name, new) :: back) ∨
    (∀ entry ∈ table, sameKey entry.1 key = false) ∧
      ∃ new, change none = .ok new ∧ table' = table ++ [(key, new)] := by
  induction table generalizing table' with
  | nil =>
    obtain ⟨new, hnew, h⟩ := bind_eq_ok_iff.mp h
    cases h
    exact .inr ⟨by simp, new, hnew, rfl⟩
  | cons entry table ih =>
    obtain ⟨name, old⟩ := entry
    rw [alter] at h
    split at h
    · next hsame =>
      obtain ⟨new, hnew, h⟩ := bind_eq_ok_iff.mp h
      cases h
      exact .inl ⟨[], name, old, new, table, rfl, hsame, hnew, rfl⟩
    · next hother =>
      obtain ⟨rest, hrest, h⟩ := bind_eq_ok_iff.mp h
      cases h
      rcases ih hrest with ⟨front, name', old', new, back, rfl, hsame, hnew, rfl⟩ | ⟨hall, new, hnew, rfl⟩
      · exact .inl ⟨(name, old) :: front, name', old', new, back, rfl, hsame, hnew, rfl⟩
      · refine .inr ⟨?_, new, hnew, rfl⟩
        simpa [hother] using hall

/-- A table has an entry for each key of some records, in the order of first
occurrence, and each entry is made from the records with its key. -/
structure Grouped (name : String) (Made : List Json → α → Prop) (records : List Json)
    (table : List (Json × α)) : Prop where
  isKey : ∀ record ∈ records, (field name record).isKey = true
  keys : table.map Prod.fst = firstKeys (records.map (field name))
  made : ∀ entry ∈ table,
    Made (records.filter fun record => sameKey entry.1 (field name record)) entry.2

namespace Grouped

variable {name : String} {Made : List Json → α → Prop} {records : List Json}
  {table table' : List (Json × α)} {record : Json}
variable {front back : List (Json × α)} {entry : Json × α} {key : Json}

theorem nil : Grouped name Made [] [] := ⟨by simp, rfl, by simp⟩

theorem distinct (h : Grouped name Made records table) (htable : table = front ++ entry :: back)
    {other : Json × α} (hother : other ∈ front ++ back) (hentry : sameKey entry.1 key = true) :
    sameKey other.1 key = false := by
  have hpairs := pairwise_firstKeys (records.map (field name))
  rw [← h.keys, htable, List.pairwise_map, List.pairwise_append, List.pairwise_cons] at hpairs
  rw [Bool.eq_false_iff]
  intro hsame
  rcases List.mem_append.mp hother with hfront | hback
  · have hfalse := hpairs.2.2 other hfront entry List.mem_cons_self
    rw [sameKey_trans hsame (sameKey_comm hentry)] at hfalse
    cases hfalse
  · have hfalse := hpairs.2.1.1 other hback
    rw [sameKey_trans hentry (sameKey_comm hsame)] at hfalse
    cases hfalse

theorem made_concat (h : Grouped name Made records table) (hentry : entry ∈ table)
    (hother : sameKey entry.1 (field name record) = false) :
    Made ((records ++ [record]).filter fun record => sameKey entry.1 (field name record)) entry.2 := by
  simpa [hother] using h.made entry hentry

theorem isKey_concat (h : Grouped name Made records table) (hkey : (field name record).isKey = true) :
    ∀ r ∈ records ++ [record], (field name r).isKey = true :=
  List.forall_mem_append.mpr ⟨h.isKey, List.forall_mem_singleton.mpr hkey⟩

theorem change {old new : α} (h : Grouped name Made records (front ++ (key, old) :: back))
    (hkey : (field name record).isKey = true) (hsame : sameKey key (field name record) = true)
    (hmade : ∀ rows, Made rows old → Made (rows ++ [record]) new) :
    Grouped name Made (records ++ [record]) (front ++ (key, new) :: back) := by
  have hany : (records.map (field name)).any (fun other => sameKey other (field name record)) = true := by
    have hmem : key ∈ firstKeys (records.map (field name)) := by
      rw [← h.keys]
      simp
    exact List.any_eq_true.mpr ⟨key, (firstKeys_sublist _).subset hmem, hsame⟩
  refine ⟨h.isKey_concat hkey, ?_, ?_⟩
  · rw [List.map_append (f := field name), List.map_singleton, firstKeys_concat, if_pos hany, ← h.keys]
    simp
  · intro entry hentry
    have hcases : entry = (key, new) ∨ entry ∈ front ++ back := by
      simp only [List.mem_append, List.mem_cons] at hentry ⊢
      tauto
    rcases hcases with rfl | hother
    · have hrows := hmade _ (h.made (key, old) (by simp))
      simpa [hsame] using hrows
    · refine h.made_concat ?_ (h.distinct rfl hother hsame)
      simp only [List.mem_append, List.mem_cons] at hother ⊢
      tauto

theorem not_mem_of_absent (h : Grouped name Made records table)
    (hothers : ∀ entry ∈ table, sameKey entry.1 key = false) :
    ∀ r ∈ records, sameKey (field name r) key = false := by
  intro r hr
  rw [Bool.eq_false_iff]
  intro hsame
  have hkeys : ∀ key ∈ records.map (field name), key.isKey = true := by
    simpa using h.isKey
  obtain ⟨first, hfirst, hfirstSame⟩ := exists_firstKeys hkeys (List.mem_map_of_mem hr)
  rw [← h.keys] at hfirst
  obtain ⟨entry, hentry, rfl⟩ := List.mem_map.mp hfirst
  have hfalse := hothers entry hentry
  rw [sameKey_trans hfirstSame hsame] at hfalse
  cases hfalse

theorem add (h : Grouped name Made records table) (hkey : (field name record).isKey = true)
    (hothers : ∀ entry ∈ table, sameKey entry.1 (field name record) = false) {new : α}
    (hmade : Made [record] new) :
    Grouped name Made (records ++ [record]) (table ++ [(field name record, new)]) := by
  have hnone := h.not_mem_of_absent hothers
  have hany : (records.map (field name)).any (fun other => sameKey other (field name record)) = false := by
    simpa using hnone
  have hempty : records.filter (fun r => sameKey (field name record) (field name r)) = [] := by
    rw [List.filter_eq_nil_iff]
    intro r hr hsame
    have hfalse := hnone r hr
    rw [sameKey_comm hsame] at hfalse
    cases hfalse
  refine ⟨h.isKey_concat hkey, ?_, List.forall_mem_append.mpr ⟨?_, List.forall_mem_singleton.mpr ?_⟩⟩
  · rw [List.map_append (f := field name), List.map_singleton, firstKeys_concat, hany, ← h.keys]
    simp
  · intro entry hentry
    exact h.made_concat hentry (hothers entry hentry)
  · simpa [hempty, sameKey_self hkey] using hmade

theorem alter (h : Grouped name Made records table) {change : Option α → Except Fault α}
    (hkey : (field name record).isKey = true)
    (hnew : ∀ value, change none = .ok value → Made [record] value)
    (hold : ∀ rows old value, Made rows old → change (some old) = .ok value →
      Made (rows ++ [record]) value)
    (halter : Graph.alter (field name record) change table = .ok table') :
    Grouped name Made (records ++ [record]) table' := by
  rcases alter_cases halter with ⟨front, key, old, new, back, rfl, hsame, hvalue, rfl⟩ |
    ⟨hothers, new, hvalue, rfl⟩
  · exact h.change hkey hsame fun rows hmade => hold rows old new hmade hvalue
  · exact h.add hkey hothers (hnew new hvalue)

end Grouped

end Tables

/-! ## One record after the other -/

/-- An element has the data of its first record and the actions of all. -/
structure MadeElement (rows : List Json) (element : GatheredElement) : Prop where
  first : ∃ first ∈ rows.head?, startElement first = .ok { element with actions := [] }
  actions : element.actions = (rows.map (field "action_type")).filter isTruthy

/-- A page has the data of its first record and the elements of all. -/
structure MadePage (rows : List Json) (page : GatheredPage) : Prop where
  first : ∃ first ∈ rows.head?, startPage first = .ok { page with elements := [] }
  elements : Grouped "element_id" MadeElement
    (rows.filter fun row => (field "element_id" row).isTruthy) page.elements

theorem actions_of_startElement (h : startElement record = .ok element) : element.actions = [] := by
  simp only [startElement, bind_eq_ok_iff] at h
  obtain ⟨_, _, _, _, _, _, _, _, _, _, h⟩ := h
  cases h
  rfl

theorem elements_of_startPage (h : startPage record = .ok page) : page.elements = [] := by
  simp only [startPage, bind_eq_ok_iff] at h
  obtain ⟨_, _, _, _, _, _, h⟩ := h
  cases h
  rfl

theorem head?_append_of_mem {more : List Json} {first : Json} (h : first ∈ rows.head?) :
    first ∈ (rows ++ more).head? := by
  cases rows with
  | nil => cases h
  | cons => exact h

theorem isKey_of_checkKey {a : Unit} (h : key.checkKey = .ok a) : key.isKey = true := by
  rw [checkKey] at h
  split at h
  · assumption
  · cases h

theorem gatherElement_ok {known : Option GatheredElement}
    (h : gatherElement record known = .ok element) :
    ∃ start, known.elim (startElement record) .ok = .ok start ∧
      element = { start with actions := start.actions ++ [field "action_type" record].filter isTruthy } := by
  have hrest : ∃ start, known.elim (startElement record) .ok = .ok start ∧
      (do let action ← record.member "action_type"
          if action.isTruthy then
            let _ ← record.member "target_url"
            let _ ← record.member "value"
            return { start with actions := start.actions ++ [action] }
          else return start) = Except.ok element := by
    cases known <;> exact bind_eq_ok_iff.mp h
  obtain ⟨start, hstart, hrest⟩ := hrest
  obtain ⟨action, haction, hrest⟩ := bind_eq_ok_iff.mp hrest
  refine ⟨start, hstart, ?_⟩
  rw [field_of_member haction]
  split at hrest
  · next htruthy =>
    obtain ⟨_, _, hrest⟩ := bind_eq_ok_iff.mp hrest
    obtain ⟨_, _, hrest⟩ := bind_eq_ok_iff.mp hrest
    cases hrest
    simp [htruthy]
  · next hfalsy =>
    cases hrest
    simp [hfalsy]

theorem madeElement_of_new (h : gatherElement record none = .ok element) :
    MadeElement [record] element := by
  obtain ⟨start, hstart, rfl⟩ := gatherElement_ok h
  have hactions := actions_of_startElement hstart
  constructor
  · refine ⟨record, rfl, ?_⟩
    simp only [← hactions]
    exact hstart
  · simp [hactions]

theorem MadeElement.concat {old : GatheredElement} (hmade : MadeElement rows old)
    (h : gatherElement record (some old) = .ok element) :
    MadeElement (rows ++ [record]) element := by
  obtain ⟨start, hstart, rfl⟩ := gatherElement_ok h
  cases hstart
  obtain ⟨first, hfirst, hdata⟩ := hmade.first
  constructor
  · exact ⟨first, head?_append_of_mem hfirst, hdata⟩
  · simp only [hmade.actions, List.map_append, List.map_singleton, List.filter_append]

theorem gatherPage_ok {known : Option GatheredPage} (h : gatherPage record known = .ok page) :
    ∃ start elements, known.elim (startPage record) .ok = .ok start ∧
      page = { start with elements := elements } ∧
      if (field "element_id" record).isTruthy then
        (field "element_id" record).isKey = true ∧
          alter (field "element_id" record) (gatherElement record) start.elements = .ok elements
      else elements = start.elements := by
  have hrest : ∃ start, known.elim (startPage record) .ok = .ok start ∧
      (do let id ← record.member "element_id"
          if id.isTruthy then
            id.checkKey
            return { start with elements := ← alter id (gatherElement record) start.elements }
          else return start) = Except.ok page := by
    cases known <;> exact bind_eq_ok_iff.mp h
  obtain ⟨start, hstart, hrest⟩ := hrest
  obtain ⟨id, hid, hrest⟩ := bind_eq_ok_iff.mp hrest
  rw [field_of_member hid]
  split at hrest
  · next htruthy =>
    obtain ⟨_, hkey, hrest⟩ := bind_eq_ok_iff.mp hrest
    obtain ⟨elements, helements, hrest⟩ := bind_eq_ok_iff.mp hrest
    cases hrest
    exact ⟨start, elements, hstart, rfl, by simp [htruthy, isKey_of_checkKey hkey, helements]⟩
  · next hfalsy =>
    cases hrest
    exact ⟨page, page.elements, hstart, rfl, by simp [hfalsy]⟩

theorem madePage_of_new (h : gatherPage record none = .ok page) : MadePage [record] page := by
  obtain ⟨start, elements, hstart, rfl, hif⟩ := gatherPage_ok h
  have helements := elements_of_startPage hstart
  constructor
  · refine ⟨record, rfl, ?_⟩
    simp only [← helements]
    exact hstart
  · split at hif
    · next htruthy =>
      rw [helements] at hif
      have hgrouped := Grouped.nil.alter hif.1 (fun _ => madeElement_of_new)
        (fun _ _ _ hmade => hmade.concat) hif.2
      simpa [htruthy] using hgrouped
    · next hfalsy =>
      subst hif
      simpa [hfalsy, helements] using Grouped.nil

theorem MadePage.concat {old : GatheredPage} (hmade : MadePage rows old)
    (h : gatherPage record (some old) = .ok page) :
    MadePage (rows ++ [record]) page := by
  obtain ⟨start, elements, hstart, rfl, hif⟩ := gatherPage_ok h
  cases hstart
  obtain ⟨first, hfirst, hdata⟩ := hmade.first
  constructor
  · exact ⟨first, head?_append_of_mem hfirst, hdata⟩
  · split at hif
    · next htruthy =>
      have hgrouped := hmade.elements.alter hif.1 (fun _ => madeElement_of_new)
        (fun _ _ _ hmade => hmade.concat) hif.2
      simpa [htruthy] using hgrouped
    · next hfalsy =>
      subst hif
      simpa [hfalsy] using hmade.elements

theorem Grouped.gather {done : List Json} {pages pages' : List (Json × GatheredPage)}
    (hgrouped : Grouped "page_id" MadePage done pages) (h : gather pages records = .ok pages') :
    Grouped "page_id" MadePage (done ++ records) pages' := by
  induction records generalizing done pages with
  | nil =>
    cases h
    simpa using hgrouped
  | cons record records ih =>
    obtain ⟨id, hid, h⟩ := bind_eq_ok_iff.mp h
    obtain ⟨_, hkey, h⟩ := bind_eq_ok_iff.mp h
    obtain ⟨next, hnext, h⟩ := bind_eq_ok_iff.mp h
    rw [← field_of_member hid] at hkey hnext
    have hstep := hgrouped.alter (isKey_of_checkKey hkey) (fun _ => madePage_of_new)
      (fun _ _ _ hmade => hmade.concat) hnext
    simpa using ih hstep h

/-! ## From gathered data to the site map -/

open Schema

/-- An element is what a record tells of it. -/
structure HoldsElement (record : Json) (element : Element) : Prop where
  selector : Schema.text (field "selector" record) = .value element.selector
  strategy : wordIn "SelectorStrategy" Strategy.members (field "selector_strategy" record) =
    .ok element.strategy
  kind : Schema.text (field "element_type" record) = .value element.kind
  text : nullable Schema.text (field "text" record) = .value element.text
  attributes : ∃ document, storedAttributes (field "attributes" record) = .ok document ∧
    table anything document = .value element.attributes

/-- An interaction with an element is what a record tells of it. -/
structure HoldsInteraction (element : Element) (record : Json) (interaction : Interaction) : Prop where
  kind : wordIn "ActionType" ActionKind.members (field "action_type" record) = .ok interaction.kind
  element : interaction.element = element

/-- A page is at the address and has the title and the picture of a record. -/
structure HoldsPage (record : Json) (page : Page) : Prop where
  url : webAddress (field "url" record) = .value page.url
  title : Schema.text (field "title" record) = .value page.title
  screenshot : nullable Schema.text (field "screenshot_path" record) = .value page.screenshot

theorem GatheredElement.element_eq_ok_iff {element : Element} :
    gathered.element = .ok element ↔
      wordIn "SelectorStrategy" Strategy.members gathered.strategy = .ok element.strategy ∧
      Schema.text gathered.selector = .value element.selector ∧
      Schema.text gathered.kind = .value element.kind ∧
      nullable Schema.text gathered.text = .value element.text ∧
      ∃ document, storedAttributes gathered.attributes = .ok document ∧
        table anything document = .value element.attributes := by
  simp only [GatheredElement.element, bind_eq_ok_iff, Outcome.orFault_eq_ok_iff, Outcome.seq_eq,
    Outcome.map_eq, Outcome.seq_eq_value_iff, Outcome.map_eq_value_iff, Outcome.pure_eq, required,
    Schema.optional, withDefault, Fields.get?, List.lookup_cons, String.reduceBEq,
    Outcome.under_eq_value_iff]
  constructor
  · rintro ⟨_, hstrategy, document, hdocument, _, _, ⟨_, _, ⟨_, _, ⟨_, _, ⟨_, hselector, rfl⟩, hsame, rfl⟩,
      hkind, rfl⟩, htext, rfl⟩, htable, rfl⟩
    cases hsame
    exact ⟨hstrategy, hselector, hkind, htext, document, hdocument, htable⟩
  · rintro ⟨hstrategy, hselector, hkind, htext, document, hdocument, htable⟩
    exact ⟨_, hstrategy, document, hdocument, _, _, ⟨_, _, ⟨_, _, ⟨_, _, ⟨_, hselector, rfl⟩, rfl, rfl⟩,
      hkind, rfl⟩, htext, rfl⟩, htable, rfl⟩

theorem holdsElement_iff {element : Element}
    (h : startElement record = .ok { gathered with actions := [] }) :
    HoldsElement record element ↔ gathered.element = .ok element := by
  simp only [startElement, bind_eq_ok_iff] at h
  obtain ⟨_, hselector, _, hstrategy, _, hkind, _, htext, _, hattributes, h⟩ := h
  cases h
  rw [GatheredElement.element_eq_ok_iff, ← field_of_member hselector, ← field_of_member hstrategy,
    ← field_of_member hkind, ← field_of_member htext, ← field_of_member hattributes]
  exact ⟨fun ⟨a, b, c, d, e⟩ => ⟨b, a, c, d, e⟩, fun ⟨b, a, c, d, e⟩ => ⟨a, b, c, d, e⟩⟩

def GatheredElement.interaction (gathered : GatheredElement) (element : Element) (action : Json)
    (kind : ActionKind) : Interaction where
  kind := kind
  element := element
  value := none
  description := action.display ++ " on " ++ gathered.kind.display

theorem GatheredElement.interactions_eq_ok_iff {element : Element}
    (h : gathered.element = .ok element) :
    gathered.interactions = .ok interactions ↔
      List.Forall₂ (fun action interaction => ∃ kind,
        wordIn "ActionType" ActionKind.members action = .ok kind ∧
        gathered.interaction element action kind = interaction) gathered.actions interactions := by
  rw [GatheredElement.interactions, mapM_eq_ok_iff]
  simp only [h, bind_eq_ok_iff, Except.ok.injEq, exists_eq_left', pure, Except.pure]
  rfl

theorem GatheredPage.page_eq_ok_iff {gathered : GatheredPage} {page : Page} :
    gathered.page = .ok page ↔
      ∃ parts : List (Element × List Interaction),
        List.Forall₂ (fun entry part => entry.2.element = .ok part.1 ∧ entry.2.interactions = .ok part.2)
          gathered.elements parts ∧
        webAddress gathered.url = .value page.url ∧ Schema.text gathered.title = .value page.title ∧
        nullable Schema.text gathered.screenshot = .value page.screenshot ∧
        page.elements = parts.map Prod.fst ∧ page.interactions = parts.flatMap Prod.snd ∧
        page.forms = [] := by
  have hpart : ∀ (entry : Json × GatheredElement) (part : Element × List Interaction),
      (do let first ← entry.2.element
          return (first, ← entry.2.interactions)) = .ok part ↔
        entry.2.element = .ok part.1 ∧ entry.2.interactions = .ok part.2 := by
    intro entry part
    simp only [bind_eq_ok_iff, pure, Except.pure, Except.ok.injEq]
    constructor
    · rintro ⟨element, helement, interactions, hinteractions, rfl⟩
      exact ⟨helement, hinteractions⟩
    · rintro ⟨helement, hinteractions⟩
      exact ⟨_, helement, _, hinteractions, rfl⟩
  simp only [GatheredPage.page, bind_eq_ok_iff, mapM_eq_ok_iff, hpart, Outcome.orFault_eq_ok_iff, Outcome.seq_eq,
    Outcome.map_eq, Outcome.seq_eq_value_iff, Outcome.map_eq_value_iff, Outcome.pure_eq, required,
    Schema.optional, withDefault, Fields.get?, List.lookup_cons, String.reduceBEq,
    Outcome.under_eq_value_iff]
  constructor
  · rintro ⟨parts, hparts, _, _, ⟨_, _, ⟨_, _, ⟨_, _, ⟨_, _, ⟨_, hurl, rfl⟩, htitle, rfl⟩, helements, rfl⟩,
      hinteractions, rfl⟩, hscreenshot, rfl⟩, hforms, rfl⟩
    cases helements
    cases hinteractions
    cases hforms
    exact ⟨parts, hparts, hurl, htitle, hscreenshot, rfl, rfl, rfl⟩
  · rintro ⟨parts, hparts, hurl, htitle, hscreenshot, helements, hinteractions, hforms⟩
    refine ⟨parts, hparts, _, _, ⟨_, _, ⟨_, _, ⟨_, _, ⟨_, _, ⟨_, hurl, rfl⟩, htitle, rfl⟩, rfl, rfl⟩,
      rfl, rfl⟩, hscreenshot, rfl⟩, rfl, ?_⟩
    rw [← helements, ← hinteractions, ← hforms]

/-! ## What a site map is made of -/

def pageIds (records : List Json) : List Json := firstKeys (records.map (field "page_id"))

def elementIds (records : List Json) : List Json :=
  firstKeys ((records.map (field "element_id")).filter isTruthy)

def recordsWith (name : String) (key : Json) (records : List Json) : List Json :=
  records.filter fun record => sameKey key (field name record)

/-- An element is that of the first record, and there is an interaction for each record
with an action. -/
structure ElementOf (records : List Json) (element : Element) (interactions : List Interaction) :
    Prop where
  first : ∃ first ∈ records.head?, HoldsElement first element
  interactions : List.Forall₂ (HoldsInteraction element)
    (records.filter fun record => (field "action_type" record).isTruthy) interactions

/-- A page is that of the first record.  It has the elements that the records name, and
after each other what they allow. -/
structure PageOf (records : List Json) (page : Page) : Prop where
  first : ∃ first ∈ records.head?, HoldsPage first page
  parts : ∃ parts : List (Element × List Interaction),
    List.Forall₂ (fun id part => ElementOf (recordsWith "element_id" id records) part.1 part.2)
      (elementIds records) parts ∧
    page.elements = parts.map Prod.fst ∧ page.interactions = parts.flatMap Prod.snd

theorem MadeElement.elementOf {element : Element} (hmade : MadeElement rows gathered)
    (helement : gathered.element = .ok element)
    (hinteractions : gathered.interactions = .ok interactions) :
    ElementOf rows element interactions := by
  obtain ⟨first, hfirst, hstart⟩ := hmade.first
  constructor
  · exact ⟨first, hfirst, (holdsElement_iff hstart).mpr helement⟩
  · rw [GatheredElement.interactions_eq_ok_iff helement, hmade.actions, List.filter_map,
      List.forall₂_map_left_iff] at hinteractions
    refine hinteractions.imp ?_
    rintro row _ ⟨kind, hkind, rfl⟩
    exact ⟨hkind, rfl⟩

theorem holdsPage_of_startPage {gathered : GatheredPage} {page : Page}
    (h : startPage record = .ok { gathered with elements := [] })
    (hurl : webAddress gathered.url = .value page.url)
    (htitle : Schema.text gathered.title = .value page.title)
    (hscreenshot : nullable Schema.text gathered.screenshot = .value page.screenshot) :
    HoldsPage record page := by
  simp only [startPage, bind_eq_ok_iff] at h
  obtain ⟨_, hmember, _, hmember', _, hmember'', h⟩ := h
  cases h
  rw [← field_of_member hmember] at hurl
  rw [← field_of_member hmember'] at htitle
  rw [← field_of_member hmember''] at hscreenshot
  exact ⟨hurl, htitle, hscreenshot⟩

theorem recordsWith_filter_isTruthy (h : key.isTruthy = true) (records : List Json) :
    recordsWith name key (records.filter fun record => (field name record).isTruthy) =
      recordsWith name key records := by
  rw [recordsWith, List.filter_filter, recordsWith]
  refine List.filter_congr fun record _ => ?_
  cases hsame : sameKey key (field name record) with
  | false => simp
  | true => simp [← isTruthy_of_sameKey hsame, h]

theorem map_filter_isTruthy (name : String) (records : List Json) :
    (records.filter fun record => (field name record).isTruthy).map (field name) =
      (records.map (field name)).filter isTruthy := by
  rw [List.filter_map]
  rfl

theorem MadePage.pageOf {gathered : GatheredPage} {page : Page} (hmade : MadePage rows gathered)
    (hpage : gathered.page = .ok page) : PageOf rows page := by
  obtain ⟨parts, hparts, hurl, htitle, hscreenshot, helements, hinteractions, -⟩ :=
    GatheredPage.page_eq_ok_iff.mp hpage
  obtain ⟨first, hfirst, hstart⟩ := hmade.first
  refine ⟨⟨first, hfirst, holdsPage_of_startPage hstart hurl htitle hscreenshot⟩, parts, ?_, helements,
    hinteractions⟩
  have hkeys := hmade.elements.keys
  rw [map_filter_isTruthy] at hkeys
  have htruthy : ∀ entry ∈ gathered.elements, entry.1.isTruthy = true := by
    intro entry hentry
    have hmem : entry.1 ∈ firstKeys ((rows.map (field "element_id")).filter isTruthy) := by
      rw [← hkeys]
      exact List.mem_map_of_mem hentry
    exact (List.mem_filter.mp ((firstKeys_sublist _).subset hmem)).2
  rw [elementIds, ← hkeys, List.forall₂_map_left_iff]
  have hall : ∀ entry ∈ gathered.elements,
      MadeElement (recordsWith "element_id" entry.1 rows) entry.2 := by
    intro entry hentry
    rw [← recordsWith_filter_isTruthy (htruthy entry hentry)]
    exact hmade.elements.made entry hentry
  refine ((List.forall₂_and_left _ _).mpr ⟨hall, hparts⟩).imp ?_
  rintro entry part ⟨hentry, helement, hinteractions⟩
  exact hentry.elementOf helement hinteractions

/-- A site map is made from the record of a crawl and from those of its pages. -/
structure MadeSite (start : Json) (records : List Json) (now : Moment) (site : SiteMap) : Prop where
  found : start.isTruthy = true
  base : ∃ base, start.member "base_url" = .ok base ∧ webAddress base = .value site.baseUrl
  pages : ∃ gathered, gather [] records = .ok gathered ∧ gathered ≠ [] ∧
    List.Forall₂ (fun entry page => entry.2.page = .ok page) gathered site.pages
  pageCount : site.pageCount = site.pages.length
  inRange : now.isInRange = true
  takenAt : site.takenAt = now.text

theorem orFault_siteMap_eq_ok_iff {base : Json} {pages : List Page} {now : String} :
    (SiteMap.mk <$> required "base_url" webAddress [("base_url", base)]
      <*> pure pages <*> pure now <*> pure (pages.length : Int)).orFault "AppMap" = .ok site ↔
      webAddress base = .value site.baseUrl ∧ pages = site.pages ∧ now = site.takenAt ∧
        site.pageCount = pages.length := by
  simp only [Outcome.orFault_eq_ok_iff, Outcome.seq_eq, Outcome.map_eq, Outcome.seq_eq_value_iff,
    Outcome.map_eq_value_iff, Outcome.pure_eq, required, Fields.get?, List.lookup_cons, String.reduceBEq,
    Outcome.under_eq_value_iff]
  constructor
  · rintro ⟨_, _, ⟨_, _, ⟨_, _, ⟨_, hbase, rfl⟩, hpages, rfl⟩, hnow, rfl⟩, hcount, rfl⟩
    cases hpages
    cases hnow
    cases hcount
    exact ⟨hbase, rfl, rfl, rfl⟩
  · rintro ⟨hbase, rfl, rfl, hcount⟩
    exact ⟨_, _, ⟨_, _, ⟨_, _, ⟨_, hbase, rfl⟩, rfl, rfl⟩, rfl, rfl⟩, rfl, by rw [← hcount]⟩

theorem exists_of_siteMap {t : Surroundings} (h : siteMap crawl ids s = (.ok site, t)) :
    ∃ start u records v,
      Run.querySingle crawlQuery [("crawl_id", crawl)] s = (.ok start, u) ∧
      Run.query rowsQuery [("crawl_id", crawl), ("page_ids", ids)] u = (.ok records, v) ∧
      MadeSite start records v.now site := by
  obtain ⟨start, u, hstart, h⟩ := Run.exists_of_bind_ok h
  split at h
  · next hfound =>
    obtain ⟨records, v, hrecords, h⟩ := Run.exists_of_bind_ok h
    obtain ⟨gathered, hgather, h⟩ := Run.exists_of_lift_ok h
    split at h
    · obtain ⟨_, _, hthrow, _⟩ := Run.exists_of_bind_ok h
      cases hthrow
    · next hempty =>
      obtain ⟨pages, hpages, h⟩ := Run.exists_of_lift_ok h
      obtain ⟨base, hbase, h⟩ := Run.exists_of_lift_ok h
      obtain ⟨now, w, hnow, h⟩ := Run.exists_of_bind_ok h
      rw [Run.lift_apply, Prod.mk.injEq, orFault_siteMap_eq_ok_iff] at h
      obtain ⟨⟨haddress, rfl, rfl, hcount⟩, -⟩ := h
      rw [Run.timestamp_apply] at hnow
      split at hnow
      · next hrange =>
        obtain ⟨htext, -⟩ := Prod.mk.inj hnow
        exact ⟨start, u, records, v, hstart, hrecords, hfound, ⟨base, hbase, haddress⟩,
          ⟨gathered, hgather, by simpa using hempty, mapM_eq_ok_iff.mp hpages⟩, hcount, hrange,
          (Except.ok.inj htext).symm⟩
      · cases (Prod.mk.inj hnow).1
  · obtain ⟨_, _, hthrow, _⟩ := Run.exists_of_bind_ok h
    cases hthrow

theorem MadeSite.exists_siteMap {start : Json} {u v : Surroundings}
    (hmade : MadeSite start records v.now site)
    (hstart : Run.querySingle crawlQuery [("crawl_id", crawl)] s = (.ok start, u))
    (hrecords : Run.query rowsQuery [("crawl_id", crawl), ("page_ids", ids)] u = (.ok records, v)) :
    ∃ t, siteMap crawl ids s = (.ok site, t) := by
  obtain ⟨base, hbase, haddress⟩ := hmade.base
  obtain ⟨gathered, hgather, hempty, hpages⟩ := hmade.pages
  have hnow := Run.timestamp_apply v
  rw [if_pos hmade.inRange] at hnow
  refine ⟨{ v with now := v.now.later v.tick }, ?_⟩
  unfold siteMap
  rw [Run.bind_of_ok hstart]
  dsimp only
  rw [if_pos hmade.found, Run.bind_of_ok hrecords, hgather, Run.bind_of_ok (Run.lift_apply _ _),
    if_neg (by simpa using hempty), mapM_eq_ok_iff.mpr hpages, Run.bind_of_ok (Run.lift_apply _ _), hbase,
    Run.bind_of_ok (Run.lift_apply _ _), Run.bind_of_ok hnow, Run.lift_apply, Prod.mk.injEq,
    orFault_siteMap_eq_ok_iff]
  exact ⟨⟨haddress, rfl, hmade.takenAt.symm, hmade.pageCount⟩, rfl⟩

/-- The pages of a site map are those that the records name, in the order of first
occurrence, and each is made from its own records, whatever their order. -/
theorem pages_of_siteMap {crawl ids : Json} {s t : Surroundings} {site : SiteMap}
    (h : siteMap crawl ids s = (.ok site, t)) :
    ∃ start u records v,
      Run.querySingle crawlQuery [("crawl_id", crawl)] s = (.ok start, u) ∧
      Run.query rowsQuery [("crawl_id", crawl), ("page_ids", ids)] u = (.ok records, v) ∧
      List.Forall₂ (fun id page => PageOf (recordsWith "page_id" id records) page) (pageIds records)
        site.pages ∧
      site.pageCount = (pageIds records).length := by
  obtain ⟨start, u, records, v, hstart, hrecords, hmade⟩ := exists_of_siteMap h
  obtain ⟨gathered, hgather, -, hpages⟩ := hmade.pages
  have hgrouped := Grouped.nil.gather hgather
  rw [List.nil_append] at hgrouped
  refine ⟨start, u, records, v, hstart, hrecords, ?_, ?_⟩
  · rw [pageIds, ← hgrouped.keys, List.forall₂_map_left_iff]
    refine ((List.forall₂_and_left _ _).mpr ⟨hgrouped.made, hpages⟩).imp ?_
    rintro entry page ⟨hmade, hpage⟩
    exact hmade.pageOf hpage
  · rw [hmade.pageCount, ← hpages.length_eq, pageIds, ← hgrouped.keys, List.length_map]

/-! ## Records in no order -/

def mixedRow (page element action : String) : Json :=
  .obj [("page_id", .str page), ("url", .str ("http://" ++ page ++ ".co")), ("title", .str page),
    ("screenshot_path", .null), ("element_id", .str element), ("selector", .str ("#" ++ element)),
    ("selector_strategy", .str "css"), ("element_type", .str "input"), ("text", .null),
    ("attributes", .null), ("action_type", .str action), ("target_url", .null), ("value", .null)]

def mixedRows : List Json :=
  [mixedRow "b" "e" "fill", mixedRow "a" "e" "hover", mixedRow "b" "" "", mixedRow "b" "d" "click",
    mixedRow "b" "e" "click", mixedRow "a" "e" ""]

def mixedStore : Surroundings :=
  { Crawl.Crawler.sampleSurroundings (Web.ofTable []) with
    store := ⟨none, ⟨[], fun log =>
      some (.ok (if log.length = 1 then [.obj [("base_url", .str "http://a.co")]] else mixedRows))⟩, 0⟩
    now := ⟨63082281600000000, ""⟩ }

def outline (site : SiteMap) : List (String × List String × List (ActionKind × String)) :=
  site.pages.map fun page =>
    (page.title, page.elements.map Element.selector,
      page.interactions.map fun interaction => (interaction.kind, interaction.element.selector))

theorem pages_of_mixedRows : ∃ site t, siteMap (.str "c") (.arr []) mixedStore = (.ok site, t) ∧
    outline site = [("b", ["#e", "#d"], [(.fill, "#e"), (.click, "#e"), (.click, "#d")]),
      ("a", ["#e"], [(.hover, "#e")])] ∧
    ∃ start u records v,
      Run.querySingle crawlQuery [("crawl_id", .str "c")] mixedStore = (.ok start, u) ∧
      Run.query rowsQuery [("crawl_id", .str "c"), ("page_ids", .arr [])] u = (.ok records, v) ∧
      List.Forall₂ (fun id page => PageOf (recordsWith "page_id" id records) page) (pageIds records)
        site.pages ∧
      site.pageCount = (pageIds records).length := by
  have hfound : ((siteMap (.str "c") (.arr []) mixedStore).1.toOption.map outline) =
      some [("b", ["#e", "#d"], [(.fill, "#e"), (.click, "#e"), (.click, "#d")]),
        ("a", ["#e"], [(.hover, "#e")])] := by
    decide +kernel
  rcases hsite : siteMap (.str "c") (.arr []) mixedStore with ⟨fault | site, t⟩ <;> rw [hsite] at hfound
  · cases hfound
  · exact ⟨site, t, rfl, Option.some.inj hfound, pages_of_siteMap hsite⟩

end Sitecheck.Graph
