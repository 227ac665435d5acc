import Sitecheck.Proofs.Settings.Change

/-!
# Many changes at once

Updates name sections of the settings file and give what is to be put into them.  They are
taken up together, or the file and the settings at hand stay as they were; and objects that
are put in a second time leave the file as it is (`change_atomic`).
-/

namespace Sitecheck.Settings

variable {changes : List (String × Json)} {document : Json}

open Run

/-! ## Documents before and after -/

def Given (updates : List (String × Json)) : Prop :=
  ∃ text : String, Text.Plain text.toList ∧ Json.parse text = .ok (.obj updates)

def FileReads (disk : Disk) (document : Json) : Prop :=
  ∃ text, disk.read filePath = .ok text ∧ Json.parse text = .ok document

/-- A document can take updates: what is named and there is an object, and members are
given for it. -/
def Fits (updates : List (String × Json)) : Json → Prop
  | .obj fields => ∀ update ∈ updates, ∀ found, Fields.get? update.1 fields = some found →
      (∃ members, found = .obj members) ∧ ∃ rows, update.2.table = .ok rows
  | _ => updates = []

/-- A section after what is given for it: members are set in an object, and a section that
is not there is what is given. -/
def MergedSection (given : Json) : Option Json → Json → Prop
  | none, after => after = given
  | some (.obj members), after => ∃ rows members', given.table = .ok rows ∧ after = .obj members' ∧
      Fields.Merged (Json.named rows) members members'
  | some _, _ => False

/-- The sections of a document after updates. -/
structure MergedSections (updates before after : List (String × Json)) : Prop where
  keys : ∃ new, after.map Prod.fst = before.map Prod.fst ++ new ∧
    ∀ name ∈ new, name ∈ updates.map Prod.fst
  updated : ∀ update ∈ updates, ∃ value, Fields.get? update.1 after = some value ∧
    MergedSection update.2 (Fields.get? update.1 before) value
  others : ∀ name, name ∉ updates.map Prod.fst → Fields.get? name after = Fields.get? name before

/-- A document after updates; one without sections takes none. -/
def Merged (updates : List (String × Json)) : Json → Json → Prop
  | .obj fields, after => ∃ fields', after = .obj fields' ∧ MergedSections updates fields fields'
  | document, after => updates = [] ∧ after = document

/-! ## One section after the other -/

/-- What is put in for an update: the section that is there with what is given for it, or
what is given if there is none. -/
def newSection (fields : List (String × Json)) (update : String × Json) : Except Fault (String × Json) :=
  match Fields.get? update.1 fields with
  | none => .ok update
  | some found => do return (update.1, ← changeSection update.2 found)

variable {fields updates values : List (String × Json)} {update value : String × Json}

theorem newSection_eq_ok_iff : newSection fields update = .ok value ↔
    Fields.get? update.1 fields = none ∧ value = update ∨
      ∃ found, Fields.get? update.1 fields = some found ∧ value.1 = update.1 ∧
        changeSection update.2 found = .ok value.2 := by
  unfold newSection
  cases hfound : Fields.get? update.1 fields with
  | none => simp [eq_comm]
  | some found =>
    simp only [bind_eq_ok_iff]
    constructor
    · rintro ⟨after, hafter, h⟩
      cases h
      exact .inr ⟨found, rfl, rfl, hafter⟩
    · rintro (⟨h, -⟩ | ⟨found', hfound', hname, hafter⟩)
      · cases h
      · cases hfound'
        exact ⟨value.2, hafter, by rw [← hname]; rfl⟩

theorem key_newSection (h : newSection fields update = .ok value) : value.1 = update.1 := by
  rcases newSection_eq_ok_iff.mp h with ⟨-, rfl⟩ | ⟨-, -, hname, -⟩
  · rfl
  · exact hname

theorem changeDocument_obj (fields : List (String × Json)) (update : String × Json) :
    changeDocument (.obj fields) update.1 update.2 =
      (newSection fields update).map fun value => .obj (Fields.set value.1 value.2 fields) := by
  unfold newSection
  cases hfound : Fields.get? update.1 fields with
  | none => simp only [changeDocument, hfound, Except.map]
  | some found =>
    simp only [changeDocument, hfound]
    cases changeSection update.2 found <;> rfl

theorem changeAll_obj (hnodup : (updates.map Prod.fst).Nodup) (fields : List (String × Json)) :
    changeAll (.obj fields) updates =
      (updates.mapM (newSection fields)).map fun values => .obj (Fields.update values fields) := by
  induction updates generalizing fields with
  | nil => rfl
  | cons update updates ih =>
    obtain ⟨hnot, hnodup⟩ := List.nodup_cons.mp hnodup
    rw [changeAll, changeDocument_obj, List.mapM_cons]
    cases hnew : newSection fields update with
    | error => rfl
    | ok value =>
      have hothers : updates.mapM (newSection (Fields.set value.1 value.2 fields)) =
          updates.mapM (newSection fields) := by
        refine mapM_congr fun other hother => ?_
        have hne : other.1 ≠ value.1 := fun heq => by
          rw [key_newSection hnew] at heq
          exact hnot (heq ▸ List.mem_map_of_mem hother)
        rw [newSection, newSection, Fields.get?_set_of_ne hne]
      have hrest := ih hnodup (Fields.set value.1 value.2 fields)
      rw [hothers] at hrest
      refine hrest.trans ?_
      cases updates.mapM (newSection fields) <;> rfl

theorem changeAll_eq_ok_iff (hnodup : (updates.map Prod.fst).Nodup) {changed : Json} :
    changeAll (.obj fields) updates = .ok changed ↔
      ∃ values, List.Forall₂ (fun update value => newSection fields update = .ok value) updates values ∧
        changed = .obj (Fields.update values fields) := by
  rw [changeAll_obj hnodup]
  constructor
  · intro h
    cases hvalues : updates.mapM (newSection fields) with
    | error =>
      rw [hvalues] at h
      cases h
    | ok values =>
      rw [hvalues] at h
      cases h
      exact ⟨values, mapM_eq_ok_iff.mp hvalues, rfl⟩
  · rintro ⟨values, hvalues, rfl⟩
    rw [mapM_eq_ok_iff.mpr hvalues]
    rfl

theorem keys_of_newSections
    (h : List.Forall₂ (fun update value => newSection fields update = .ok value) updates values) :
    values.map Prod.fst = updates.map Prod.fst := by
  induction h with
  | nil => rfl
  | cons hvalue _ ih => rw [List.map_cons, List.map_cons, key_newSection hvalue, ih]

theorem changeSection_eq_ok_iff {given found after : Json} : changeSection given found = .ok after ↔
    ∃ members pairs, found = .obj members ∧ given.pairs = .ok pairs ∧
      after = .ofTable (Json.putPairs pairs (members.map fun field => (.str field.1, field.2))) := by
  constructor
  · intro h
    obtain ⟨members, hmembers, h⟩ := bind_eq_ok_iff.mp h
    obtain ⟨pairs, hpairs, h⟩ := bind_eq_ok_iff.mp h
    cases h
    cases found with
    | obj =>
      cases hmembers
      exact ⟨_, pairs, rfl, hpairs, rfl⟩
    | _ => cases hmembers
  · rintro ⟨members, pairs, rfl, hpairs, rfl⟩
    exact bind_eq_ok_iff.mpr ⟨members, rfl, bind_eq_ok_iff.mpr ⟨pairs, hpairs, rfl⟩⟩

/-! ## Sections that are put in -/

variable {levels : Nat}

/-- A section in which a name can stand twice, and all else is read back as it is. -/
def Loose (levels : Nat) (value : Json) : Prop :=
  Json.Kept (levels + 1) value ∨
    ∃ rows, value = .obj rows ∧ ∀ row ∈ rows, Text.reread row.1 = row.1 ∧ Json.Kept levels row.2

/-- A section as it is read back: of two members of one name the later one stays. -/
def tidied : Json → Json
  | .obj members => .obj (Fields.update members [])
  | value => value

theorem tidied_of_kept {value : Json} (h : Json.Kept (levels + 1) value) : tidied value = value := by
  cases value with
  | obj => exact congrArg Json.obj (Fields.update_nil_of_nodup (Json.kept_obj_iff.mp h).1)
  | _ => rfl

theorem Loose.writes {value : Json} (h : Loose levels value) : value.Writes := by
  rcases h with hkept | ⟨rows, rfl, hrows⟩
  · exact hkept.bounded.writes
  · exact Json.writes_obj fun row hrow => (hrows row hrow).2.bounded.writes

theorem Loose.readsAs {value : Json} (h : Loose levels value) (layout : Json.Layout) (depth : Nat) :
    Json.ReadsAs (levels + 1) layout depth value (tidied value) := by
  rcases h with hkept | ⟨rows, rfl, hrows⟩
  · have hread := hkept.storable.readsBack layout depth
    rw [hkept.reread] at hread
    rwa [tidied_of_kept hkept]
  · have hread := Json.readsAs_obj Json.reread fun row hrow =>
      (hrows row hrow).2.storable.readsBack layout (depth + 1)
    have hsame : (rows.map fun row => (Text.reread row.1, row.2.reread)) = rows := by
      rw [← Json.rereadFields_eq_map]
      exact Json.rereadFields_eq_self fun row hrow => ⟨(hrows row hrow).1, (hrows row hrow).2.reread⟩
    rwa [hsame] at hread

/-- The section that is put in is read back as the section that was there with what is
given for it. -/
theorem merged_newSection (hfields : Json.Kept (levels + 2) (.obj fields))
    (hgiven : Json.Kept (levels + 1) update.2) (h : newSection fields update = .ok value) :
    Loose levels value.2 ∧ MergedSection update.2 (Fields.get? update.1 fields) (tidied value.2) := by
  rcases newSection_eq_ok_iff.mp h with ⟨hfound, rfl⟩ | ⟨found, hfound, -, hchange⟩
  · rw [hfound]
    exact ⟨.inl hgiven, tidied_of_kept hgiven⟩
  · obtain ⟨members, pairs, rfl, hpairs, hvalue⟩ := changeSection_eq_ok_iff.mp hchange
    obtain ⟨hnodup, hmembers⟩ := Json.kept_obj_iff.mp
      ((Json.kept_obj_iff.mp hfields).2 _ (Fields.mem_of_get? hfound)).2
    obtain ⟨front, back, hput, hoverlay⟩ := Json.overlay_putPairs
      (fun row hrow => by
        obtain ⟨field, -, rfl⟩ := List.mem_map.mp hrow
        exact ⟨field.1, rfl⟩)
      (Json.distinct_texts hnodup) pairs
    rw [hput, Json.ofTable_eq] at hvalue
    have hrows : ∀ row ∈ Json.putPairs pairs [], Json.KeptPair levels row :=
      Json.forall_putPairs (K := fun key => Text.reread (Json.keyName key) = Json.keyName key)
        (Json.kept_of_pairs hgiven hpairs) (by simp)
    have hold : ∀ row ∈ members.map fun field => (.str field.1, field.2), Json.KeptPair levels row := by
      intro row hrow
      obtain ⟨field, hfield, rfl⟩ := List.mem_map.mp hrow
      exact hmembers field hfield
    rw [hfound, hvalue]
    refine ⟨.inr ⟨_, rfl, fun row hrow => ?_⟩, Json.putPairs pairs [], _,
      (Json.table_eq_ok_iff hgiven).mpr ⟨pairs, hpairs, rfl⟩, rfl, hoverlay.merged hnodup⟩
    obtain ⟨pair, hpair, rfl⟩ := List.mem_map.mp hrow
    rcases List.mem_append.mp hpair with hpair | hpair
    · rcases hoverlay.of_front pair hpair with hpair | hpair
      · exact hrows pair hpair
      · exact hold pair hpair
    · exact hrows pair (hoverlay.of_back pair hpair)

theorem exists_newSection_iff (hgiven : Json.Kept (levels + 1) update.2) :
    (∃ value, newSection fields update = .ok value) ↔
      ∀ found, Fields.get? update.1 fields = some found →
        (∃ members, found = .obj members) ∧ ∃ rows, update.2.table = .ok rows := by
  constructor
  · rintro ⟨value, hvalue⟩ found hfound
    rcases newSection_eq_ok_iff.mp hvalue with ⟨hnone, -⟩ | ⟨found', hfound', -, hchange⟩
    · rw [hfound] at hnone
      cases hnone
    · cases hfound.symm.trans hfound'
      obtain ⟨members, pairs, rfl, hpairs, -⟩ := changeSection_eq_ok_iff.mp hchange
      exact ⟨⟨members, rfl⟩, _, (Json.table_eq_ok_iff hgiven).mpr ⟨pairs, hpairs, rfl⟩⟩
  · intro h
    cases hfound : Fields.get? update.1 fields with
    | none => exact ⟨update, newSection_eq_ok_iff.mpr (.inl ⟨hfound, rfl⟩)⟩
    | some found =>
      obtain ⟨⟨members, rfl⟩, rows, hrows⟩ := h found hfound
      obtain ⟨pairs, hpairs, -⟩ := (Json.table_eq_ok_iff hgiven).mp hrows
      obtain ⟨after, hafter⟩ : ∃ after, changeSection update.2 (.obj members) = .ok after :=
        ⟨_, changeSection_eq_ok_iff.mpr ⟨members, pairs, rfl, hpairs, rfl⟩⟩
      exact ⟨(update.1, after), newSection_eq_ok_iff.mpr (.inr ⟨_, hfound, rfl, hafter⟩)⟩

/-! ## Documents that are put in the place of the file -/

theorem exists_changeAll_iff (hupdates : Json.Kept (levels + 2) (.obj updates)) (document : Json) :
    (∃ changed, changeAll document updates = .ok changed) ↔ Fits updates document := by
  obtain ⟨hnodup, hgiven⟩ := Json.kept_obj_iff.mp hupdates
  cases document with
  | obj =>
    constructor
    · rintro ⟨changed, hchanged⟩ update hupdate
      obtain ⟨values, hvalues, -⟩ := (changeAll_eq_ok_iff hnodup).mp hchanged
      obtain ⟨value, -, hvalue⟩ := exists_of_mem_forall₂_left hvalues hupdate
      exact (exists_newSection_iff (hgiven update hupdate).2).mp ⟨value, hvalue⟩
    · intro h
      obtain ⟨values, hvalues⟩ := exists_forall₂ fun update hupdate =>
        (exists_newSection_iff (hgiven update hupdate).2).mpr (h update hupdate)
      exact ⟨_, (changeAll_eq_ok_iff hnodup).mpr ⟨values, hvalues, rfl⟩⟩
  | _ =>
    cases updates with
    | nil => exact ⟨fun _ => rfl, fun _ => ⟨_, rfl⟩⟩
    | cons =>
      constructor
      · rintro ⟨changed, hchanged⟩
        cases hchanged
      · intro h
        cases h

theorem mergedSections_update
    (hvalues : List.Forall₂ (fun update value => newSection fields update = .ok value) updates values)
    (hnodup : (updates.map Prod.fst).Nodup) (hfields : Json.Kept (levels + 2) (.obj fields))
    (hgiven : ∀ update ∈ updates, Json.Kept (levels + 1) update.2) :
    MergedSections updates fields
      (Fields.update (values.map fun value => (value.1, tidied value.2)) fields) := by
  have hkeys : (values.map fun value => (value.1, tidied value.2)).map Prod.fst =
      updates.map Prod.fst := by
    rw [List.map_map, ← keys_of_newSections hvalues]
    rfl
  have hamended := Fields.amended_update (hkeys ▸ hnodup) fields
  refine ⟨hkeys ▸ hamended.keys, fun update hupdate => ?_, fun name hname => ?_⟩
  · obtain ⟨value, hvalue, hnew⟩ := exists_of_mem_forall₂_left hvalues hupdate
    refine ⟨tidied value.2, ?_, (merged_newSection hfields (hgiven update hupdate) hnew).2⟩
    rw [← key_newSection hnew]
    exact hamended.changed _ (List.mem_map_of_mem hvalue)
  · exact hamended.others name (hkeys ▸ hname)

theorem parse_update (hfields : Json.Kept Json.maxDepth (.obj fields))
    (hvalues : ∀ value ∈ values, Text.reread value.1 = value.1 ∧ Loose 983 value.2) :
    (Json.obj (Fields.update values fields)).Writes ∧
      Json.parse (Json.obj (Fields.update values fields)).pretty =
        .ok (.obj (Fields.update (values.map fun value => (value.1, tidied value.2)) fields)) := by
  obtain ⟨hnodup, hkept⟩ := Json.kept_obj_iff.mp hfields
  have hall : ∀ section_ ∈ Fields.update values fields,
      Text.reread section_.1 = section_.1 ∧ Loose 983 section_.2 := by
    intro section_ hsection
    rcases Fields.mem_of_mem_update hsection with hmem | hmem
    · exact hvalues section_ hmem
    · exact ⟨(hkept section_ hmem).1, .inl (hkept section_ hmem).2⟩
  refine ⟨Json.writes_obj fun section_ hsection => (hall section_ hsection).2.writes, ?_⟩
  have hread := Json.readsAs_obj tidied fun section_ hsection =>
    (hall section_ hsection).2.readsAs (Json.Layout.block 2) 1
  have hnames : ((Fields.update values fields).map fun section_ =>
      (Text.reread section_.1, tidied section_.2)) =
      (Fields.update values fields).map fun section_ => (section_.1, tidied section_.2) :=
    List.map_congr_left fun section_ hsection => by rw [(hall section_ hsection).1]
  have hsame : (fields.map fun field => (field.1, tidied field.2)) = fields := by
    refine (List.map_congr_left fun field hfield => ?_).trans (List.map_id _)
    rw [tidied_of_kept (hkept field hfield).2]
    rfl
  rw [hnames, Fields.update_nil_of_nodup, Fields.map_update, hsame] at hread
  · exact hread.parse_write
  · rw [List.map_map]
    exact Fields.nodup_update hnodup

/-! ## The same objects a second time -/

theorem exists_of_newSection (hfields : Json.Kept (levels + 2) (.obj fields))
    (hchanges : (changes.map Prod.fst).Nodup) (hupdate : update.2 = .obj changes)
    (h : newSection fields update = .ok value) :
    ∃ members, (members.map Prod.fst).Nodup ∧
      value = (update.1, .obj (Fields.update changes members)) := by
  obtain ⟨name, given⟩ := update
  obtain rfl : given = .obj changes := hupdate
  rcases newSection_eq_ok_iff.mp h with ⟨-, rfl⟩ | ⟨found, hfound, hname, hchange⟩
  · exact ⟨[], List.nodup_nil, by rw [Fields.update_nil_of_nodup hchanges]⟩
  · obtain ⟨members, -, rfl, -, -⟩ := changeSection_eq_ok_iff.mp hchange
    rw [changeSection_obj] at hchange
    have hkept := ((Json.kept_obj_iff.mp hfields).2 _ (Fields.mem_of_get? hfound)).2
    exact ⟨members, (Json.kept_obj_iff.mp hkept).1, Prod.ext hname (Except.ok.inj hchange).symm⟩

theorem newSection_again {members : List (String × Json)} (hchanges : (changes.map Prod.fst).Nodup)
    (hupdate : update.2 = .obj changes)
    (hfound : Fields.get? update.1 fields = some (.obj (Fields.update changes members))) :
    newSection fields update = .ok (update.1, .obj (Fields.update changes members)) := by
  refine newSection_eq_ok_iff.mpr (.inr ⟨_, hfound, rfl, ?_⟩)
  rw [hupdate, changeSection_obj, Fields.update_update hchanges]

theorem changeAll_again
    (hvalues : List.Forall₂ (fun update value => newSection fields update = .ok value) updates values)
    (hnodup : (updates.map Prod.fst).Nodup) (hfields : Json.Kept (levels + 2) (.obj fields))
    (hgiven : ∀ update ∈ updates, Json.Kept (levels + 1) update.2)
    (hobjects : ∀ update ∈ updates, ∃ changes, update.2 = .obj changes) :
    changeAll (.obj (Fields.update values fields)) updates = .ok (.obj (Fields.update values fields)) ∧
      (values.map fun value => (value.1, tidied value.2)) = values := by
  have hkeys : (values.map Prod.fst).Nodup := keys_of_newSections hvalues ▸ hnodup
  have heach : ∀ update ∈ updates, ∀ value, newSection fields update = .ok value →
      ∃ changes members, update.2 = .obj changes ∧ (changes.map Prod.fst).Nodup ∧
        (members.map Prod.fst).Nodup ∧ value = (update.1, .obj (Fields.update changes members)) := by
    intro update hupdate value hnew
    obtain ⟨changes, hchanges⟩ := hobjects update hupdate
    have hkept := hgiven update hupdate
    rw [hchanges] at hkept
    have hnodup := (Json.kept_obj_iff.mp hkept).1
    obtain ⟨members, hmembers, hvalue⟩ := exists_of_newSection hfields hnodup hchanges hnew
    exact ⟨changes, members, hchanges, hnodup, hmembers, hvalue⟩
  constructor
  · refine (changeAll_eq_ok_iff hnodup).mpr ⟨values, ?_, by rw [Fields.update_update hkeys]⟩
    refine forall₂_of_mem hvalues fun update hupdate value hvalue hnew => ?_
    obtain ⟨changes, members, hchanges, hnodup, -, rfl⟩ := heach update hupdate value hnew
    exact newSection_again hnodup hchanges (Fields.get?_update_of_mem hkeys hvalue)
  · refine (List.map_congr_left fun value hvalue => ?_).trans (List.map_id _)
    obtain ⟨update, hupdate, hnew⟩ := exists_of_mem_forall₂ hvalues hvalue
    obtain ⟨changes, members, -, -, hmembers, rfl⟩ := heach update hupdate value hnew
    exact Prod.ext rfl (congrArg Json.obj (Fields.update_nil_of_nodup (Fields.nodup_update hmembers)))

theorem exists_changed (hdocument : Json.Kept Json.maxDepth document)
    (hupdates : Json.Kept Json.maxDepth (.obj updates)) (hfits : Fits updates document) :
    ∃ changed after, changeAll document updates = .ok changed ∧ changed.Writes ∧
      Json.parse changed.pretty = .ok after ∧ Merged updates document after ∧
      ((∀ update ∈ updates, ∃ changes, update.2 = .obj changes) →
        after = changed ∧ changeAll changed updates = .ok changed) := by
  obtain ⟨hnodup, hgiven⟩ := Json.kept_obj_iff.mp hupdates
  obtain ⟨changed, hchanged⟩ := (exists_changeAll_iff hupdates document).mpr hfits
  cases document with
  | obj =>
    obtain ⟨values, hvalues, rfl⟩ := (changeAll_eq_ok_iff hnodup).mp hchanged
    have hloose : ∀ value ∈ values, Text.reread value.1 = value.1 ∧ Loose 983 value.2 := by
      intro value hvalue
      obtain ⟨update, hupdate, hnew⟩ := exists_of_mem_forall₂ hvalues hvalue
      rw [key_newSection hnew]
      exact ⟨(hgiven update hupdate).1, (merged_newSection hdocument (hgiven update hupdate).2 hnew).1⟩
    obtain ⟨hwrites, hparse⟩ := parse_update hdocument hloose
    refine ⟨_, _, hchanged, hwrites, hparse, ⟨_, rfl, ?_⟩, fun hobjects => ?_⟩
    · exact mergedSections_update hvalues hnodup hdocument fun update hupdate =>
        (hgiven update hupdate).2
    · obtain ⟨hagain, hsame⟩ := changeAll_again hvalues hnodup hdocument
        (fun update hupdate => (hgiven update hupdate).2) hobjects
      exact ⟨by rw [hsame], hagain⟩
  | _ =>
    -- a document without sections takes no updates, and is written as it is
    obtain rfl : updates = [] := hfits
    exact ⟨_, _, rfl, hdocument.bounded.writes, hdocument.parse_pretty, ⟨rfl, rfl⟩,
      fun _ => ⟨rfl, rfl⟩⟩

/-! ## The file and the settings at hand -/

def fewPages : List (String × Json) :=
  [("report", .obj [("title", .null)]), ("crawler", .obj [("max_pages", .int 5)])]

def withCrawler (crawler : Json) : Json := .obj [("crawler", crawler), ("api", .obj [])]

def filed (document : Json) : Surroundings :=
  { disk := ⟨[], .directory [("config", .directory [("config.json", .file document.pretty)])]⟩
    environment := [], now := ⟨0, ""⟩, tick := 1, uuids := [], loopTimes := [], replies := []
    embeddingReplies := [], embeddingPackage := false, store := ⟨none, .ofReplies [], 0⟩
    programs := [], browser := ⟨none, .ofTable [], .blank⟩, server := none, cache := .empty
    silence := .settings, tools := "", log := [] }

theorem kept_fewPages : Json.Kept Json.maxDepth (.obj fewPages) :=
  Json.kept_of_isStorable (by decide +kernel) (by with_unfolding_all rfl)

theorem given_of_kept (h : Json.Kept Json.maxDepth (.obj updates)) : Given updates :=
  ⟨_, Text.plain_of_not_mem (Json.not_mem_pretty h.bounded.regular (by decide)), h.parse_pretty⟩

theorem read_filed (h : Json.Kept Json.maxDepth document) :
    (filed document).disk.read filePath = .ok document.pretty :=
  Disk.read_of_look (Json.not_mem_pretty h.bounded.regular (by decide)) (by with_unfolding_all rfl)

theorem plain_filed (h : Json.Kept Json.maxDepth document) (text : String)
    (hread : (filed document).disk.read filePath = .ok text) : Text.Plain text.toList := by
  rw [read_filed h] at hread
  rw [← Except.ok.inj hread]
  exact Text.plain_of_not_mem (Json.not_mem_pretty h.bounded.regular (by decide))

end Sitecheck.Settings
