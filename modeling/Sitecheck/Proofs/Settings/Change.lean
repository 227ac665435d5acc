import Sitecheck.Proofs.Json.Table
import Sitecheck.Proofs.Settings.Reading

/-!
# Changing the settings file

The settings file is replaced by the changed document if there is one
(`rewriteFile_of_changed`), and stays as it was otherwise (`rewriteFile_of_unchanged`).
A change of one section is taken up if the settings file can be read as an object
and the section is an object or not there yet; it sets the members that it names and
leaves all else as it is (`rewriteFile_of_takes`).
-/

namespace Sitecheck

theorem Json.Bounded.writes {levels : Nat} {value : Json} (h : Json.Bounded levels value) :
    value.Writes := by
  refine ⟨h.regular, ?_⟩
  induction h with
  | null | bool | float | str => exact fun _ _ => rfl
  | int hvalue =>
    intro layout depth
    rw [Json.draftValue, hvalue]
    rfl
  | arr _ ih =>
    exact fun layout depth =>
      Json.draftItems_eq_none (fun item hitem => ih item hitem layout (depth + 1)) _
  | obj _ _ ih =>
    exact fun layout depth =>
      Json.draftFields_eq_none (fun field hfield => ih field hfield layout (depth + 1)) _

namespace Settings

variable {name text : String} {fields changes updates : List (String × Json)} {found : Option Json}
  {disk : Disk} {path : Path} {document : Json}

open Run

/-! ## Documents -/

def isOpen : Option Json → Bool
  | none => true
  | some (.obj _) => true
  | some _ => false

def sectionAfter (changes : List (String × Json)) : Option Json → Json
  | some (.obj members) => .obj (Fields.update changes members)
  | _ => .obj changes

def membersAfter (name : String) (changes fields : List (String × Json)) : List (String × Json) :=
  Fields.set name (sectionAfter changes (Fields.get? name fields)) fields

def textAfter (name : String) (changes fields : List (String × Json)) : String :=
  (Json.obj (membersAfter name changes fields)).pretty

theorem changeSection_obj (changes members : List (String × Json)) :
    changeSection (.obj changes) (.obj members) = .ok (.obj (Fields.update changes members)) := by
  rw [← Json.ofTable_map (Fields.update changes members), ← Json.putPairs_map]
  rfl

theorem changeAll_of_open (h : isOpen (Fields.get? name fields) = true)
    (changes : List (String × Json)) :
    changeAll (.obj fields) [(name, .obj changes)] = .ok (.obj (membersAfter name changes fields)) := by
  have hchange : changeDocument (.obj fields) name (.obj changes) =
      .ok (.obj (membersAfter name changes fields)) := by
    cases hsection : Fields.get? name fields with
    | none => simp only [changeDocument, membersAfter, hsection, sectionAfter]
    | some found =>
      rw [hsection] at h
      cases found with
      | obj =>
        simp only [changeDocument, membersAfter, hsection, sectionAfter, changeSection_obj]
        rfl
      | _ => cases h
  rw [changeAll, hchange]
  rfl

theorem changeAll_of_not_open (h : isOpen (Fields.get? name fields) = false)
    (changes : List (String × Json)) :
    ∃ fault, changeAll (.obj fields) [(name, .obj changes)] = .error fault := by
  cases hsection : Fields.get? name fields with
  | none =>
    rw [hsection] at h
    cases h
  | some found =>
    rw [hsection] at h
    cases found with
    | obj => cases h
    | _ =>
      simp only [changeAll, changeDocument, hsection]
      exact ⟨_, rfl⟩

theorem writes_sectionAfter (hchanges : ∀ change ∈ changes, Json.Writes change.2)
    (h : ∀ value, found = some value → ∃ levels, Json.Bounded levels value) :
    Json.Writes (sectionAfter changes found) := by
  unfold sectionAfter
  split
  · obtain ⟨levels, hbounded⟩ := h _ rfl
    cases hbounded with
    | obj hmembers =>
      refine Json.writes_obj fun field hfield => ?_
      rcases Fields.mem_of_mem_update hfield with hfield | hfield
      · exact hchanges field hfield
      · exact (hmembers field hfield).writes
  · exact Json.writes_obj hchanges

theorem writes_membersAfter (name : String) (hchanges : ∀ change ∈ changes, Json.Writes change.2)
    {levels : Nat} (h : Json.Bounded levels (.obj fields)) :
    Json.Writes (.obj (membersAfter name changes fields)) := by
  cases h with
  | obj hfields =>
    refine Json.writes_obj fun field hfield => ?_
    rcases Fields.mem_of_mem_set hfield with rfl | hfield
    · exact writes_sectionAfter hchanges fun value hvalue =>
        ⟨_, hfields _ (Fields.mem_of_get? hvalue)⟩
    · exact (hfields field hfield).writes

/-! ## The file -/

def Holds (disk : Disk) (fields : List (String × Json)) : Prop :=
  ∃ text, disk.read filePath = .ok text ∧ Json.parse text = .ok (.obj fields)

theorem Holds.unique {fields' : List (String × Json)} (h : Holds disk fields)
    (h' : Holds disk fields') : fields = fields' := by
  obtain ⟨text, hread, hparse⟩ := h
  obtain ⟨text', hread', hparse'⟩ := h'
  obtain rfl : text = text' := Except.ok.inj (hread.symm.trans hread')
  exact Json.obj.inj (Except.ok.inj (hparse.symm.trans hparse'))

structure Takes (disk : Disk) (name : String) (fields : List (String × Json)) : Prop where
  document : Holds disk fields
  opened : isOpen (Fields.get? name fields) = true

variable {s : Surroundings} {name : String} {changes fields : List (String × Json)}

private theorem fieldsFor_obj (member : String) (fields : List (String × Json)) :
    Json.fieldsFor member (.obj fields) = .ok fields := rfl

theorem writeJson_of_write (hwrites : document.Writes)
    (hwrite : s.disk.write path document.pretty = .ok disk) :
    writeJson path document s = (.ok (), { s with disk := disk }) := by
  have hscalar := Text.isScalar_of_not_mem (Json.not_mem_pretty hwrites.regular (by decide))
  unfold writeJson
  rw [hwrites.draft]
  exact writeFile_of_write hwrite hscalar

theorem rewriteFile_of_changed {changed : Json} (hread : s.disk.read filePath = .ok text)
    (hparse : Json.parse text = .ok document) (hchange : changeAll document updates = .ok changed)
    (hwrites : changed.Writes) :
    ∃ location found, s.disk.place filePath = .ok location ∧
      s.disk.entry? location = some (.file found) ∧
      rewriteFile (.obj updates) s =
        (.ok (), { s with disk := s.disk.put location (.file changed.pretty) }) := by
  obtain ⟨location, found, hplace, hentry, -⟩ := Disk.place_of_read hread
  refine ⟨location, found, hplace, hentry, ?_⟩
  have hload := loadJson?_of_read hread
  rw [hparse] at hload
  rw [rewriteFile, bind_of_ok hload]
  dsimp only
  rw [fieldsFor_obj, bind_of_ok (lift_apply _ s), hchange, bind_of_ok (lift_apply _ s)]
  exact writeJson_of_write hwrites (Disk.write_of_file hplace hentry _)

theorem rewriteFile_of_unchanged
    (h : ∀ text document, s.disk.read filePath = .ok text → Json.parse text = .ok document →
      ∃ fault, changeAll document updates = .error fault) :
    ∃ fault, rewriteFile (.obj updates) s = (.error fault, s) := by
  unfold rewriteFile
  have hload := (reads_loadJson? filePath).apply s
  cases hfound : (loadJson? filePath s).1 with
  | error fault =>
    rw [hfound] at hload
    exact ⟨fault, bind_of_error hload⟩
  | ok found =>
    rw [hfound] at hload
    rw [bind_of_ok hload]
    cases found with
    | none => exact ⟨_, rfl⟩
    | some document =>
      obtain ⟨text, hread, hparse⟩ := exists_of_loadJson? hload
      obtain ⟨fault, hfault⟩ := h text document hread hparse
      dsimp only
      rw [fieldsFor_obj, bind_of_ok (lift_apply _ s), hfault]
      exact ⟨fault, rfl⟩

theorem rewriteFile_of_takes (h : Takes s.disk name fields)
    (hchanges : ∀ change ∈ changes, Json.Writes change.2) :
    ∃ location found, s.disk.place filePath = .ok location ∧
      s.disk.entry? location = some (.file found) ∧
      rewriteFile (.obj [(name, .obj changes)]) s =
        (.ok (), { s with disk := s.disk.put location (.file (textAfter name changes fields)) }) := by
  obtain ⟨text, hread, hparse⟩ := h.document
  exact rewriteFile_of_changed hread hparse (changeAll_of_open h.opened changes)
    (writes_membersAfter name hchanges (Json.bounded_of_parse hparse))

theorem rewriteFile_of_not_takes (h : ∀ fields, ¬ Takes s.disk name fields)
    (changes : List (String × Json)) :
    ∃ fault, rewriteFile (.obj [(name, .obj changes)]) s = (.error fault, s) := by
  refine rewriteFile_of_unchanged fun text document hread hparse => ?_
  cases document with
  | obj fields =>
    refine changeAll_of_not_open (Bool.eq_false_iff.mpr fun hopen => ?_) _
    exact h fields ⟨⟨text, hread, hparse⟩, hopen⟩
  | _ => exact ⟨_, rfl⟩

/-! ## The changed file -/

theorem kept_sectionAfter {levels : Nat} (hnodup : (changes.map Prod.fst).Nodup)
    (hchanges : ∀ change ∈ changes, Text.reread change.1 = change.1 ∧ Json.Kept levels change.2)
    (h : ∀ value, found = some value → Json.Kept (levels + 1) value) :
    Json.Kept (levels + 1) (sectionAfter changes found) := by
  unfold sectionAfter
  split
  · obtain ⟨hmembers, hkept⟩ := Json.kept_obj_iff.mp (h _ rfl)
    refine Json.kept_obj_iff.mpr ⟨Fields.nodup_update hmembers, fun field hfield => ?_⟩
    rcases Fields.mem_of_mem_update hfield with hfield | hfield
    · exact hchanges field hfield
    · exact hkept field hfield
  · exact Json.kept_obj_iff.mpr ⟨hnodup, hchanges⟩

theorem kept_membersAfter (levels : Nat) (hname : Text.reread name = name)
    (hnodup : (changes.map Prod.fst).Nodup)
    (hchanges : ∀ change ∈ changes, Text.reread change.1 = change.1 ∧ Json.Kept levels change.2)
    (h : Json.Kept (levels + 2) (.obj fields)) :
    Json.Kept (levels + 2) (.obj (membersAfter name changes fields)) := by
  obtain ⟨hfields, hkept⟩ := Json.kept_obj_iff.mp h
  refine Json.kept_obj_iff.mpr ⟨Fields.nodup_set hfields, fun field hfield => ?_⟩
  rcases Fields.mem_of_mem_set hfield with rfl | hfield
  · exact ⟨hname, kept_sectionAfter hnodup hchanges fun value hvalue =>
      (hkept _ (Fields.mem_of_get? hvalue)).2⟩
  · exact hkept field hfield

theorem read_put {location : List String} {found : String} (hparts : path.parts ≠ [])
    (hplace : disk.place path = .ok location) (hentry : disk.entry? location = some (.file found))
    (htext : '\r' ∉ text.toList) :
    (disk.put location (.file text)).read path = .ok text :=
  Disk.read_of_look htext (Disk.look_of_write hparts (Disk.write_of_file hplace hentry text))

end Settings

end Sitecheck
