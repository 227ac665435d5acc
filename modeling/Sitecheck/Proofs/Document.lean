import Sitecheck.Proofs.Crawl.Visit
import Sitecheck.Proofs.Json.Reading

/-!
# Documents kept in files

A document is kept in a file if there is room for one (`saveJson_of_room`).  What is
loaded from the file is then the document itself, in the order of its members, and
never another one; it cannot be loaded if it is nested too deep, and not even be kept
if it has an integer of too many digits.
-/

namespace Sitecheck

namespace Server

variable {path : Path} {s t : Surroundings} {document : Json}

open Run

/-! ## Keeping -/

theorem writeFile_ok {text : String} (h : writeFile path text s = (.ok (), t)) :
    s.disk.write path text = .ok t.disk := by
  rw [writeFile_apply] at h
  cases hscalar : Text.isScalar text <;> rw [hscalar] at h <;> split at h <;> cases h
  assumption

theorem saveJson_ok (h : saveJson path document s = (.ok (), t)) :
    (∃ disk, Disk.write path document.pretty disk = .ok t.disk) ∧ document.draft = none := by
  obtain ⟨⟨⟩, made, -, h⟩ := exists_of_bind_ok h
  unfold writeJson at h
  cases hdraft : document.draft with
  | none =>
    rw [hdraft] at h
    exact ⟨⟨made.disk, writeFile_ok h⟩, rfl⟩
  | some =>
    rw [hdraft] at h
    obtain ⟨⟨⟩, _, _, hthrow⟩ := exists_of_bind_ok h
    cases hthrow

/-- The directory of a path can be made, and there is room for a file in it. -/
structure HasRoom (path : Path) (disk made : Disk) (location : List String) : Prop where
  directory : disk.makeDirectory path.parent = (.ok (), made)
  place : made.place path = .ok location
  free : ∀ entries, made.entry? location ≠ some (.directory entries)

theorem saveJson_of_room {levels : Nat} {made : Disk} {location : List String}
    (hroom : HasRoom path s.disk made location) (hdocument : Json.Storable levels document) :
    saveJson path document s =
      (.ok (), { s with disk := made.put location (.file document.pretty) }) := by
  have hmake : makeDirectory path.parent s = (.ok (), { s with disk := made }) := by
    rw [makeDirectory_apply, hroom.directory]
  have hwrite : made.write path document.pretty = .ok (made.put location (.file document.pretty)) := by
    unfold Disk.write
    simp only [hroom.place, bind, Except.bind]
    split
    · next entries hentry => exact absurd hentry (hroom.free entries)
    · rfl
  unfold saveJson writeJson
  rw [bind_of_ok hmake, hdocument.draft]
  exact writeFile_of_write hwrite (Json.isScalar_pretty hdocument)

end Server

namespace Json

variable {items : List Json} {levels depth : Nat} {fields : List (String × Json)} {value : Json}
  {layout : Layout} {lead : List Char}

/-! ## Plain documents -/

/-- Documents without numbers that have a fraction or an exponent, in which all texts are
plain and no object has a key twice. -/
inductive Plain : Json → Prop where
  | null : Plain .null
  | bool (value : Bool) : Plain (.bool value)
  | int (value : Int) : Plain (.int value)
  | str {text : String} : Text.Plain text.toList → Plain (.str text)
  | arr {items : List Json} : (∀ item ∈ items, Plain item) → Plain (.arr items)
  | obj {fields : List (String × Json)} : (∀ field ∈ fields, Text.Plain field.1.toList) →
    (∀ field ∈ fields, Plain field.2) → (fields.map Prod.fst).Nodup → Plain (.obj fields)

mutual

/-- How many containers stand around the innermost one, and this one. -/
def nesting : Json → Nat
  | .arr items => nestingItems items + 1
  | .obj fields => nestingFields fields + 1
  | _ => 0

def nestingItems : List Json → Nat
  | [] => 0
  | item :: items => max item.nesting (nestingItems items)

def nestingFields : List (String × Json) → Nat
  | [] => 0
  | (_, value) :: fields => max value.nesting (nestingFields fields)

end

mutual

def integers : Json → List Int
  | .int value => [value]
  | .arr items => integersItems items
  | .obj fields => integersFields fields
  | _ => []

def integersItems : List Json → List Int
  | [] => []
  | item :: items => item.integers ++ integersItems items

def integersFields : List (String × Json) → List Int
  | [] => []
  | (_, value) :: fields => value.integers ++ integersFields fields

end

theorem nestingItems_le_iff :
    nestingItems items ≤ levels ↔ ∀ item ∈ items, item.nesting ≤ levels := by
  induction items with
  | nil => simp [nestingItems]
  | cons item items ih => simp [nestingItems, ih]

theorem nestingFields_le_iff :
    nestingFields fields ≤ levels ↔ ∀ field ∈ fields, field.2.nesting ≤ levels := by
  induction fields with
  | nil => simp [nestingFields]
  | cons field fields ih => simp only [nestingFields, max_le_iff, ih, List.forall_mem_cons]

theorem integersItems_eq_flatMap (items : List Json) :
    integersItems items = items.flatMap integers := by
  induction items with
  | nil => rfl
  | cons item items ih => rw [integersItems, ih, List.flatMap_cons]

theorem integersFields_eq_flatMap (fields : List (String × Json)) :
    integersFields fields = fields.flatMap fun field => field.2.integers := by
  induction fields with
  | nil => rfl
  | cons field fields ih => rw [integersFields, ih, List.flatMap_cons]

structure Within (levels : Nat) (value : Json) : Prop where
  nesting : value.nesting ≤ levels
  digits : ∀ n ∈ value.integers, (Nat.toDigits 10 n.natAbs).length ≤ maxDigits

theorem within_iff_of_parts {α : Type} {parts : List α} {inner : α → Json}
    (hnesting : value.nesting ≤ levels + 1 ↔ ∀ part ∈ parts, (inner part).nesting ≤ levels)
    (hintegers : value.integers = parts.flatMap fun part => (inner part).integers) :
    Within (levels + 1) value ↔ ∀ part ∈ parts, Within levels (inner part) := by
  constructor
  · rintro ⟨hlevels, hdigits⟩ part hpart
    rw [hintegers] at hdigits
    refine ⟨hnesting.mp hlevels part hpart, fun n hn => ?_⟩
    exact hdigits n (List.mem_flatMap.mpr ⟨part, hpart, hn⟩)
  · intro hparts
    refine ⟨hnesting.mpr fun part hpart => (hparts part hpart).nesting, fun n hn => ?_⟩
    rw [hintegers] at hn
    obtain ⟨part, hpart, hn⟩ := List.mem_flatMap.mp hn
    exact (hparts part hpart).digits n hn

theorem within_arr_iff : Within (levels + 1) (.arr items) ↔ ∀ item ∈ items, Within levels item :=
  within_iff_of_parts (Nat.add_le_add_iff_right.trans nestingItems_le_iff)
    (integersItems_eq_flatMap items)

theorem within_obj_iff :
    Within (levels + 1) (.obj fields) ↔ ∀ field ∈ fields, Within levels field.2 :=
  within_iff_of_parts (Nat.add_le_add_iff_right.trans nestingFields_le_iff)
    (integersFields_eq_flatMap fields)

theorem isUnwritable_eq_false_iff (value : Int) :
    isUnwritable value = false ↔ (Nat.toDigits 10 value.natAbs).length ≤ maxDigits := by
  have hlength : ∀ places, 0 < places →
      ((Nat.toDigits 10 value.natAbs).length ≤ places ↔ value.natAbs < Nat.pow 10 places) :=
    fun places hplaces => Nat.length_toDigits_le_iff (by decide) hplaces
  rw [hlength _ (by decide), isUnwritable, decide_eq_false_iff_not, Nat.not_le]

theorem Bounded.within (h : Bounded levels value) : Within levels value := by
  induction h with
  | null | bool | float | str => exact ⟨Nat.zero_le _, by simp [integers]⟩
  | int hvalue =>
    refine ⟨Nat.zero_le _, fun n hn => ?_⟩
    rw [List.mem_singleton.mp hn]
    exact (isUnwritable_eq_false_iff _).mp hvalue
  | arr _ ih => exact within_arr_iff.mpr ih
  | obj _ _ ih => exact within_obj_iff.mpr ih

theorem Plain.kept (h : Plain value) (hwithin : Within levels value) : Kept levels value := by
  induction h generalizing levels with
  | null => exact ⟨.null, rfl⟩
  | bool value => exact ⟨.bool value, rfl⟩
  | int value =>
    have hdigits := hwithin.digits value (List.mem_singleton.mpr rfl)
    exact ⟨.int ((isUnwritable_eq_false_iff value).mpr hdigits), rfl⟩
  | str htext => exact ⟨.str _, congrArg Json.str htext.reread⟩
  | arr _ ih =>
    cases levels with
    | zero => exact absurd hwithin.nesting (by simp [Json.nesting])
    | succ =>
      exact kept_arr_iff.mpr fun item hitem => ih item hitem (within_arr_iff.mp hwithin item hitem)
  | obj hkeys _ hnodup ih =>
    cases levels with
    | zero => exact absurd hwithin.nesting (by simp [Json.nesting])
    | succ =>
      refine kept_obj_iff.mpr ⟨hnodup, fun field hfield => ⟨(hkeys field hfield).reread, ?_⟩⟩
      exact ih field hfield (within_obj_iff.mp hwithin field hfield)

/-! ## What is kept and loaded -/

theorem draftValue_of_draftItems (h : draftItems layout depth lead items = none) :
    ∀ item ∈ items, draftValue layout depth item = none := by
  induction items generalizing lead with
  | nil => simp
  | cons item items ih =>
    unfold draftItems at h
    split at h
    · cases h
    · cases h
    · next hitem => exact List.forall_mem_cons.mpr ⟨hitem, ih (Option.map_eq_none_iff.mp h)⟩

theorem draftValue_of_draftFields (h : draftFields layout depth lead fields = none) :
    ∀ field ∈ fields, draftValue layout depth field.2 = none := by
  induction fields generalizing lead with
  | nil => simp
  | cons field fields ih =>
    unfold draftFields at h
    split at h
    · cases h
    · next hfield => exact List.forall_mem_cons.mpr ⟨hfield, ih (Option.map_eq_none_iff.mp h)⟩

theorem Plain.digits_of_draftValue (h : Plain value)
    (hdraft : draftValue layout depth value = none) :
    ∀ n ∈ value.integers, (Nat.toDigits 10 n.natAbs).length ≤ maxDigits := by
  induction h generalizing depth with
  | null | bool | str => simp [integers]
  | int =>
    intro n hn
    rw [List.mem_singleton.mp hn, ← isUnwritable_eq_false_iff]
    rw [draftValue] at hdraft
    simpa using hdraft
  | arr _ ih =>
    intro n hn
    rw [integers, integersItems_eq_flatMap] at hn
    obtain ⟨item, hitem, hn⟩ := List.mem_flatMap.mp hn
    exact ih item hitem (draftValue_of_draftItems hdraft item hitem) n hn
  | obj _ _ _ ih =>
    intro n hn
    rw [integers, integersFields_eq_flatMap] at hn
    obtain ⟨field, hfield, hn⟩ := List.mem_flatMap.mp hn
    exact ih field hfield (draftValue_of_draftFields hdraft field hfield) n hn

theorem Plain.kept_of_draft (h : Plain value) (hdraft : value.draft = none) :
    Kept (max value.nesting maxDepth) value :=
  h.kept ⟨le_max_left _ _, h.digits_of_draftValue (Option.map_eq_none_iff.mp hdraft)⟩

/-- Whatever is read where a document was written is this document. -/
theorem eq_of_parse_pretty {found : Json} (hkept : Kept levels value) (hlevels : maxDepth ≤ levels)
    (h : parse value.pretty = .ok found) : found = value := by
  obtain ⟨rest, hread, -⟩ := derives_of_parse h
  obtain ⟨_, hread⟩ := (hread.mono hlevels).reads
  have hback : ReadsValue levels value.pretty.toList value.reread [] := by
    rw [pretty, write, String.toList_ofList]
    exact hkept.storable.readsBack (.block 2) 0 [] [] (by simp [AllBlank]) (by simp [EndsValue])
  obtain ⟨_, hback⟩ := hback
  -- both read the same text, now with the same number of levels
  rw [hread, hkept.reread] at hback
  cases hback
  rfl

/-! ## Samples -/

def mixedDocument : Json :=
  .obj [("z", .arr [.int (-18446744073709551616), .null, .obj [], .arr [.bool true]]),
    ("a", .str (String.ofList ['"', '\\', '\n', '\x01', 'é', Char.ofNat 0x1f600, Text.mark, Text.mark]))]

theorem plain_mixedDocument : mixedDocument.Plain := by
  have htext : Text.Plain
      ['"', '\\', '\n', '\x01', 'é', Char.ofNat 0x1f600, Text.mark, Text.mark] := by
    iterate 6 refine .char (by decide) ?_
    exact .doubled .nil
  have hlist : Plain (.arr [.int (-18446744073709551616), .null, .obj [], .arr [.bool true]]) := by
    refine .arr ?_
    simp only [List.forall_mem_cons]
    exact ⟨.int _, .null, .obj (by simp) (by simp) List.nodup_nil, .arr (by simp [Plain.bool]), by simp⟩
  refine .obj ?_ ?_ (by decide)
  · simp only [List.forall_mem_cons]
    exact ⟨Text.plain_of_not_mem (by decide), Text.plain_of_not_mem (by decide), by simp⟩
  · simp only [List.forall_mem_cons]
    exact ⟨hlist, .str (by rwa [String.toList_ofList]), by simp⟩

def nestedList : Nat → Json
  | 0 => .arr []
  | levels + 1 => .arr [nestedList levels]

theorem plain_nestedList (levels : Nat) : (nestedList levels).Plain := by
  induction levels with
  | zero => exact .arr (by simp)
  | succ levels ih => exact .arr (by simpa using ih)

theorem nesting_nestedList (levels : Nat) : (nestedList levels).nesting = levels + 1 := by
  induction levels with
  | zero => rfl
  | succ levels ih => simp [nestedList, nesting, nestingItems, ih]

end Json

namespace Server

variable {s : Surroundings}

open Run

def TakesFile (path : Path) (disk : Disk) : Prop :=
  path.parts ≠ [] ∧ ∃ made location, HasRoom path disk made location

theorem loadJson_of_saved {path : Path} {document : Json} {levels : Nat}
    (hroom : TakesFile path s.disk) (hdocument : Json.Storable levels document) :
    ∃ t, saveJson path document s = (.ok (), t) ∧
      loadJson path t = (Json.parse document.pretty, t) := by
  obtain ⟨hparts, made, location, hroom⟩ := hroom
  have hsave := saveJson_of_room hroom hdocument
  refine ⟨_, hsave, ?_⟩
  obtain ⟨⟨disk, hwrite⟩, -⟩ := saveJson_ok hsave
  exact loadJson_of_read (Disk.read_of_look (Json.return_not_mem_pretty hdocument)
    (Disk.look_of_write hparts hwrite))

section

variable {document : Json} (hdocument : Json.Plain document) {path : Path} {s : Surroundings}
  (hroom : TakesFile path s.disk)
variable {t : Surroundings}

include hdocument hroom

theorem eq_of_loaded {found : Json} {u : Surroundings}
    (hsave : saveJson path document s = (.ok (), t)) (hload : loadJson path t = (.ok found, u)) :
    found = document := by
  obtain ⟨-, hdraft⟩ := saveJson_ok hsave
  have hkept := hdocument.kept_of_draft hdraft
  obtain ⟨t', hsave', hload'⟩ := loadJson_of_saved hroom hkept.storable
  cases hsave.symm.trans hsave'
  exact Json.eq_of_parse_pretty hkept (le_max_right _ _) (congrArg Prod.fst (hload'.symm.trans hload))

theorem within_of_loaded (hsave : saveJson path document s = (.ok (), t))
    (hload : loadJson path t = (.ok document, t)) : Json.Within Json.maxDepth document := by
  obtain ⟨-, hdraft⟩ := saveJson_ok hsave
  obtain ⟨t', hsave', hload'⟩ := loadJson_of_saved hroom (hdocument.kept_of_draft hdraft).storable
  cases hsave.symm.trans hsave'
  have hparse : Json.parse document.pretty = .ok document :=
    congrArg Prod.fst (hload'.symm.trans hload)
  exact (Json.bounded_of_parse hparse).within

theorem loaded_of_within (hwithin : Json.Within Json.maxDepth document) :
    ∃ t, saveJson path document s = (.ok (), t) ∧ loadJson path t = (.ok document, t) := by
  have hkept := hdocument.kept hwithin
  obtain ⟨t, hsave, hload⟩ := loadJson_of_saved hroom hkept.storable
  rw [hkept.parse_pretty] at hload
  exact ⟨t, hsave, hload⟩

end

def quietSurroundings : Surroundings := Crawl.Crawler.sampleSurroundings ⟨fun _ _ => none, 0⟩

theorem takesFile_quiet : TakesFile ⟨.working, ["specs", "a.json"]⟩ quietSurroundings.disk := by
  refine ⟨by simp, ⟨[], .directory [("specs", .directory [])]⟩, ["specs", "a.json"], ?_⟩
  exact ⟨rfl, rfl, fun entries h => by cases h⟩

end Server

end Sitecheck
