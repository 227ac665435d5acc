import Sitecheck.Proofs.Server.Update

/-!
# The key of the language model

Settings that are read have the key of the environment, if that has one.  Otherwise a file
with a section on the language model has to hold a key.  A file without such a section
is not asked for one, and then the section comes from a variable or a secret that need not
hold a key either (`apiKey_of_load`).
-/

namespace Sitecheck

/-! ## Texts of scalars -/

namespace NumberFormat

theorem magnitude_ne_nil (format : NumberFormat) (mantissa : Nat) (exponent : Int) :
    format.magnitude mantissa exponent ≠ [] := by
  have hpositional (digits : List Char) (point : Int) : positional digits point ≠ [] := by
    unfold positional
    split
    · split <;> simp
    · simp
    · simp
  unfold magnitude
  split
  · simp
  · dsimp only
    split
    · simp [exponentText]
    · exact hpositional _ _

end NumberFormat

namespace Json

theorem displayInt_ne_empty (n : Int) : displayInt n ≠ "" := by
  rw [displayInt, intText, Ne, ← String.toList_inj, String.toList_ofList]
  simp [Nat.toDigits_ne_nil]

theorem write_displayNumbers_ne_empty (x : Binary64) : displayNumbers.write x ≠ "" := by
  cases x with
  | nan => exact (by decide : displayNumbers.notANumber ≠ "")
  | infinite negative => cases negative <;> decide
  | finite =>
    rw [NumberFormat.write, Ne, ← String.toList_inj, String.toList_ofList]
    simp [NumberFormat.magnitude_ne_nil]

end Json

namespace Schema

theorem text_eq_empty_iff {value : Json} : text value = .value "" ↔ value = .str "" := by
  cases value with
  | null => simp [text, Outcome.fail]
  | bool value => cases value <;> simp [text, Json.inner]
  | int => simp [text, Json.displayInt_ne_empty]
  | float => simp [text, Json.write_displayNumbers_ne_empty]
  | str => simp [text]
  | arr | obj => simp [text, Outcome.fail]

def members? (value : Json) : Option (List (String × Json)) := (pairs? value).bind named?

theorem members?_obj (fields : List (String × Json)) : members? (.obj fields) = some fields :=
  named?_map fields

theorem exists_members_of_record {α : Type} {read : List (String × Json) → Outcome α} {value : Json} {a : α}
    (h : record read value = .value a) : ∃ members, members? value = some members ∧ read members = .value a := by
  obtain ⟨pairs, members, hpairs, hnamed, hread⟩ := record_cases h
  exact ⟨members, by rw [members?, hpairs, Option.bind_some, hnamed], hread⟩

end Schema

namespace Settings

open Run Schema

variable {s t : Surroundings} {settings : Settings} {fields keyed all members : List (String × Json)}
variable {key : String} {path : Option Path}

theorem Assistant.apiKey_of_ofFields {assistant : Assistant} (h : Assistant.ofFields members = .value assistant) :
    withDefault "api_key" "" text members = .value assistant.apiKey := by
  simp only [Assistant.ofFields, Outcome.map_eq, Outcome.seq_eq, Outcome.seq_eq_value_iff,
    Outcome.map_eq_value_iff] at h
  obtain ⟨_, _, ⟨_, _, ⟨_, _, ⟨_, _, ⟨_, -, rfl⟩, -, rfl⟩, hkey, rfl⟩, -, rfl⟩, -, rfl⟩ := h
  exact hkey

theorem withDefault_key_eq_empty_iff :
    withDefault "api_key" "" text members = .value "" ↔
      (Fields.get? "api_key" members).getD (.str "") = .str "" := by
  unfold withDefault
  cases Fields.get? "api_key" members with
  | none => simp
  | some => simp [Outcome.under_eq_value_iff, text_eq_empty_iff]

/-! ## The key of a section -/

/-- A text is not pieced together from layers, so it is the text of the upper one. -/
theorem text_of_overlaid {lower : Option Json} {upper : Json}
    (h : text (overlaid lower upper) = .value key) : text upper = .value key := by
  by_cases hobj : ∃ above, upper = .obj above
  · obtain ⟨above, rfl⟩ := hobj
    have hlaid : ∃ laid, overlaid lower (.obj above) = .obj laid := by
      cases lower with
      | none => exact ⟨above, rfl⟩
      | some lower =>
        cases lower with
        | obj below => exact ⟨_, layOver_obj below above⟩
        | _ => exact ⟨above, by simp only [overlaid, layOver]⟩
    obtain ⟨laid, hlaid⟩ := hlaid
    rw [hlaid] at h
    cases h
  · rwa [overlaid_of_not_obj lower fun above heq => hobj ⟨above, heq⟩] at h

/-- The members from which the settings of the language model are read. -/
theorem exists_section_of_ofFields (h : ofFields all = .value settings) :
    ∃ section_ members, Fields.get? "llm" all = some section_ ∧ members? section_ = some members ∧
      withDefault "api_key" "" text members = .value settings.assistant.apiKey := by
  obtain ⟨section_, hsection, hrecord⟩ := required_eq_value_iff.mp (ofFields_eq_value_iff.mp h).1
  obtain ⟨members, hmembers, hread⟩ := exists_members_of_record hrecord
  exact ⟨section_, members, hsection, hmembers, Assistant.apiKey_of_ofFields hread⟩

/-- A key in the members of the file is the key of the settings, whatever lies below. -/
theorem text_of_key {value : Json} (hnodup : (keyed.map Prod.fst).Nodup)
    (hsources : withSources sections keyed s = (.ok all, s)) (hfields : ofFields all = .value settings)
    (hsection : Fields.get? "llm" keyed = some (.obj members)) (hmembers : (members.map Prod.fst).Nodup)
    (hkey : Fields.get? "api_key" members = some value) :
    text value = .value settings.assistant.apiKey := by
  obtain ⟨base, rfl⟩ := withSources_ok hsources
  obtain ⟨found, read, hfound, hread, hvalue⟩ := exists_section_of_ofFields hfields
  rw [get?_laid_ownMembers _ hnodup, if_neg (by decide), hsection] at hfound
  obtain ⟨merged, hmerged, hlayers⟩ := layered_obj (Fields.get? "llm" base) hmembers
  rw [hmerged] at hfound
  obtain rfl := Option.some.inj hfound
  rw [members?_obj] at hread
  obtain rfl := Option.some.inj hread
  rw [withDefault, hlayers, hkey] at hvalue
  exact text_of_overlaid (Outcome.under_eq_value_iff.mp hvalue)

theorem withKey_some (h : withKey (some key) fields = .ok keyed) :
    ∃ members, (Fields.get? "llm" fields).getD .emptyObj = .obj members ∧
      keyed = Fields.set "llm" (.obj (Fields.set "api_key" (.str key) members)) fields := by
  simp only [withKey] at h
  split at h
  · next members hmembers =>
    cases h
    exact ⟨members, hmembers, rfl⟩
  · cases h

theorem withKey_none (h : withKey none fields = .ok keyed) :
    keyed = fields ∧ (Fields.get? "llm" fields = none ∨ ∃ members value,
      Fields.get? "llm" fields = some (.obj members) ∧ Fields.get? "api_key" members = some value ∧
        value.isTruthy = true) := by
  simp only [withKey] at h
  split at h
  · next hnone =>
    cases h
    exact ⟨rfl, .inl hnone⟩
  · next section_ hsection =>
    obtain ⟨value, hvalue, h⟩ := bind_eq_ok_iff.mp h
    split at h
    · next htruthy =>
      cases h
      refine ⟨rfl, .inr ?_⟩
      cases section_ with
      | obj members =>
        rw [Json.get_obj] at hvalue
        cases hget : Fields.get? "api_key" members with
        | none =>
          rw [hget] at hvalue
          cases hvalue
          cases htruthy
        | some found =>
          rw [hget] at hvalue
          cases hvalue
          exact ⟨members, found, hsection, hget, htruthy⟩
      | _ => cases hvalue
    · cases h

/-! ## Reading the settings -/

/-- The file that is read, the given one or else the first that is there, has these members. -/
def ReadFrom (path : Option Path) (s : Surroundings) (fields : List (String × Json)) : Prop :=
  ∃ file text, (path = some file ∨ path = none ∧ firstExisting candidates s = (.ok file, s)) ∧
    s.disk.read file = .ok text ∧ Json.parse text = .ok (.obj fields)

theorem nodup_of_readFrom (h : ReadFrom path s fields) :
    (fields.map Prod.fst).Nodup ∧ ((membersOf (Fields.get? "llm" fields)).map Prod.fst).Nodup := by
  obtain ⟨_, _, -, -, hparse⟩ := h
  exact nodup_of_bounded "llm" (Json.bounded_of_parse hparse)

theorem exists_of_load (h : load path s = (.ok settings, t)) :
    ∃ fields, ReadFrom path s fields ∧ ofDocument (.obj fields) s = (.ok settings, s) := by
  obtain rfl := (consults_load path).reads.of_eq h
  have hrest {file : Path} (hfile : (do
      ofDocument (← Run.lift (Json.parse (← Run.readFile file))) : Run Settings) s = (.ok settings, s)) :
      ∃ text fields, s.disk.read file = .ok text ∧ Json.parse text = .ok (.obj fields) ∧
        ofDocument (.obj fields) s = (.ok settings, s) := by
    obtain ⟨text, hread, hfile⟩ := (reads_readFile file).bind_eq_ok_iff.mp hfile
    obtain ⟨document, hparse, hdocument⟩ := exists_of_lift_ok hfile
    obtain ⟨fields, rfl⟩ : ∃ fields, document = .obj fields := by
      cases document with
      | obj fields => exact ⟨fields, rfl⟩
      | _ => cases hdocument
    exact ⟨text, fields, congrArg Prod.fst hread, hparse, hdocument⟩
  cases path with
  | some file =>
    obtain ⟨text, fields, hread, hparse, hdocument⟩ := hrest h
    exact ⟨fields, ⟨file, text, .inl rfl, hread, hparse⟩, hdocument⟩
  | none =>
    obtain ⟨file, hfile, h⟩ := (consults_firstExisting candidates).reads.bind_eq_ok_iff.mp h
    obtain ⟨text, fields, hread, hparse, hdocument⟩ := hrest h
    exact ⟨fields, ⟨file, text, .inr ⟨rfl, hfile⟩, hread, hparse⟩, hdocument⟩

/-- The section on the language model that the sources below the file give has no key. -/
def KeylessBelow (s : Surroundings) (fields : List (String × Json)) : Prop :=
  ∃ all section_ members, withSources sections fields s = (.ok all, s) ∧
    Fields.get? "llm" all = some section_ ∧ members? section_ = some members ∧
    (Fields.get? "api_key" members).getD (.str "") = .str ""

theorem keylessBelow_iff (hsources : withSources sections fields s = (.ok all, s))
    (hfields : ofFields all = .value settings) :
    KeylessBelow s fields ↔ settings.assistant.apiKey = "" := by
  obtain ⟨section_, members, hsection, hmembers, hkey⟩ := exists_section_of_ofFields hfields
  have hempty : (Fields.get? "api_key" members).getD (.str "") = .str "" ↔ settings.assistant.apiKey = "" := by
    rw [← withDefault_key_eq_empty_iff, hkey, Outcome.value.injEq]
  constructor
  · rintro ⟨all', section', members', hsources', hsection', hmembers', hnone⟩
    obtain rfl : all = all' := Except.ok.inj (congrArg Prod.fst (hsources.symm.trans hsources'))
    obtain rfl : section_ = section' := by simpa [hsection] using hsection'
    obtain rfl : members = members' := by simpa [hmembers] using hmembers'
    exact hempty.mp hnone
  · exact fun h => ⟨all, section_, members, hsources, hsection, hmembers, hempty.mpr h⟩

theorem apiKey_of_environment (hnodup : (fields.map Prod.fst).Nodup ∧
      ((membersOf (Fields.get? "llm" fields)).map Prod.fst).Nodup)
    (h : ofDocument (.obj fields) s = (.ok settings, s))
    (hkey : environmentKey s.environment = some key) :
    settings.assistant.apiKey = key := by
  obtain ⟨keyed, all, hkeyed, -, hsources, -, hfields⟩ := ofDocument_eq_ok_iff.mp h
  have hkeyedNodup := nodup_withKey hkeyed hnodup.1
  rw [hkey] at hkeyed
  obtain ⟨members, hmembers, rfl⟩ := withKey_some hkeyed
  have hmembersNodup : (members.map Prod.fst).Nodup := by
    cases hsection : Fields.get? "llm" fields with
    | none =>
      rw [hsection] at hmembers
      cases hmembers
      exact List.nodup_nil
    | some value =>
      rw [hsection] at hmembers
      have hinner := hnodup.2
      rwa [hsection, show value = .obj members from hmembers] at hinner
  have htext := text_of_key hkeyedNodup hsources hfields (Fields.get?_set_self _ _ _)
    (Fields.nodup_set hmembersNodup) (Fields.get?_set_self _ _ _)
  exact (Outcome.value.inj htext).symm

theorem apiKey_eq_empty_iff (hnodup : (fields.map Prod.fst).Nodup ∧
      ((membersOf (Fields.get? "llm" fields)).map Prod.fst).Nodup)
    (h : ofDocument (.obj fields) s = (.ok settings, s)) (hkey : environmentKey s.environment = none) :
    settings.assistant.apiKey = "" ↔ Fields.get? "llm" fields = none ∧ KeylessBelow s fields := by
  obtain ⟨keyed, all, hkeyed, -, hsources, -, hfields⟩ := ofDocument_eq_ok_iff.mp h
  rw [hkey] at hkeyed
  obtain ⟨rfl, hnone | ⟨members, value, hsection, hvalue, htruthy⟩⟩ := withKey_none hkeyed
  · rw [keylessBelow_iff hsources hfields, and_iff_right hnone]
  · have hmembers : (members.map Prod.fst).Nodup := by
      have hinner := hnodup.2
      rwa [hsection] at hinner
    have htext := text_of_key hnodup.1 hsources hfields hsection hmembers hvalue
    refine ⟨fun hempty => ?_, fun hnone => ?_⟩
    · rw [hempty, text_eq_empty_iff] at htext
      rw [htext] at htruthy
      cases htruthy
    · rw [hsection] at hnone
      cases hnone.1

theorem environmentKey_eq_some_iff {environment : List (String × String)} :
    environmentKey environment = some key ↔ Fields.get? keyVariable environment = some key ∧ key ≠ "" := by
  rw [environmentKey, Option.filter_eq_some_iff]
  simp

/-- The environment's key is the key of the settings that are read.  Without it a key is missing
exactly if the file says nothing on the language model and what lies below it has no key. -/
theorem apiKey_of_load {path : Option Path} (h : load path s = (.ok settings, t)) :
    ∃ fields, ReadFrom path s fields ∧
      (∀ key, Fields.get? keyVariable s.environment = some key → key ≠ "" →
        settings.assistant.apiKey = key) ∧
      (settings.assistant.apiKey = "" ↔ environmentKey s.environment = none ∧
        Fields.get? "llm" fields = none ∧ KeylessBelow s fields) := by
  obtain ⟨fields, hfields, hdocument⟩ := exists_of_load h
  have hnodup := nodup_of_readFrom hfields
  refine ⟨fields, hfields, fun key hkey hne => ?_, ?_⟩
  · exact apiKey_of_environment hnodup hdocument (environmentKey_eq_some_iff.mpr ⟨hkey, hne⟩)
  · cases hkey : environmentKey s.environment with
    | none => rw [apiKey_eq_empty_iff hnodup hdocument hkey, and_iff_right rfl]
    | some =>
      rw [apiKey_of_environment hnodup hdocument hkey]
      simp [(environmentKey_eq_some_iff.mp hkey).2]

/-! ## A section from the environment -/

def silentFields : List (String × Json) := Server.filedFields.tail

theorem kept_silentFields : Json.Kept Json.maxDepth (.obj silentFields) :=
  Json.kept_of_isStorable (by decide +kernel) (by with_unfolding_all rfl)

/-- The environment has a section on the language model, and no key for it. -/
def silentOffice : Surroundings :=
  { Server.filedOffice with
    environment := [("LLM", "{}")]
    disk := ⟨[], .directory [
      ("config", .directory [("config.json", .file (Json.obj silentFields).pretty)])]⟩ }

theorem holds_silentOffice : Holds silentOffice.disk silentFields :=
  ⟨_, Disk.read_of_look (Json.not_mem_pretty kept_silentFields.bounded.regular (by decide))
    (by with_unfolding_all rfl), kept_silentFields.parse_pretty⟩

def silentSettings : Settings :=
  { Server.filedSettings with assistant := { Server.filedSettings.assistant with apiKey := "" } }

theorem load_silentOffice : load none silentOffice = (.ok silentSettings, silentOffice) := by
  rw [load_of_holds holds_silentOffice]
  with_unfolding_all rfl

theorem apiKey_of_silentOffice :
    load none silentOffice = (.ok silentSettings, silentOffice) ∧ silentSettings.assistant.apiKey = "" ∧
      ∃ fields, ReadFrom none silentOffice fields ∧ Fields.get? "llm" fields = none ∧
        KeylessBelow silentOffice fields := by
  obtain ⟨fields, hfields, -, hempty⟩ := apiKey_of_load load_silentOffice
  exact ⟨load_silentOffice, rfl, fields, hfields, (hempty.mp rfl).2⟩

end Settings

end Sitecheck
