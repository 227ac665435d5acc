import Sitecheck.Proofs.Schema
import Sitecheck.Proofs.Settings.Reading

/-!
# Settings in layers

The members of the settings file lie over what the environment and the secrets hold
(`get?_laid`).  So the crawl section is read from its own members where it has any
(`section_of_ofDocument`), and a document that differs from another one in that section
only gives the same settings apart from it (`ofDocument_of_sameBut`).
-/

namespace Sitecheck

namespace Fields

variable {α : Type} {fields fields' : List (String × α)}

def SameBut (name : String) (fields fields' : List (String × α)) : Prop :=
  ∀ key, key ≠ name → get? key fields' = get? key fields

theorem get?_filter (keep : String → Bool) (key : String) :
    get? key (fields.filter fun (name, _) => keep name) = if keep key then get? key fields else none := by
  induction fields with
  | nil => simp [get?]
  | cons field fields ih =>
    obtain ⟨name, value⟩ := field
    simp only [get?] at ih ⊢
    by_cases hname : key = name
    · subst hname
      cases hkeep : keep key <;> simp [hkeep, ih]
    · have hne : (key == name) = false := beq_false_of_ne hname
      cases hkeep : keep name <;> simp [hkeep, List.lookup_cons, hne, ih]

theorem nodup_filter (h : (fields.map Prod.fst).Nodup) (keep : String × α → Bool) :
    ((fields.filter keep).map Prod.fst).Nodup :=
  h.sublist (List.filter_sublist.map Prod.fst)

end Fields

namespace Settings

variable {name : String}

open Run Schema

/-! ## One value over another -/

def overlaid : Option Json → Json → Json
  | some lower, upper => layOver lower upper
  | none, upper => upper

def layered (lower : Option Json) : Option Json → Option Json
  | some upper => some (overlaid lower upper)
  | none => lower

def laid (below : List (String × Json)) : List (String × Json) → List (String × Json)
  | [] => below
  | (key, value) :: above => laid (Fields.set key (overlaid (Fields.get? key below) value) below) above

theorem laid_eq_foldl (below above : List (String × Json)) :
    laid below above = above.foldl (fun fields field =>
      Fields.set field.1 (overlaid (Fields.get? field.1 fields) field.2) fields) below := by
  induction above generalizing below with
  | nil => rfl
  | cons field above ih => exact ih _

theorem layOver_obj (below above : List (String × Json)) :
    layOver (.obj below) (.obj above) = .obj (laid below above) := by
  have hattach := List.foldl_attach (l := above) (b := below) (f := fun fields field =>
    Fields.set field.1 (overlaid (Fields.get? field.1 fields) field.2) fields)
  rw [layOver, laid_eq_foldl, ← hattach]
  congr 2
  funext fields field
  dsimp only
  cases hget : Fields.get? field.1.1 fields <;> rfl

theorem layOver_of_not_obj (lower : Json) {upper : Json} (h : ∀ fields, upper ≠ .obj fields) :
    layOver lower upper = upper := by
  unfold layOver
  split
  · next above => exact absurd rfl (h above)
  · rfl

theorem get?_laid {below above : List (String × Json)} (h : (above.map Prod.fst).Nodup)
    (key : String) :
    Fields.get? key (laid below above) = layered (Fields.get? key below) (Fields.get? key above) := by
  induction above generalizing below with
  | nil => rfl
  | cons field above ih =>
    obtain ⟨name, value⟩ := field
    obtain ⟨hnot, hnodup⟩ := List.nodup_cons.mp h
    rw [laid, ih hnodup]
    by_cases hname : key = name
    · subst hname
      rw [Fields.get?_set_self, Fields.get?_eq_none_iff.mpr hnot]
      simp [layered, Fields.get?]
    · have hne : (key == name) = false := beq_false_of_ne hname
      rw [Fields.get?_set_of_ne hname]
      simp [Fields.get?, List.lookup_cons, hne]

def membersOf : Option Json → List (String × Json)
  | some (.obj members) => members
  | _ => []

theorem layered_obj (lower : Option Json) {members : List (String × Json)}
    (h : (members.map Prod.fst).Nodup) :
    ∃ merged, layered lower (some (.obj members)) = some (.obj merged) ∧
      ∀ key, Fields.get? key merged =
        layered (Fields.get? key (membersOf lower)) (Fields.get? key members) := by
  have halone (key : String) : Fields.get? key members =
      layered (Fields.get? key ([] : List (String × Json))) (Fields.get? key members) := by
    cases hget : Fields.get? key members <;> rfl
  cases lower with
  | none => exact ⟨members, rfl, halone⟩
  | some lower =>
    cases lower with
    | obj below => exact ⟨laid below members, by rw [layered, overlaid, layOver_obj], get?_laid h⟩
    | _ => exact ⟨members, by simp only [layered, overlaid, layOver], halone⟩

/-! ## The sources -/

def ownMembers (fields : List (String × Json)) : List (String × Json) :=
  fields.filter fun (name, _) => !sourceNames.contains name

structure NamesNoPlace (fields : List (String × Json)) : Prop where
  variableFile : (Fields.get? "_env_file" fields).getD .null = .null
  secrets : ((Fields.get? "_secrets_dir" fields).getD .null).isTruthy = false

variable {s t : Surroundings} {names : List String} {fields all : List (String × Json)}

theorem withSources_ok (h : withSources names fields s = (.ok all, t)) :
    ∃ base, all = laid base (ownMembers fields) := by
  obtain ⟨_, _, -, h⟩ := exists_of_bind_ok h
  obtain ⟨_, _, -, h⟩ := exists_of_bind_ok h
  obtain ⟨sections, _, -, h⟩ := exists_of_bind_ok h
  obtain ⟨secrets, _, -, h⟩ := exists_of_bind_ok h
  dsimp only at h
  rw [layOver_obj, layOver_obj] at h
  cases h
  exact ⟨_, rfl⟩

/-- Nothing but the environment lies below, and it is the same for all members that name
the same separator. -/
theorem withSources_of_namesNoPlace (h : NamesNoPlace fields) (names : List String) (s : Surroundings) :
    withSources names fields s =
      ((found (environmentSection ((Fields.get? "_env_nested_delimiter" fields).getD .null)
        (lowerNames s.environment)) names).map fun sections =>
          laid (laid [] sections) (ownMembers fields), s) := by
  have hvariables : checkVariableFile .null s = (.ok (), s) := rfl
  unfold withSources
  dsimp only
  rw [h.variableFile, bind_of_ok hvariables, bind_of_ok (get_apply s)]
  generalize found (environmentSection ((Fields.get? "_env_nested_delimiter" fields).getD .null)
    (lowerNames s.environment)) names = sections
  cases sections with
  | error => rfl
  | ok =>
    have hsecrets : secretSections ((Fields.get? "_secrets_dir" fields).getD .null) names s =
        (.ok [], s) := by
      rw [secretSections, h.secrets, if_neg Bool.false_ne_true]
      rfl
    rw [bind_of_ok (lift_apply _ s), bind_of_ok hsecrets, layOver_obj, layOver_obj]
    rfl

theorem get?_ownMembers (fields : List (String × Json)) (name : String) :
    Fields.get? name (ownMembers fields) =
      if sourceNames.contains name then none else Fields.get? name fields := by
  rw [ownMembers, Fields.get?_filter (fun name => !sourceNames.contains name)]
  cases sourceNames.contains name <;> rfl

theorem get?_laid_ownMembers (base : List (String × Json)) (h : (fields.map Prod.fst).Nodup)
    (name : String) :
    Fields.get? name (laid base (ownMembers fields)) = layered (Fields.get? name base)
      (if sourceNames.contains name then none else Fields.get? name fields) := by
  have hnodup : ((ownMembers fields).map Prod.fst).Nodup := Fields.nodup_filter h _
  rw [get?_laid hnodup, get?_ownMembers]

/-! ## The key -/

variable {key : Option String} {keyed fields' : List (String × Json)}

theorem withKey_cases (h : withKey key fields = .ok keyed) :
    keyed = fields ∨ ∃ value, keyed = Fields.set "llm" value fields := by
  unfold withKey at h
  split at h
  · split at h
    · cases h
      exact .inr ⟨_, rfl⟩
    · cases h
  · split at h
    · cases h
      exact .inl rfl
    · next found hfound =>
      cases hkey : found.get "api_key" with
      | error =>
        rw [hkey] at h
        cases h
      | ok =>
        rw [hkey] at h
        simp only [bind, Except.bind] at h
        split at h
        · cases h
          exact .inl rfl
        · cases h

theorem get?_withKey (h : withKey key fields = .ok keyed) (hname : name ≠ "llm") :
    Fields.get? name keyed = Fields.get? name fields := by
  rcases withKey_cases h with rfl | ⟨value, rfl⟩
  · rfl
  · exact Fields.get?_set_of_ne hname _ _

theorem nodup_withKey (h : withKey key fields = .ok keyed) (hnodup : (fields.map Prod.fst).Nodup) :
    (keyed.map Prod.fst).Nodup := by
  rcases withKey_cases h with rfl | ⟨value, rfl⟩
  · exact hnodup
  · exact Fields.nodup_set hnodup

theorem withKey_of_section (hsame : Fields.get? "llm" fields' = Fields.get? "llm" fields)
    (h : withKey key fields = .ok keyed) :
    ∃ keyed', withKey key fields' = .ok keyed' ∧
      Fields.get? "llm" keyed' = Fields.get? "llm" keyed := by
  unfold withKey at h ⊢
  cases key with
  | some =>
    dsimp only at h ⊢
    rw [hsame]
    split at h
    · cases h
      exact ⟨_, rfl, by simp⟩
    · cases h
  | none =>
    dsimp only at h ⊢
    rw [hsame]
    split at h
    · cases h
      exact ⟨_, rfl, hsame⟩
    · next found hfound =>
      cases hkey : found.get "api_key" with
      | error =>
        rw [hkey] at h
        cases h
      | ok =>
        rw [hkey] at h
        simp only [bind, Except.bind] at h ⊢
        split at h
        · next htruthy =>
          cases h
          rw [if_pos htruthy]
          exact ⟨_, rfl, hsame⟩
        · cases h

/-! ## The sections -/

variable {settings : Settings}

theorem Outcome.seqLeft_eq_value_iff {α β : Type} {x : Outcome α} {y : Outcome β} {a : α} :
    (x <* y) = .value a ↔ x = .value a ∧ ∃ b, y = .value b := by
  change (Outcome.map (Function.const β) x).seq y = .value a ↔ _
  cases x <;> cases y <;> simp [Outcome.seq, Outcome.map]

theorem ofFields_eq_value_iff : ofFields all = .value settings ↔
    required "llm" (record Assistant.ofFields) all = .value settings.assistant ∧
    required "crawler" (record Crawl.ofFields) all = .value settings.crawl ∧
    required "runner" (record Runner.ofFields) all = .value settings.runner ∧
    required "storage" (record Storage.ofFields) all = .value settings.storage ∧
    required "neo4j" (record GraphStore.ofFields) all = .value settings.graphStore ∧
    required "api" (record Server.ofFields) all = .value settings.server ∧
    onlySections all = .value () := by
  rw [ofFields, Outcome.seqLeft_eq_value_iff]
  simp only [Outcome.map_eq, Outcome.seq_eq, Outcome.seq_eq_value_iff, Outcome.map_eq_value_iff]
  constructor
  · rintro ⟨⟨_, server, ⟨_, graphStore, ⟨_, storage, ⟨_, runner, ⟨_, crawl, ⟨assistant, hassistant, rfl⟩,
      hcrawl, rfl⟩, hrunner, rfl⟩, hstorage, rfl⟩, hgraph, rfl⟩, hserver, rfl⟩, ⟨⟩, honly⟩
    exact ⟨hassistant, hcrawl, hrunner, hstorage, hgraph, hserver, honly⟩
  · rintro ⟨hassistant, hcrawl, hrunner, hstorage, hgraph, hserver, honly⟩
    exact ⟨⟨_, _, ⟨_, _, ⟨_, _, ⟨_, _, ⟨_, _, ⟨_, hassistant, rfl⟩, hcrawl, rfl⟩, hrunner, rfl⟩,
      hstorage, rfl⟩, hgraph, rfl⟩, hserver, rfl⟩, (), honly⟩

theorem onlySections_eq_value_iff :
    onlySections all = .value () ↔ ∀ name, Fields.has name all = true → sections.contains name = true := by
  have hempty : ((all.map Prod.fst).filter fun name => !sections.contains name).isEmpty = true ↔
      ∀ name, Fields.has name all = true → sections.contains name = true := by
    rw [List.isEmpty_iff, List.filter_eq_nil_iff]
    simp only [Fields.has_iff, Bool.not_eq_true', Bool.not_eq_false]
  unfold onlySections
  dsimp only
  split
  · next h => exact ⟨fun _ => hempty.mp h, fun _ => rfl⟩
  · next h => exact ⟨nofun, fun honly => absurd (hempty.mpr honly) h⟩

def environmentKey (environment : List (String × String)) : Option String :=
  (Fields.get? keyVariable environment).filter (· != "")

theorem ofDocument_eq_ok_iff :
    ofDocument (.obj fields) s = (.ok settings, s) ↔
      ∃ keyed all, withKey (environmentKey s.environment) fields = .ok keyed ∧
        Fields.has reservedName keyed = false ∧ withSources sections keyed s = (.ok all, s) ∧
        Fields.has reservedName all = false ∧ ofFields all = .value settings := by
  have hmake (all : List (String × Json)) : make "Config" ofFields all = .ok settings ↔
      Fields.has reservedName all = false ∧ ofFields all = .value settings := by
    unfold make
    split
    · next hreserved => simp [hreserved]
    · next hreserved => simp [Outcome.orFault_eq_ok_iff, hreserved]
  unfold ofDocument
  dsimp only
  change (lift (withKey (environmentKey s.environment) fields) >>= ofMembers) s = _ ↔ _
  have hliftok {α : Type} {x : Except Fault α} {a : α} : lift x s = (.ok a, s) ↔ x = .ok a := by
    rw [lift_apply]
    exact ⟨fun h => congrArg Prod.fst h, fun h => by rw [h]⟩
  simp only [(reads_lift _).bind_eq_ok_iff, hliftok]
  refine exists_congr fun keyed => ?_
  rw [exists_and_left]
  refine and_congr_right fun _ => ?_
  unfold ofMembers
  split
  · next hreserved =>
    refine ⟨fun h => ?_, fun h => by simp [hreserved] at h⟩
    cases h
  · next hreserved =>
    simp only [(consults_withSources _ _).reads.bind_eq_ok_iff, hliftok, hmake, hreserved, true_and]

theorem required_eq_value_iff {α : Type} {read : Reader α} {a : α} :
    required name read all = .value a ↔
      ∃ value, Fields.get? name all = some value ∧ read value = .value a := by
  unfold required
  cases Fields.get? name all with
  | none => simp [Outcome.fail, Outcome.under]
  | some => simp [Outcome.under_eq_value_iff]

theorem section_of_ofDocument (hnodup : (fields.map Prod.fst).Nodup)
    (h : ofDocument (.obj fields) s = (.ok settings, s)) :
    ∃ lower value, layered lower (Fields.get? "crawler" fields) = some value ∧
      record Crawl.ofFields value = .value settings.crawl := by
  obtain ⟨keyed, all, hkeyed, -, hsources, -, hfields⟩ := ofDocument_eq_ok_iff.mp h
  obtain ⟨base, rfl⟩ := withSources_ok hsources
  obtain ⟨-, hcrawl, -⟩ := ofFields_eq_value_iff.mp hfields
  obtain ⟨value, hvalue, hread⟩ := required_eq_value_iff.mp hcrawl
  rw [get?_laid_ownMembers _ (nodup_withKey hkeyed hnodup), if_neg (by decide),
    get?_withKey hkeyed (by decide)] at hvalue
  exact ⟨_, value, hvalue, hread⟩

theorem NamesNoPlace.of_sameBut (h : NamesNoPlace fields)
    (hname : sourceNames.contains name = false) (hsame : Fields.SameBut name fields fields') :
    NamesNoPlace fields' := by
  have hne {source : String} (hsource : sourceNames.contains source = true) : source ≠ name := by
    rintro rfl
    rw [hname] at hsource
    cases hsource
  refine ⟨?_, ?_⟩
  · rw [hsame _ (hne (by decide))]
    exact h.variableFile
  · rw [hsame _ (hne (by decide))]
    exact h.secrets

theorem sameBut_withKey (h : withKey key fields = .ok keyed) : Fields.SameBut "llm" fields keyed :=
  fun _ hname => get?_withKey h hname

theorem withSources_of_sameBut (hname : sourceNames.contains name = false)
    (hplace : NamesNoPlace fields) (hsame : Fields.SameBut name fields fields')
    (henvironment : t.environment = s.environment) (h : withSources names fields s = (.ok all, s)) :
    ∃ base, all = laid base (ownMembers fields) ∧
      withSources names fields' t = (.ok (laid base (ownMembers fields')), t) := by
  have hne : "_env_nested_delimiter" ≠ name := by
    rintro rfl
    exact absurd hname (by decide)
  rw [withSources_of_namesNoPlace hplace, Prod.mk.injEq] at h
  rw [withSources_of_namesNoPlace (hplace.of_sameBut hname hsame), hsame _ hne, henvironment]
  cases hfound : found (environmentSection ((Fields.get? "_env_nested_delimiter" fields).getD .null)
    (lowerNames s.environment)) names with
  | error fault =>
    rw [hfound] at h
    cases h.1
  | ok sections =>
    rw [hfound] at h
    exact ⟨_, (Except.ok.inj h.1).symm, rfl⟩

theorem ofFields_of_sameBut {all' : List (String × Json)} {crawl : Crawl}
    (hsame : Fields.SameBut "crawler" all all')
    (hcrawl : required "crawler" (record Crawl.ofFields) all' = .value crawl)
    (h : ofFields all = .value settings) : ofFields all' = .value { settings with crawl := crawl } := by
  obtain ⟨hassistant, -, hrunner, hstorage, hgraph, hserver, honly⟩ := ofFields_eq_value_iff.mp h
  have hrequired {α : Type} {name : String} {read : Reader α} (hname : name ≠ "crawler") :
      required name read all' = required name read all := by
    rw [required, required, hsame name hname]
  refine ofFields_eq_value_iff.mpr ⟨?_, hcrawl, ?_, ?_, ?_, ?_, ?_⟩
  · exact (hrequired (by decide)).trans hassistant
  · exact (hrequired (by decide)).trans hrunner
  · exact (hrequired (by decide)).trans hstorage
  · exact (hrequired (by decide)).trans hgraph
  · exact (hrequired (by decide)).trans hserver
  · refine onlySections_eq_value_iff.mpr fun name hname => ?_
    by_cases heq : name = "crawler"
    · rw [heq]
      decide
    · rw [Fields.has, hsame name heq] at hname
      exact onlySections_eq_value_iff.mp honly name hname

/-- A document with another crawl section is read as the same settings, apart from the
crawl settings, if the other section can be read where the first one could. -/
theorem ofDocument_of_sameBut (hnodup : (fields.map Prod.fst).Nodup)
    (hnodup' : (fields'.map Prod.fst).Nodup) (hplace : NamesNoPlace fields)
    (hsame : Fields.SameBut "crawler" fields fields')
    (hread : ∀ lower value crawl, layered lower (Fields.get? "crawler" fields) = some value →
      record Crawl.ofFields value = .value crawl →
      ∃ value' crawl', layered lower (Fields.get? "crawler" fields') = some value' ∧
        record Crawl.ofFields value' = .value crawl')
    (henvironment : t.environment = s.environment)
    (h : ofDocument (.obj fields) s = (.ok settings, s)) :
    ∃ crawl, ofDocument (.obj fields') t = (.ok { settings with crawl := crawl }, t) := by
  obtain ⟨keyed, all, hkeyed, hreserved, hsources, hreserved', hfields⟩ := ofDocument_eq_ok_iff.mp h
  obtain ⟨keyed', hkeyed', hllm⟩ := withKey_of_section (hsame "llm" (by decide)) hkeyed
  -- after the key was put in, the documents differ in the same section only
  have hkeys : Fields.SameBut "crawler" keyed keyed' := by
    intro name hname
    by_cases hkey : name = "llm"
    · rw [hkey, hllm]
    · rw [get?_withKey hkeyed' hkey, get?_withKey hkeyed hkey, hsame name hname]
  have hplace' : NamesNoPlace keyed := hplace.of_sameBut (by decide) (sameBut_withKey hkeyed)
  obtain ⟨base, rfl, hsources'⟩ :=
    withSources_of_sameBut (by decide) hplace' hkeys henvironment hsources
  have hlaid := get?_laid_ownMembers base (nodup_withKey hkeyed hnodup)
  have hlaid' := get?_laid_ownMembers base (nodup_withKey hkeyed' hnodup')
  have hall : Fields.SameBut "crawler" (laid base (ownMembers keyed))
      (laid base (ownMembers keyed')) := by
    intro name hname
    rw [hlaid, hlaid', hkeys name hname]
  -- the section itself, over what lies below it
  obtain ⟨-, hcrawl, -⟩ := ofFields_eq_value_iff.mp hfields
  obtain ⟨value, hvalue, hrecord⟩ := required_eq_value_iff.mp hcrawl
  rw [hlaid, if_neg (by decide), get?_withKey hkeyed (by decide)] at hvalue
  obtain ⟨value', crawl, hvalue', hrecord'⟩ := hread _ value _ hvalue hrecord
  have hcrawl' : required "crawler" (record Crawl.ofFields) (laid base (ownMembers keyed')) =
      .value crawl := by
    refine required_eq_value_iff.mpr ⟨value', ?_, hrecord'⟩
    rw [hlaid', if_neg (by decide), get?_withKey hkeyed' (by decide), hvalue']
  refine ⟨crawl, ofDocument_eq_ok_iff.mpr ⟨keyed', _, ?_, ?_, hsources', ?_,
    ofFields_of_sameBut hall hcrawl' hfields⟩⟩
  · rw [henvironment, hkeyed']
  · rw [Fields.has, hkeys reservedName (by decide)]
    exact hreserved
  · rw [Fields.has, hall reservedName (by decide)]
    exact hreserved'

end Settings

end Sitecheck
