import Sitecheck.Proofs.Schema.Whole
import Sitecheck.Proofs.Server.Posting
import Sitecheck.Proofs.Settings.Layers

/-!
# Settings that are read again

The values of a request can be written (`writable_of_accepted`), so the changed settings
file can be read.  Whatever lies below the file, the crawl settings are then those of the
request (`crawlSettings_of_ofDocument`), and settings that could be read before can be
read again (`ofDocument_membersAfter`).
-/

namespace Sitecheck

namespace Settings

open Run Schema

variable {s t : Surroundings} {name : String} {changes fields : List (String × Json)}

theorem load_of_holds (h : Holds s.disk fields) : load none s = ofDocument (.obj fields) s := by
  obtain ⟨text, hread, hparse⟩ := h
  have hfirst : firstExisting candidates s = (.ok filePath, s) := bind_of_ok (fileExists_of_read hread)
  unfold load
  dsimp only
  rw [bind_of_ok hfirst, bind_of_ok (readFile_of_read hread), hparse, bind_of_ok (lift_apply _ s)]

theorem sectionAfter_of_open (hchanges : (changes.map Prod.fst).Nodup) {found : Option Json}
    (h : isOpen found = true) :
    sectionAfter changes found = .obj (Fields.update changes (membersOf found)) := by
  unfold isOpen at h
  split at h
  · exact congrArg Json.obj (Fields.update_nil_of_nodup hchanges).symm
  · rfl
  · cases h

theorem get?_membersAfter (hchanges : (changes.map Prod.fst).Nodup)
    (h : isOpen (Fields.get? name fields) = true) :
    Fields.get? name (membersAfter name changes fields) =
      some (.obj (Fields.update changes (membersOf (Fields.get? name fields)))) := by
  rw [membersAfter, Fields.get?_set_self, sectionAfter_of_open hchanges h]

theorem sameBut_membersAfter (name : String) (changes fields : List (String × Json)) :
    Fields.SameBut name fields (membersAfter name changes fields) :=
  fun _ hkey => Fields.get?_set_of_ne hkey _ _

theorem nodup_membersAfter (h : (fields.map Prod.fst).Nodup) :
    ((membersAfter name changes fields).map Prod.fst).Nodup :=
  Fields.nodup_set h

theorem nodup_of_bounded (name : String) {levels : Nat} (h : Json.Bounded levels (.obj fields)) :
    (fields.map Prod.fst).Nodup ∧ ((membersOf (Fields.get? name fields)).map Prod.fst).Nodup := by
  cases h with
  | obj hfields hnodup =>
    refine ⟨hnodup, ?_⟩
    unfold membersOf
    split
    · next members hmembers =>
      cases hfields _ (Fields.mem_of_get? hmembers) with
      | obj _ hinner => exact hinner
    · exact List.nodup_nil

theorem overlaid_of_not_obj (lower : Option Json) {upper : Json} (h : ∀ fields, upper ≠ .obj fields) :
    overlaid lower upper = upper := by
  cases lower with
  | none => rfl
  | some lower => exact layOver_of_not_obj lower h

end Settings

namespace Server

open Run Schema

variable {request : Request} {change : CrawlChange}

theorem writable_of_accepted (h : Accepted request change) : change.Writable := by
  obtain ⟨document, hbody, hrecord⟩ := h.body
  have hfound : IsFound document := by
    unfold bodyValue at hbody
    split at hbody
    · cases hbody
      exact ⟨0, .null⟩
    · split at hbody
      · exact ⟨_, Json.bounded_of_parse hbody⟩
      · cases hbody
  obtain ⟨fields, hread, hfields⟩ := exists_of_record hfound hrecord
  simp only [CrawlChange.ofFields, Outcome.map_eq, Outcome.seq_eq, Outcome.seq_eq_value_iff,
    Outcome.map_eq_value_iff] at hread
  obtain ⟨_, _, ⟨_, _, ⟨_, _, ⟨_, _, ⟨_, _, ⟨_, hdepth, rfl⟩, hpages, rfl⟩, htimeout, rfl⟩, -, rfl⟩,
    hdelay, rfl⟩, -, rfl⟩ := hread
  exact ⟨writable_of_required hfields hdepth, writable_of_required hfields hpages,
    writable_of_required hfields htimeout, writable_of_required hfields hdelay⟩

/-! ## The crawl section -/

def viewportIn (section_ : List (String × Json)) : Outcome (List (String × Int)) :=
  withDefault "viewport" [("width", 1280), ("height", 720)] (table integer) section_

theorem ofFields_of_change {merged : List (String × Json)}
    (h : ∀ field ∈ change.fields, Fields.get? field.1 merged = some field.2) :
    Settings.Crawl.ofFields merged =
      (viewportIn merged).map fun viewport => ⟨change.maxDepth, change.maxPages, change.timeout,
        change.screenshot, viewport, change.pageDelay, change.skipEmbeddings⟩ := by
  simp only [CrawlChange.fields, List.forall_mem_cons] at h
  obtain ⟨hdepth, hpages, htimeout, hscreenshot, hdelay, hskip, -⟩ := h
  unfold Settings.Crawl.ofFields viewportIn
  generalize withDefault "viewport" [("width", 1280), ("height", 720)] (table integer) merged = viewport
  simp only [withDefault, hdepth, hpages, htimeout, hscreenshot, hdelay, hskip, integer, truth,
    Outcome.under, Outcome.map_eq, Outcome.seq_eq, Outcome.map]
  cases viewport <;> rfl

theorem fields_ne_obj {field : String × Json} (h : field ∈ change.fields)
    (members : List (String × Json)) : field.2 ≠ .obj members := by
  revert field
  simp [CrawlChange.fields]

/-- The crawl section with the values of a request, over whatever lies below it: it has
these values, and all else is as it is without them. -/
theorem exists_merged (change : CrawlChange) (lower : Option Json) {members : List (String × Json)}
    (h : (members.map Prod.fst).Nodup) :
    ∃ merged, Settings.layered lower (some (.obj (Fields.update change.fields members))) =
        some (.obj merged) ∧
      (∀ field ∈ change.fields, Fields.get? field.1 merged = some field.2) ∧
      ∀ key, key ∉ changedNames → Fields.get? key merged =
        Settings.layered (Fields.get? key (Settings.membersOf lower)) (Fields.get? key members) := by
  have hnodup : ((Fields.update change.fields members).map Prod.fst).Nodup := Fields.nodup_update h
  obtain ⟨merged, hmerged, hget⟩ := Settings.layered_obj lower hnodup
  refine ⟨merged, hmerged, fun field hfield => ?_, fun key hkey => ?_⟩
  · rw [hget, Fields.get?_update_of_mem (nodup_fields change) hfield, Settings.layered,
      Settings.overlaid_of_not_obj _ (fields_ne_obj hfield)]
  · rw [hget, Fields.get?_update_of_not_mem hkey]

variable {s t : Surroundings} {fields : List (String × Json)} {levels : Nat} {settings : Settings}

theorem crawlSettings_of_ofDocument (hfields : Json.Bounded levels (.obj fields))
    (hopen : Settings.isOpen (Fields.get? "crawler" fields) = true)
    (h : Settings.ofDocument (.obj (Settings.membersAfter "crawler" change.fields fields)) s =
      (.ok settings, s)) :
    crawlSettings settings.live.crawl = change.toJson := by
  obtain ⟨hnodup, hmembers⟩ := Settings.nodup_of_bounded "crawler" hfields
  obtain ⟨lower, value, hvalue, hread⟩ :=
    Settings.section_of_ofDocument (Settings.nodup_membersAfter hnodup) h
  rw [Settings.get?_membersAfter (nodup_fields change) hopen] at hvalue
  obtain ⟨merged, hmerged, hchanged, -⟩ := exists_merged change lower hmembers
  rw [hmerged] at hvalue
  obtain rfl := Option.some.inj hvalue
  obtain ⟨-, hcrawl⟩ := record_obj_eq_value_iff.mp hread
  rw [ofFields_of_change hchanged, Outcome.map_eq_value_iff] at hcrawl
  obtain ⟨viewport, -, hcrawl⟩ := hcrawl
  rw [Settings.live, ← hcrawl]
  rfl

theorem viewportIn_of_record {value : Json} {crawl : Settings.Crawl}
    (h : record Settings.Crawl.ofFields value = .value crawl) :
    Fields.get? reservedName (Settings.membersOf (some value)) = none ∧
      ∃ viewport, viewportIn (Settings.membersOf (some value)) = .value viewport := by
  cases value with
  | obj =>
    obtain ⟨hreserved, hcrawl⟩ := record_obj_eq_value_iff.mp h
    simp only [Settings.Crawl.ofFields, Outcome.map_eq, Outcome.seq_eq, Outcome.seq_eq_value_iff] at hcrawl
    obtain ⟨_, _, ⟨_, _, ⟨_, viewport, -, hviewport, -⟩, -, -⟩, -, -⟩ := hcrawl
    exact ⟨hreserved, viewport, hviewport⟩
  | _ => exact ⟨rfl, _, rfl⟩

theorem ofDocument_membersAfter (change : CrawlChange) (hfields : Json.Bounded levels (.obj fields))
    (hopen : Settings.isOpen (Fields.get? "crawler" fields) = true)
    (hplace : Settings.NamesNoPlace fields) (henvironment : t.environment = s.environment)
    (h : Settings.ofDocument (.obj fields) s = (.ok settings, s)) :
    ∃ crawl, Settings.ofDocument (.obj (Settings.membersAfter "crawler" change.fields fields)) t =
      (.ok { settings with crawl := crawl }, t) := by
  obtain ⟨hnodup, hmembers⟩ := Settings.nodup_of_bounded "crawler" hfields
  refine Settings.ofDocument_of_sameBut hnodup (Fields.nodup_set hnodup) hplace
    (Settings.sameBut_membersAfter _ _ _) (fun lower value crawl hvalue hread => ?_) henvironment h
  rw [Settings.get?_membersAfter (nodup_fields change) hopen]
  obtain ⟨merged, hmerged, hchanged, hothers⟩ := exists_merged change lower hmembers
  -- the other members are seen as before
  have hseen (key : String) (hkey : key ∉ changedNames) :
      Fields.get? key merged = Fields.get? key (Settings.membersOf (some value)) := by
    rw [hothers key hkey]
    cases hfound : Fields.get? "crawler" fields with
    | none =>
      rw [hfound] at hvalue
      obtain rfl : lower = some value := hvalue
      rfl
    | some found =>
      rw [hfound] at hvalue hopen hmembers
      cases found with
      | obj =>
        obtain ⟨before, hbefore, hget⟩ := Settings.layered_obj lower hmembers
        rw [Settings.membersOf] at hbefore hget
        rw [hbefore] at hvalue
        cases hvalue
        exact (hget key).symm
      | _ => cases hopen
  obtain ⟨hreserved, viewport, hviewport⟩ := viewportIn_of_record hread
  have hviewport' : viewportIn merged = .value viewport := by
    rw [viewportIn, withDefault, hseen "viewport" (by decide)]
    exact hviewport
  have hcrawl := ofFields_of_change hchanged
  rw [hviewport'] at hcrawl
  refine ⟨_, _, hmerged, record_obj_eq_value_iff.mpr ⟨?_, hcrawl⟩⟩
  rw [hseen reservedName (by decide), hreserved]

end Server

end Sitecheck
