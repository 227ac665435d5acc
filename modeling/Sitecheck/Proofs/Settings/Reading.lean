import Sitecheck.Proofs.Run
import Sitecheck.Settings.File

/-!
# Reading the settings

Reading the settings file changes nothing.  The settings in use are those that
are at hand, or else they are read once and are at hand from then on.
-/

namespace Sitecheck

namespace Run

variable {α β : Type} {R : Surroundings → Surroundings → Prop}
variable {action : Run α}

/-- The action changes nothing. -/
abbrev Reads (action : Run α) : Prop := Keeps Eq action

theorem Reads.keeps [IsPreorder Surroundings R] (h : Reads action) : Keeps R action :=
  Keeps.of_same fun s => (h s).symm

theorem Reads.apply (h : Reads action) (s : Surroundings) : action s = ((action s).1, s) :=
  Prod.ext rfl (h s).symm

theorem Reads.bind_eq_ok_iff (h : Reads action) {next : α → Run β} {s t : Surroundings} {b : β} :
    (action >>= next) s = (.ok b, t) ↔ ∃ a, action s = (.ok a, s) ∧ next a s = (.ok b, t) := by
  constructor
  · intro hbind
    obtain ⟨a, u, haction, hnext⟩ := exists_of_bind_ok hbind
    obtain rfl := h.of_eq haction
    exact ⟨a, haction, hnext⟩
  · rintro ⟨a, haction, hnext⟩
    rw [bind_of_ok haction, hnext]

/-- The files, the variables and the packages are the same. -/
structure SameGround (s t : Surroundings) : Prop where
  disk : t.disk = s.disk
  environment : t.environment = s.environment
  package : t.embeddingPackage = s.embeddingPackage

/-- The action looks at the files, the variables and the packages only, and changes
nothing. -/
def Consults (action : Run α) : Prop :=
  ∀ s t, SameGround s t → action t = ((action s).1, t)

namespace Consults

variable {action : Run α}

theorem reads (h : Consults action) : Reads action := by
  intro s
  rw [h s s ⟨rfl, rfl, rfl⟩]

theorem pure (a : α) : Consults (pure a : Run α) := fun _ _ _ => rfl

theorem throw (fault : Fault) : Consults (throw fault : Run α) := fun _ _ _ => rfl

theorem lift (result : Except Fault α) : Consults (lift result) := fun _ _ _ => rfl

theorem bind {next : α → Run β} (h : Consults action) (hnext : ∀ a, Consults (next a)) :
    Consults (action >>= next) := by
  intro s t hground
  have hs := h.reads.apply s
  have ht := h s t hground
  cases hresult : (action s).1 with
  | error =>
    rw [hresult] at hs ht
    rw [bind_of_error hs, bind_of_error ht]
  | ok a =>
    rw [hresult] at hs ht
    rw [bind_of_ok hs, bind_of_ok ht]
    exact hnext a s t hground

theorem attempt (h : Consults action) : Consults (attempt action) := by
  intro s t hground
  rw [attempt_apply, attempt_apply, h s t hground]

theorem closed : Closed fun _ action => Consults action := ⟨lift, attempt, bind⟩

end Consults

theorem consults_environmentValue (name : String) : Consults (environmentValue name) := by
  intro s t hground
  rw [environmentValue, bind_of_ok (get_apply t), bind_of_ok (get_apply s), hground.environment]
  rfl

theorem consults_fileExists (path : Path) : Consults (fileExists path) := by
  intro s t hground
  rw [fileExists_apply, fileExists_apply, hground.disk]

theorem consults_readFile (path : Path) : Consults (readFile path) := by
  intro s t hground
  rw [readFile_apply, readFile_apply, hground.disk]

theorem consults_look (path : Path) : Consults (look path) := by
  intro s t hground
  rw [look, bind_of_ok (get_apply t), bind_of_ok (get_apply s), hground.disk]
  rfl

theorem reads_lift (result : Except Fault α) : Reads (lift result) := fun _ => rfl

theorem reads_fileExists (path : Path) : Reads (fileExists path) := (consults_fileExists path).reads

theorem reads_readFile (path : Path) : Reads (readFile path) := (consults_readFile path).reads

theorem consults_loadJson? (path : Path) : Consults (loadJson? path) := by
  refine (consults_fileExists path).bind fun found => ?_
  split
  · exact Consults.bind ((consults_readFile path).bind fun _ => Consults.lift _) fun _ => Consults.pure _
  · exact Consults.pure _

theorem reads_loadJson? (path : Path) : Reads (loadJson? path) := (consults_loadJson? path).reads

end Run

namespace Settings

variable {s : Surroundings}

open Run

/-! ## The settings file -/

theorem consults_namedPlace (place : Json) : Consults (namedPlace place) := by
  intro s t hground
  rw [namedPlace, bind_of_ok (get_apply t), bind_of_ok (get_apply s), hground.environment]
  exact ((Consults.lift _).bind fun _ => Consults.lift _) s t hground

theorem consults_checkVariableFile (place : Json) : Consults (checkVariableFile place) := by
  unfold checkVariableFile
  split
  · exact Consults.pure _
  · refine (consults_namedPlace _).bind fun path => (consults_look path).bind fun entry => ?_
    split
    · exact Consults.throw _
    · exact Consults.pure _

theorem consults_secretSection (directory : Path) (name : String) :
    Consults (secretSection directory name) := by
  refine (consults_look _).bind fun entry => ?_
  split
  · refine (consults_readFile _).bind fun text => (Consults.lift _).bind fun _ => Consults.pure _
  · exact Consults.pure _

theorem consults_found {find : String → Run (Option Json)} (h : ∀ name, Consults (find name))
    (names : List String) : Consults (found find names) := by
  induction names with
  | nil => exact Consults.pure _
  | cons name names ih => exact (h name).bind fun _ => ih.bind fun _ => Consults.pure _

theorem consults_secretSections (place : Json) (names : List String) :
    Consults (secretSections place names) := by
  unfold secretSections
  split
  · refine (consults_namedPlace _).bind fun path => (consults_look path).bind fun entry => ?_
    split
    · exact Consults.pure _
    · exact Consults.throw _
    · exact consults_found (consults_secretSection path) names
  · exact Consults.pure _

theorem consults_withSources (names : List String) (fields : List (String × Json)) :
    Consults (withSources names fields) := by
  refine (consults_checkVariableFile _).bind fun _ => ?_
  intro s t hground
  rw [bind_of_ok (get_apply t), bind_of_ok (get_apply s), hground.environment]
  refine Consults.bind (Consults.lift _) (fun sections => ?_) s t hground
  refine (consults_secretSections _ _).bind fun secrets => ?_
  dsimp only
  split <;> exact Consults.pure _

theorem consults_ofMembers (fields : List (String × Json)) : Consults (ofMembers fields) := by
  have hmake : Consults (do
      Run.lift (Schema.make "Config" ofFields (← withSources sections fields)) : Run Settings) :=
    (consults_withSources _ _).bind fun _ => Consults.lift _
  unfold ofMembers
  split
  · exact (Consults.throw _).bind fun _ => hmake
  · exact hmake

theorem consults_ofDocument (document : Json) : Consults (ofDocument document) := by
  unfold ofDocument
  split
  · refine (consults_environmentValue _).bind fun key => (Consults.lift _).bind fun fields => ?_
    exact consults_ofMembers fields
  · exact Consults.throw _

theorem consults_firstExisting (paths : List Path) : Consults (firstExisting paths) := by
  induction paths with
  | nil => exact Consults.throw _
  | cons path paths ih =>
    refine (consults_fileExists path).bind fun found => ?_
    split
    · exact Consults.pure _
    · exact ih

theorem consults_load (path : Option Path) : Consults (load path) := by
  have hrest (path : Path) : Consults (do
      ofDocument (← Run.lift (Json.parse (← Run.readFile path))) : Run Settings) :=
    (consults_readFile path).bind fun text => (Consults.lift _).bind fun document =>
      consults_ofDocument document
  cases path with
  | some path => exact hrest path
  | none => exact (consults_firstExisting _).bind hrest

/-! ## The settings in use -/

/-- Nothing but the disk has changed. -/
def DiskOnly (s t : Surroundings) : Prop := ∃ disk, t = { s with disk := disk }

instance : IsPreorder Surroundings DiskOnly where
  refl s := ⟨s.disk, rfl⟩
  trans s t u hst htu := by
    obtain ⟨first, rfl⟩ := hst
    obtain ⟨second, rfl⟩ := htu
    exact ⟨second, rfl⟩

theorem diskOnly_makeDirectory (path : Path) : Keeps DiskOnly (makeDirectory path) :=
  fun s => ⟨(s.disk.makeDirectory path).2, rfl⟩

theorem diskOnly_makeDirectories (directories : List String) :
    Keeps DiskOnly
      (directories.forM fun directory => Run.makeDirectory (.ofText directory) : Run PUnit) :=
  Keeps.forM fun directory => diskOnly_makeDirectory (.ofText directory)

/-- What comes of asking for the settings in use: they are at hand, they cannot be
read, or they are read and are at hand from then on, even if some directory
cannot be made. -/
inductive Asked (s : Surroundings) : Except Fault Live × Surroundings → Prop
  | atHand {live : Live} (known : s.cache.read? s.server = some live) : Asked s (.ok live, s)
  | unreadable {fault : Fault} (unknown : s.cache.read? s.server = none) : Asked s (.error fault, s)
  | loaded {settings : Settings} {result : Except Fault Live} {disk : Disk}
      (unknown : s.cache.read? s.server = none) (loads : load none s = (.ok settings, s))
      (gives : ∀ live, result = .ok live → live = settings.live) :
      Asked s (result, { s with cache := .own settings.live, disk := disk })

theorem asked_of_refresh (hunknown : s.cache.read? s.server = none) : Asked s (refresh s) := by
  unfold refresh
  have hload := (consults_load none).reads.apply s
  cases hresult : (load none s).1 with
  | error =>
    rw [hresult] at hload
    rw [bind_of_error hload]
    exact .unreadable hunknown
  | ok settings =>
    rw [hresult] at hload
    rw [bind_of_ok hload, bind_of_ok (modify_apply _ s)]
    rcases hmakes : (settings.live.base.storage.directories.forM fun directory =>
      Run.makeDirectory (.ofText directory) : Run PUnit) { s with cache := .own settings.live }
      with ⟨fault | ⟨⟩, t⟩
    · obtain ⟨disk, rfl⟩ := (diskOnly_makeDirectories _).of_eq hmakes
      rw [bind_of_error hmakes]
      exact .loaded hunknown hload (by simp)
    · obtain ⟨disk, rfl⟩ := (diskOnly_makeDirectories _).of_eq hmakes
      rw [bind_of_ok hmakes]
      exact .loaded hunknown hload fun live hlive => by cases hlive; rfl

theorem asked_of_current (s : Surroundings) : Asked s (current s) := by
  unfold current
  rw [bind_of_ok (get_apply s)]
  cases hread : s.cache.read? s.server with
  | none => exact asked_of_refresh hread
  | some => exact .atHand hread

theorem current_of_read? {live : Live} (h : s.cache.read? s.server = some live) :
    current s = (.ok live, s) := by
  unfold current
  rw [bind_of_ok (get_apply s), h]
  rfl

theorem current_again {u : Surroundings} {live : Live} (h : current s = (.ok live, u)) :
    current u = (.ok live, u) ∧ u.replies = s.replies ∧ u.log = s.log := by
  have hasked := asked_of_current s
  rw [h] at hasked
  cases hasked with
  | atHand known => exact ⟨current_of_read? known, rfl, rfl⟩
  | loaded _ _ gives =>
    cases gives live rfl
    exact ⟨current_of_read? rfl, rfl, rfl⟩

theorem log_current (s : Surroundings) : (current s).2.log = s.log := by
  have hasked := asked_of_current s
  generalize current s = outcome at hasked
  cases hasked <;> rfl

/-! ## Changing the settings file -/

theorem diskOnly_writeFile (path : Path) (text : String) : Keeps DiskOnly (writeFile path text) := by
  refine Keeps.get.bind fun s => (Keeps.lift _).bind fun disk => Keeps.bind ?_ fun _ => ?_
  · exact fun s => ⟨disk, rfl⟩
  · split
    · exact Keeps.pure _
    · exact Keeps.throw _

theorem diskOnly_rewriteFile (updates : Json) : Keeps DiskOnly (rewriteFile updates) := by
  refine (reads_loadJson? _).keeps.bind fun found => ?_
  cases found with
  | none => exact Keeps.throw _
  | some document =>
    refine (Keeps.lift _).bind fun updates => (Keeps.lift _).bind fun changed => ?_
    exact Keeps.closed.writeJson (diskOnly_writeFile _) _

theorem change_cases {updates : Json} {t : Surroundings} {result : Except Fault Unit}
    (h : change updates s = (result, t)) :
    t.server = s.server ∧ t.cache = if result.isOk then .empty else s.cache := by
  unfold change at h
  rcases hrewrite : rewriteFile updates s with ⟨fault | ⟨⟩, u⟩
  · rw [bind_of_error hrewrite] at h
    cases h
    obtain ⟨disk, rfl⟩ := (diskOnly_rewriteFile updates).of_eq hrewrite
    exact ⟨rfl, rfl⟩
  · rw [bind_of_ok hrewrite, modify_apply] at h
    cases h
    obtain ⟨disk, rfl⟩ := (diskOnly_rewriteFile updates).of_eq hrewrite
    exact ⟨rfl, rfl⟩

end Settings

end Sitecheck
