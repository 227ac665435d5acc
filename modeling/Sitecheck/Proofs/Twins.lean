import Sitecheck.Proofs.Agreement
import Sitecheck.Proofs.Settings.Reading

/-!
# Surroundings that differ in the texts of files

What an action reads shows in surroundings that are twins: they differ in nothing but the
texts of files, and not in those that certain paths name.  An action that comes to the same
in all twins reads no other file.  What an action writes shows in the files that are other
than before.
-/

namespace Sitecheck.Run

variable {α β : Type} {paths : Path → Prop}
  {known : Option Settings.Live → Settings.Cache → Prop} {s t : Surroundings}

/-- The same but for the texts of files that certain paths do not name.  Besides, something is
known of the settings of the server and of those at hand. -/
structure Twins (paths : Path → Prop) (known : Option Settings.Live → Settings.Cache → Prop)
    (s t : Surroundings) : Prop where
  known : known s.server s.cache
  same : t = { s with disk := t.disk }
  disk : s.disk.Agrees paths t.disk

/-- Besides new directories, only files that certain paths name are other than before. -/
def Writes (paths : Path → Prop) (s t : Surroundings) : Prop :=
  s.disk.Changed (s.disk.targets paths) t.disk

instance (paths : Path → Prop) : IsPreorder Surroundings (Writes paths) where
  refl s := .refl s.disk
  trans s t u hst htu := by
    have htargets : t.disk.targets paths = s.disk.targets paths := by
      funext place
      simp only [Disk.targets, hst.toStands.target]
    rw [Writes, htargets] at htu
    exact Disk.Changed.trans hst htu

/-! ## Actions that do not turn to the disk -/

/-- The action turns neither to the disk nor to the settings. -/
def Diskless (action : Run α) : Prop :=
  ∀ s disk, action { s with disk := disk } = ((action s).1, { (action s).2 with disk := disk }) ∧
    (action s).2.server = s.server ∧ (action s).2.cache = s.cache

namespace Diskless

theorem disk {action : Run α} (h : Diskless action) (s : Surroundings) :
    (action s).2.disk = s.disk :=
  congrArg (fun outcome => outcome.2.disk) (h s s.disk).1

theorem lift (result : Except Fault α) : Diskless (lift result) := fun _ _ => ⟨rfl, rfl, rfl⟩

theorem attempt {action : Run α} (h : Diskless action) : Diskless (attempt action) := by
  intro s disk
  obtain ⟨happly, hsettings⟩ := h s disk
  refine ⟨?_, hsettings⟩
  rw [attempt_apply, attempt_apply, happly]

theorem bind {action : Run α} {next : α → Run β} (h : Diskless action)
    (hnext : ∀ a, Diskless (next a)) : Diskless (action >>= next) := by
  intro s disk
  obtain ⟨happly, hserver, hcache⟩ := h s disk
  rcases haction : action s with ⟨fault | a, t⟩ <;> rw [haction] at happly hserver hcache
  · rw [bind_of_error haction, bind_of_error happly]
    exact ⟨rfl, hserver, hcache⟩
  · rw [bind_of_ok haction, bind_of_ok happly]
    obtain ⟨happly', hserver', hcache'⟩ := hnext a t disk
    exact ⟨happly', hserver'.trans hserver, hcache'.trans hcache⟩

theorem closed : Closed fun _ action => Diskless action := ⟨lift, attempt, bind⟩

theorem respects {action : Run α} (h : Diskless action) : Respects (Twins paths known) action := by
  intro s t hst
  obtain ⟨happly, hserver, hcache⟩ := h s t.disk
  rw [← hst.same] at happly
  rw [happly]
  refine ⟨rfl, ?_, rfl, ?_⟩
  · rw [hserver, hcache]
    exact hst.known
  · rw [h.disk]
    exact hst.disk

theorem writes {action : Run α} (h : Diskless action) : Keeps (Writes paths) action := by
  intro s
  rw [Writes, h.disk]
  exact .refl s.disk

end Diskless

theorem diskless_record (event : Event) : Diskless (record event) := fun _ _ => ⟨rfl, rfl, rfl⟩

theorem diskless_timestamp : Diskless timestamp := by
  intro s disk
  simp only [timestamp_apply]
  split <;> exact ⟨rfl, rfl, rfl⟩

theorem diskless_uuid : Diskless uuid := by
  intro s disk
  simp only [uuid_apply]
  cases hids : s.uuids <;> simp only [hids, and_self]

theorem diskless_ask (apiKey : String) (request : List (String × Json)) :
    Diskless (ask apiKey request) := by
  refine (diskless_record _).bind fun _ => Diskless.bind ?_ fun reply => ?_
  · intro s disk
    simp only [modifyGet_apply]
    cases hreplies : s.replies <;> simp only [hreplies, and_self]
  · cases reply <;> exact Diskless.lift _

theorem diskless_nextProgram (arguments : List String) :
    Diskless (modifyGet fun s =>
      match s.programs with
      | [] =>
        (ProgramReply.fault (.outer .fileMissing ("no such program: " ++ arguments.headD "")), s)
      | reply :: rest => (reply, { s with programs := rest }) : Run ProgramReply) := by
  intro s disk
  simp only [modifyGet_apply]
  cases hprograms : s.programs <;> simp only [hprograms, and_self]

theorem diskless_runProgram {arguments : List String}
    (hconfig : argumentAfter? "--config" arguments = none)
    (hsummary : argumentAfter? "--summary-export" arguments = none) (directory : Option String)
    (timeout : Option Nat) : Diskless (runProgram arguments directory timeout) := by
  refine (diskless_record _).bind fun _ => (diskless_nextProgram arguments).bind fun reply => ?_
  cases reply with
  | fault => exact Diskless.lift _
  | finished result =>
    simp only [hconfig, hsummary]
    cases result.results <;> cases result.summary <;> exact Diskless.lift _

/-! ## The disk -/

theorem twins_fileExists (path : Path) : Respects (Twins paths known) (fileExists path) := by
  intro s t hst
  exact ⟨hst.disk.exists? path, hst⟩

theorem twins_readFile {path : Path} (hpath : paths path) :
    Respects (Twins paths known) (readFile path) := by
  intro s t hst
  exact ⟨hst.disk.read hpath, hst⟩

theorem twins_loadJson? {path : Path} (hpath : paths path) :
    Respects (Twins paths known) (loadJson? path) := by
  refine (twins_fileExists path).bind fun found => ?_
  split
  · exact Respects.bind ((twins_readFile hpath).bind fun _ => Respects.lift _) fun _ => Respects.pure _
  · exact Respects.pure _

theorem twins_makeDirectory (path : Path) : Respects (Twins paths known) (makeDirectory path) := by
  intro s t hst
  obtain ⟨hresult, hdisk⟩ := hst.disk.makeDirectory path
  rw [makeDirectory_apply, makeDirectory_apply]
  refine ⟨hresult, hst.known, ?_, hdisk⟩
  rw [hst.same]

theorem twins_writeFile (path : Path) (text : String) :
    Respects (Twins paths known) (writeFile path text) := by
  intro s t hst
  rw [writeFile_apply, writeFile_apply]
  rcases hst.disk.write path (if Text.isScalar text then text else "") with
    ⟨fault, hs, ht⟩ | ⟨disk, disk', hs, ht, hdisk⟩ <;> rw [hs, ht]
  · exact ⟨rfl, hst⟩
  · refine ⟨rfl, hst.known, ?_, hdisk⟩
    rw [hst.same]

theorem twins_writeJson (path : Path) (document : Json) :
    Respects (Twins paths known) (writeJson path document) :=
  Respects.closed.writeJson (twins_writeFile path) document

theorem twins_saveJson (path : Path) (document : Json) :
    Respects (Twins paths known) (saveJson path document) :=
  (twins_makeDirectory _).bind fun _ => twins_writeJson _ _

theorem twins_runProgram (arguments : List String) (directory : Option String)
    (timeout : Option Nat) : Respects (Twins paths known) (runProgram arguments directory timeout) := by
  refine (diskless_record _).respects.bind fun _ => Respects.bind (diskless_nextProgram arguments).respects
    fun reply => ?_
  cases reply with
  | fault => exact Respects.throw _
  | finished =>
    dsimp only
    split
    on_goal 1 => refine (twins_writeFile _ _).bind fun _ => ?_
    -- the results are written or not; the summary is left
    all_goals
      split
      · exact (twins_writeFile _ _).bind fun _ => Respects.pure _
      · exact Respects.pure _

theorem writes_makeDirectory (path : Path) : Keeps (Writes paths) (makeDirectory path) :=
  fun s => .of_grown (Disk.grown_makeDirectory path s.disk)

theorem writes_writeFile {path : Path} (hpath : paths path) (text : String) :
    Keeps (Writes paths) (writeFile path text) := by
  intro s
  rw [writeFile_apply]
  split
  · exact refl s
  · next disk hwrite => exact .of_write hwrite ⟨path, hpath, rfl⟩

theorem writes_writeJson {path : Path} (hpath : paths path) (document : Json) :
    Keeps (Writes paths) (writeJson path document) :=
  Keeps.closed.writeJson (writes_writeFile hpath) document

theorem writes_saveJson {path : Path} (hpath : paths path) (document : Json) :
    Keeps (Writes paths) (saveJson path document) :=
  (writes_makeDirectory _).bind fun _ => writes_writeJson hpath _

/-! ## The settings in use -/

theorem writes_current : Keeps (Writes paths) Settings.current := by
  refine Keeps.get.bind fun s => ?_
  cases s.cache.read? s.server with
  | some => exact Keeps.pure _
  | none =>
    refine (Settings.consults_load none).reads.keeps.bind fun settings => ?_
    refine Keeps.bind (fun s => Disk.Changed.refl s.disk) fun _ => ?_
    exact (Keeps.forM fun directory => writes_makeDirectory _).bind fun _ => Keeps.pure _

def served (live : Settings.Live) : Option Settings.Live → Settings.Cache → Prop :=
  fun server _ => server = some live

def informed (live current : Settings.Live) : Option Settings.Live → Settings.Cache → Prop :=
  fun server cache => server = some live ∧ cache.read? server = some current

variable {live current : Settings.Live}

theorem Twins.server (h : Twins paths known s t) : t.server = s.server := by rw [h.same]

theorem Twins.cache (h : Twins paths known s t) : t.cache = s.cache := by rw [h.same]

theorem twins_current : Respects (Twins paths (informed live current)) Settings.current := by
  intro s t hst
  have hread : t.cache.read? t.server = some current := by
    rw [hst.server, hst.cache]
    exact hst.known.2
  rw [Settings.current_of_read? hst.known.2, Settings.current_of_read? hread]
  exact ⟨rfl, hst⟩

theorem twins_makeDirectories (directories : List String) :
    Respects (Twins paths known)
      (directories.forM fun directory => Run.makeDirectory (.ofText directory) : Run PUnit) :=
  Respects.forM fun directory => twins_makeDirectory (.ofText directory)

theorem exists_of_current {u : Surroundings} (hunknown : s.cache.read? s.server = none)
    (h : Settings.current s = (.ok current, u)) :
    (current.base.storage.directories.forM fun directory => Run.makeDirectory (.ofText directory) :
      Run PUnit) { s with cache := .own current } = (.ok ⟨⟩, u) := by
  unfold Settings.current at h
  rw [bind_of_ok (get_apply s), hunknown] at h
  obtain ⟨settings, t, hload, h⟩ := exists_of_bind_ok h
  obtain rfl := (Settings.consults_load none).reads.of_eq hload
  rw [bind_of_ok (modify_apply _ s)] at h
  obtain ⟨⟨⟩, t, hmade, h⟩ := exists_of_bind_ok h
  cases h
  exact hmade

theorem Twins.of_current {u v : Surroundings} (hst : Twins paths (served live) s t)
    (hs : Settings.current s = (.ok current, u)) (ht : Settings.current t = (.ok current, v)) :
    Twins paths (informed live current) u v := by
  have hread : t.cache.read? t.server = s.cache.read? s.server := by rw [hst.server, hst.cache]
  cases hfound : s.cache.read? s.server with
  | some =>
    rw [Settings.current_of_read? hfound] at hs
    rw [Settings.current_of_read? (hread.trans hfound)] at ht
    cases hs
    cases ht
    exact ⟨⟨hst.known, hfound⟩, hst.same, hst.disk⟩
  | none =>
    have hkept : Twins paths (informed live current) { s with cache := .own current }
        { t with cache := .own current } :=
      ⟨⟨hst.known, rfl⟩, by rw [hst.same], hst.disk⟩
    have hmade := (twins_makeDirectories current.base.storage.directories _ _ hkept).2
    rw [exists_of_current hfound hs, exists_of_current (hread.trans hfound) ht] at hmade
    exact hmade

/-- An action that goes on with the settings in use comes to the same for such twins. -/
theorem Twins.current_bind {rest : Settings.Live → Run α} (hst : Twins paths (served live) s t)
    (hsame : (Settings.current t).1 = (Settings.current s).1)
    (hrest : ∀ current, Respects (Twins paths (informed live current)) (rest current)) :
    ((Settings.current >>= rest) t).1 = ((Settings.current >>= rest) s).1 := by
  rcases hs : Settings.current s with ⟨fault | current, u⟩ <;>
    rcases ht : Settings.current t with ⟨fault' | current', v⟩ <;>
    rw [hs, ht] at hsame <;> cases hsame
  · rw [bind_of_error hs, bind_of_error ht]
  · rw [bind_of_ok hs, bind_of_ok ht]
    exact (hrest current u v (hst.of_current hs ht)).1

end Sitecheck.Run
