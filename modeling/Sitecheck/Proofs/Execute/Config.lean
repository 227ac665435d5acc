import Sitecheck.Execute.Playwright
import Sitecheck.Proofs.Clock
import Sitecheck.Proofs.Server.Errand

/-!
# Where the test program looks for its configuration

A run writes the configuration into its directory, and starts the test program one directory
above with the path of the configuration.  The program starts from there and not from
where the server works, so a relative path leads it to the same file only if the directory
of all runs leads up as far as it leads down (`config_found_iff`).
-/

namespace Sitecheck

theorem Chars.splitOn_join {c : Char} {parts : List (List Char)} (hne : parts ≠ [])
    (h : ∀ part ∈ parts, c ∉ part) : splitOn [c] (join [c] parts) = parts := by
  fun_induction join [c] parts with
  | case1 => exact absurd rfl hne
  | case2 part => exact splitOn_of_not_mem (h part List.mem_cons_self)
  | case3 part next parts ih =>
    rw [List.forall_mem_cons] at h
    rw [List.append_assoc, List.singleton_append, splitOn_of_append h.1, ih (by simp) h.2]

namespace Path

/-! ## Paths and their texts -/

def Spelled (path : Path) : Prop := ∀ part ∈ path.parts, IsName part

theorem spelled_ofText (text : String) : (ofText text).Spelled := by
  intro part hpart
  obtain ⟨hsplit, hisPart⟩ := List.mem_filter.mp hpart
  obtain ⟨chars, hchars, rfl⟩ := List.mem_map.mp hsplit
  refine ⟨?_, hisPart⟩
  rw [String.toList_ofList]
  exact Chars.not_mem_of_mem_splitOn_singleton hchars

theorem Spelled.join {path : Path} (h : path.Spelled) {name : String} (hname : IsName name) :
    (path.join name).Spelled := by
  rw [join_name path hname]
  intro part hpart
  rcases List.mem_append.mp hpart with hpart | hpart
  · exact h part hpart
  · exact List.mem_singleton.mp hpart ▸ hname

theorem splitOn_text {first : String} {rest : List String} (h : ∀ part ∈ first :: rest, IsName part) :
    (Text.join "/" (first :: rest)).toList.takeWhile (· = '/') = [] ∧
      Chars.splitOn ['/'] (Text.join "/" (first :: rest)).toList = (first :: rest).map String.toList := by
  have hslash : ∀ part ∈ (first :: rest).map String.toList, '/' ∉ part := by
    simpa only [List.forall_mem_map] using fun part hpart => (h part hpart).noSlash
  have hjoin : (Text.join "/" (first :: rest)).toList =
      Chars.join ['/'] ((first :: rest).map String.toList) := String.toList_ofList
  have hfirst := h first List.mem_cons_self
  have hne : first.toList ≠ [] := by
    intro hnil
    rw [String.toList_eq_nil_iff.mp hnil] at hfirst
    exact absurd hfirst.isPart (by decide)
  rw [hjoin]
  refine ⟨?_, Chars.splitOn_join (by simp) hslash⟩
  cases rest with
  | nil => exact Chars.takeWhile_slash hfirst.noSlash
  | cons =>
    rw [List.map_cons, List.map_cons, Chars.join, List.append_assoc]
    exact Chars.takeWhile_slash_append hfirst.noSlash hne _

theorem ofText_text {path : Path} (h : path.Spelled) : ofText path.text = path := by
  obtain ⟨root, parts⟩ := path
  cases parts with
  | nil => cases root <;> decide +kernel
  | cons first rest =>
    obtain ⟨hslashes, hsplit⟩ := splitOn_text h
    have hkept : (first :: rest).filter isPart = first :: rest :=
      List.filter_eq_self.mpr fun part hpart => (h part hpart).isPart
    -- the slashes of a root leave empty parts
    have hroot (text : List Char) : Chars.splitOn ['/'] ('/' :: text) = [] :: Chars.splitOn ['/'] text :=
      Chars.splitOn_of_append List.not_mem_nil
    have hnone : isPart "" = false := by decide
    cases root <;> simp [text, isAbsolute, ofText, Root.text, Root.ofSlashes, Text.splitOn, hslashes,
      hsplit, hkept, hroot, hnone]

end Path

namespace Disk

variable {names : List String}

/-! ## Up and down -/

/-- So many steps up, and these names down from there. -/
structure Climb where
  ups : Nat
  names : List String

namespace Climb

def ofPart (climb : Climb) (part : String) : Climb :=
  if part == ".." then
    if climb.names = [] then ⟨climb.ups + 1, []⟩ else ⟨climb.ups, climb.names.dropLast⟩
  else ⟨climb.ups, climb.names ++ [part]⟩

def ofParts (parts : List String) : Climb := parts.foldl ofPart ⟨0, []⟩

def apply (climb : Climb) (place : List String) : List String :=
  place.take (place.length - climb.ups) ++ climb.names

theorem step_apply (climb : Climb) (place : List String) (part : String) :
    step (climb.apply place) part = (climb.ofPart part).apply place := by
  obtain ⟨ups, names⟩ := climb
  unfold step ofPart
  split
  · split
    · next hnames =>
      rw [apply, apply, hnames, List.append_nil, List.append_nil, List.dropLast_eq_take, List.take_take,
        List.length_take]
      congr 1
      dsimp only
      omega
    · next hnames => rw [apply, List.dropLast_append_of_ne_nil hnames, apply]
  · rw [apply, List.append_assoc, apply]

theorem resolve_eq_apply (place parts : List String) :
    resolve place parts = (ofParts parts).apply place := by
  have hfold (climb : Climb) : resolve (climb.apply place) parts = (parts.foldl ofPart climb).apply place := by
    induction parts generalizing climb with
    | nil => rfl
    | cons part parts ih =>
      rw [List.foldl_cons, ← ih, ← step_apply]
      rfl
  have hstart : apply ⟨0, []⟩ place = place := by simp [apply]
  rw [ofParts, ← hfold, hstart]

end Climb

/-- A row of parts leads nowhere else the second time exactly if it leads down as far as up,
or less far and up to the root. -/
theorem resolve_resolve_iff (home parts : List String) :
    resolve (resolve home parts) parts = resolve home parts ↔
      (Climb.ofParts parts).names.length = (Climb.ofParts parts).ups ∨
        (Climb.ofParts parts).names.length < (Climb.ofParts parts).ups ∧
          home.length ≤ (Climb.ofParts parts).ups := by
  simp only [Climb.resolve_eq_apply]
  generalize Climb.ofParts parts = climb
  have hlength : (climb.apply home).length = home.length - climb.ups + climb.names.length := by
    simp [Climb.apply]
  have hfront : (home.take (home.length - climb.ups)).length = home.length - climb.ups := by simp
  rw [Climb.apply, hlength]
  nth_rewrite 2 [Climb.apply]
  rw [List.append_left_inj]
  constructor
  · intro h
    have hsame := congrArg List.length h
    rw [List.length_take, hlength, hfront] at hsame
    omega
  · intro h
    have hcount : home.length - climb.ups + climb.names.length - climb.ups = home.length - climb.ups := by
      omega
    rw [hcount, Climb.apply, List.take_left' hfront]

def startedIn (disk : Disk) (directory : String) : Disk :=
  { disk with home := disk.target (.ofText directory) }

theorem resolve_names (h : ∀ name ∈ names, name ≠ "..") (place : List String) :
    resolve place names = place ++ names := by
  induction names generalizing place with
  | nil => exact (List.append_nil place).symm
  | cons name names ih =>
    rw [List.forall_mem_cons] at h
    rw [resolve, List.foldl_cons, step, if_neg (by simpa using h.1)]
    exact (ih h.2 _).trans (by simp)

/-- From where the directory is, its path leads there again: it is absolute, or leads down as
far as up, or less far and up to the root. -/
def LeadsBack (home : List String) (directory : Path) : Prop :=
  directory.isAbsolute = true ∨
    (Climb.ofParts directory.parts).names.length = (Climb.ofParts directory.parts).ups ∨
    (Climb.ofParts directory.parts).names.length < (Climb.ofParts directory.parts).ups ∧
      home.length ≤ (Climb.ofParts directory.parts).ups

theorem target_startedIn_iff (disk : Disk) {directory : Path} (hspelled : directory.Spelled)
    (hnames : ∀ name ∈ names, name ≠ "..") :
    (disk.startedIn directory.text).target ⟨directory.root, directory.parts ++ names⟩ =
        disk.target ⟨directory.root, directory.parts ++ names⟩ ↔ LeadsBack disk.home directory := by
  have habsolute : Path.isAbsolute ⟨directory.root, directory.parts ++ names⟩ = directory.isAbsolute := rfl
  rw [target, target, startedIn, Path.ofText_text hspelled, start, start, habsolute, LeadsBack]
  cases hroot : directory.isAbsolute with
  | true => simp
  | false =>
    simp only [Bool.false_eq_true, if_false, false_or]
    rw [resolve_append, resolve_append, resolve_names hnames, resolve_names hnames,
      List.append_left_inj, target, start, hroot]
    exact resolve_resolve_iff disk.home directory.parts

end Disk

namespace Execute

variable {id : String} {s : Surroundings}

open Run

/-! ## Runs -/

theorem runSpec_eq (spec : Path) (suiteId : String) :
    ∃ next : Settings.Live × String → Binary64 → Finished → Run TestRun,
      runSpec spec suiteId = (prepare >>= fun made => loopTime >>= fun start =>
        launch spec made.1.base made.2 >>= next made start) := by
  unfold runSpec carryOut
  simp only [bind_assoc, pure_bind]
  exact ⟨_, rfl⟩

theorem isName_runId {t : Surroundings} (h : freshId "run_" s = (.ok id, t)) :
    Path.IsName id ∧ id ≠ ".." := by
  have hslash : '/' ∉ id.toList := Server.slash_not_mem_freshId h (by decide)
  obtain ⟨text, rfl⟩ := Server.exists_of_freshId h
  have hlength : 4 ≤ ("run_" ++ Text.take 8 (Digest.md5Hex text)).length := by
    rw [String.length_append]
    exact Nat.le_add_right _ _
  exact ⟨⟨hslash, Path.isPart_of_length (by omega)⟩, Path.ne_of_length_lt (lt_of_lt_of_le (by decide) hlength)⟩

theorem writes_prepare : Keeps (Writes fun _ => True) prepare :=
  writes_current.bind fun _ => (Server.diskless_freshId "run_").writes.bind fun _ =>
    (writes_makeDirectory _).bind fun _ => (writes_writeFile trivial _).bind fun _ => Keeps.pure _

theorem exists_of_prepare {v : Surroundings} {live : Settings.Live}
    (h : prepare s = (.ok (live, id), v)) :
    (∃ u, Settings.current s = (.ok live, u)) ∧ Path.IsName id ∧ id ≠ ".." ∧
      v.disk.entry? (v.disk.target (configPath live.base.storage id)) =
        some (.file (configuration live.base.runner (runDirectory live.base.storage id))) := by
  obtain ⟨live, u, hlive, h⟩ := exists_of_bind_ok h
  obtain ⟨id, w, hid, h⟩ := exists_of_bind_ok h
  obtain ⟨-, x, -, h⟩ := exists_of_bind_ok h
  obtain ⟨⟨⟩, y, hwrite, h⟩ := exists_of_bind_ok h
  cases h
  obtain ⟨hname, hdots⟩ := isName_runId hid
  refine ⟨⟨u, hlive⟩, hname, hdots, ?_⟩
  have hletter : 'p' ∈ "playwright.config.ts".toList := by decide
  obtain ⟨location, hplace, hentry⟩ := Disk.entry?_of_write
    (Path.parts_join_ne_nil _ hletter (by decide) (by decide)) (Server.writeFile_ok hwrite)
  exact Disk.place_eq_target hplace ▸ hentry

theorem target_configPath_iff (disk : Disk) (storage : Settings.Storage) (hname : Path.IsName id)
    (hdots : id ≠ "..") :
    (disk.startedIn (runDirectory storage id).parent.text).target (.ofText (configPath storage id).text) =
        disk.target (configPath storage id) ↔
      Disk.LeadsBack disk.home (.ofText storage.artifacts) := by
  have hconfig : Path.IsName "playwright.config.ts" := ⟨by decide, by decide⟩
  have hspelled := Path.spelled_ofText storage.artifacts
  have hpath : Path.ofText (configPath storage id).text = configPath storage id :=
    Path.ofText_text ((hspelled.join hname).join hconfig)
  have hparent : (runDirectory storage id).parent = .ofText storage.artifacts := by
    rw [runDirectory, Path.join_name _ hname, Path.parent, List.dropLast_concat]
  have hnames : ∀ name ∈ [id, "playwright.config.ts"], name ≠ ".." := by
    simpa using hdots
  rw [hpath, hparent, configPath, runDirectory, Path.join_name _ hname, Path.join_name _ hconfig,
    List.append_assoc]
  exact Disk.target_startedIn_iff disk hspelled hnames

/-- A run writes the configuration and then starts the test program, in the directory of all
runs, with the path of the file.  From there the path leads to the file exactly if the path of
that directory leads back to it. -/
theorem config_found_iff (spec : Path) (suiteId : String) (s : Surroundings) :
    (∀ fault v, prepare s = (.error fault, v) → runSpec spec suiteId s = (.error fault, v)) ∧
    ∀ live id v, prepare s = (.ok (live, id), v) →
      (∃ u, Settings.current s = (.ok live, u)) ∧
      (∃ next : Binary64 → Finished → Run TestRun,
        runSpec spec suiteId s =
          (loopTime >>= fun start => launch spec live.base id >>= next start) v) ∧
      v.disk.home = s.disk.home ∧
      v.disk.entry? (v.disk.target (configPath live.base.storage id)) =
        some (.file (configuration live.base.runner (runDirectory live.base.storage id))) ∧
      ((v.disk.startedIn (runDirectory live.base.storage id).parent.text).target
            (.ofText (configPath live.base.storage id).text) =
          v.disk.target (configPath live.base.storage id) ↔
        Disk.LeadsBack s.disk.home (.ofText live.base.storage.artifacts)) := by
  obtain ⟨next, hrun⟩ := runSpec_eq spec suiteId
  refine ⟨fun fault v hprepare => by rw [hrun, bind_of_error hprepare], fun live id v hprepare => ?_⟩
  obtain ⟨hlive, hname, hdots, hentry⟩ := exists_of_prepare hprepare
  have hwrites : Writes (fun _ => True) s (prepare s).2 := writes_prepare s
  rw [hprepare] at hwrites
  refine ⟨hlive, ⟨next (live, id), by rw [hrun, bind_of_ok hprepare]⟩, hwrites.home, hentry, ?_⟩
  rw [← hwrites.home]
  exact target_configPath_iff v.disk live.base.storage hname hdots

open Crawl.Crawler (sampleSettings)

def relativeOffice : Surroundings :=
  { Crawl.Crawler.sampleSurroundings Crawl.Crawler.restlessWeb with
    now := ⟨Moment.dayNumber 2024 1 2 * Moment.dayMicros, ""⟩
    cache := .own sampleSettings.live }

theorem freshId_relativeOffice :
    freshId "run_" relativeOffice = (.ok "run_77480dc4", relativeOffice.after 1) := by
  have hid : (relativeOffice.reading 0).identifier "run_" = "run_77480dc4" := by decide +kernel
  rw [freshId_of_timely ⟨rfl, by decide +kernel⟩ (by decide), hid]

theorem isScalar_relativeOffice : Text.isScalar (configuration sampleSettings.live.base.runner
    ⟨.working, ["artifacts", "run_77480dc4"]⟩) = true := by
  have hdirectory : (⟨.working, ["artifacts", "run_77480dc4"]⟩ : Path).text = "artifacts/run_77480dc4" := by
    decide +kernel
  refine Text.isScalar_of_not_mem fun hmem => ?_
  rw [configuration, Text.join, String.toList_ofList, hdirectory] at hmem
  rcases Chars.mem_of_mem_join hmem with hmem | ⟨line, hline, hmem⟩
  · exact absurd hmem (by decide)
  · revert line
    decide +kernel

theorem directory_relativeOffice : (Path.ofText sampleSettings.live.base.storage.artifacts).join "run_77480dc4" =
    ⟨.working, ["artifacts", "run_77480dc4"]⟩ := by decide +kernel

theorem prepare_relativeOffice :
    ∃ made v, prepare relativeOffice = (.ok made, v) ∧ made = (sampleSettings.live, "run_77480dc4") := by
  have hconfig : configPath sampleSettings.live.base.storage "run_77480dc4" =
      ⟨.working, ["artifacts", "run_77480dc4", "playwright.config.ts"]⟩ := by decide +kernel
  refine andThen (Settings.current_of_read? rfl) <| andThen freshId_relativeOffice ?_
  rw [hconfig, runDirectory, directory_relativeOffice]
  exact andThen rfl <| andThen (writeFile_of_write rfl isScalar_relativeOffice) ⟨_, _, rfl, rfl⟩

/-- From the directory of all runs, the path of the configuration leads a directory too deep. -/
theorem config_not_found_relativeOffice : ∃ live id v,
    prepare relativeOffice = (.ok (live, id), v) ∧
      (v.disk.startedIn (runDirectory live.base.storage id).parent.text).target
          (.ofText (configPath live.base.storage id).text) ≠
        v.disk.target (configPath live.base.storage id) := by
  obtain ⟨_, v, hprepare, rfl⟩ := prepare_relativeOffice
  obtain ⟨-, -, -, -, hfound⟩ :=
    (config_found_iff (.ofText "login.spec.ts") "suite" relativeOffice).2 _ _ v hprepare
  refine ⟨_, _, v, hprepare, hfound.not.mpr ?_⟩
  unfold Disk.LeadsBack
  decide +kernel

end Execute

end Sitecheck
