import Sitecheck.Proofs.Path
import Sitecheck.Proofs.Server.Making
import Sitecheck.Proofs.Server.Posting
import Sitecheck.Proofs.Twins

/-!
# Requests that name what is kept

Compiling and running a suite, compiling its tests of a programming interface and making
tests for a crawl are asked for by an identifier, and the identifier names the files that are
read and written.  No other file is read but for the settings (`unmoved_errand`), and no
other file is written (`writes_errand`).
-/

namespace Sitecheck

namespace Run

variable {α β : Type} {s t : Surroundings}
variable {action : Run α} {next : α → Run β} {R : Surroundings → Surroundings → Prop}

def Unmoved (s t : Surroundings) (action : Run α) : Prop := (action t).1 = (action s).1

theorem Unmoved.lift (result : Except Fault α) : Unmoved s t (lift result) := rfl

theorem Unmoved.bind_of_reads (hreads : Reads action) (h : Unmoved s t action)
    (hnext : ∀ a, Unmoved s t (next a)) :
    Unmoved s t (action >>= next) := by
  have hs := hreads.apply s
  have ht := hreads.apply t
  rw [h] at ht
  cases hresult : (action s).1 with
  | error =>
    rw [hresult] at hs ht
    rw [Unmoved, bind_of_error hs, bind_of_error ht]
  | ok a =>
    rw [hresult] at hs ht
    rw [Unmoved, bind_of_ok hs, bind_of_ok ht]
    exact hnext a

theorem keeps_bind_at [IsPreorder Surroundings R] (h : R s (action s).2)
    (hnext : ∀ a t, action s = (.ok a, t) → R t (next a t).2) : R s ((action >>= next) s).2 := by
  rcases haction : action s with ⟨fault | a, t⟩
  · rw [haction] at h
    rw [bind_of_error haction]
    exact h
  · rw [haction] at h
    rw [bind_of_ok haction]
    exact IsTrans.trans _ _ _ h (hnext a t haction)

theorem Reads.keeps_bind_at [IsPreorder Surroundings R] (h : Reads action)
    (hnext : ∀ a, action s = (.ok a, s) → R s (next a s).2) : R s ((action >>= next) s).2 := by
  refine Run.keeps_bind_at (h.keeps s) fun a t haction => ?_
  obtain rfl := h.of_eq haction
  exact hnext a haction

end Run

namespace Server

variable {request : Request} {errand : Errand} {c : Char} {text : String} {s t : Surroundings}

open Run

/-! ## Errands -/

inductive Errand where
  | compile (suite : String)
  | run (suite : String)
  | compileApi (suite : String)
  | logic (request : LogicRequest)

namespace Errand

def id : Errand → String
  | compile suite | run suite | compileApi suite => suite
  | logic request => request.crawlId

def endpoint : Errand → Endpoint
  | compile suite => Server.compile ⟨suite⟩
  | run suite => Server.run ⟨suite⟩
  | compileApi suite => Server.compileApi suite
  | logic request => Server.logic request

def label : Errand → String
  | compile _ => "Compilation failed: "
  | run _ => "Test run failed: "
  | compileApi _ | logic _ => ""

/-- The errand of a request, if it is one and can be read. -/
def ofRequest? (request : Request) : Option Errand :=
  match Routing.ofRequest request.method request.path with
  | .found .compile => (bodyOf? CompileRequest.ofFields request).map fun body => compile body.suiteId
  | .found .run => (bodyOf? RunRequest.ofFields request).map fun body => run body.suiteId
  | .found .api => (Query.value? "suite_id" request.query).map compileApi
  | .found .logic => (bodyOf? LogicRequest.ofFields request).map logic
  | _ => none

end Errand

theorem withBody_of_bodyOf? {α : Type} {read : List (String × Json) → Schema.Outcome α} {value : α}
    (h : bodyOf? read request = some value) (next : α → Run Answer) :
    withBody read request next = next value := by
  rcases withBody_cases read request next with ⟨found, hfound, hnext⟩ | ⟨answer, hnone, -⟩
  · rw [h] at hfound
    cases hfound
    exact hnext
  · rw [h] at hnone
    cases hnone

theorem respond_of_errand (h : Errand.ofRequest? request = some errand) (s : Surroundings) :
    respond request s =
      (.ok (answerTo errand.label (errand.endpoint s).1), (errand.endpoint s).2) := by
  rw [← answer_apply]
  unfold Errand.ofRequest? at h
  unfold respond
  split at h
  case h_3 hroute =>
    obtain ⟨suite, hsuite, rfl⟩ := Option.map_eq_some_iff.mp h
    rw [hroute]
    simp only [onRoute, withSuite, hsuite]
    rfl
  case h_5 => cases h
  -- all others have a body
  all_goals
    rename_i hroute
    obtain ⟨body, hbody, rfl⟩ := Option.map_eq_some_iff.mp h
    rw [hroute]
    exact congrFun (withBody_of_bodyOf? hbody _) s

/-! ## Files -/

structure Kept where
  directory : Path
  path : Path

/-- The files of an errand: those that are read, run or written.  The server works with `live`;
`current` are the settings in use, if they can be had. -/
inductive Errand.Files (live : Settings.Live) (current : Option Settings.Live) : Errand → Kept → Prop
  | suite {errand : Errand} (suite : ∀ request, errand ≠ .logic request) :
      Files live current errand
        ⟨.ofText live.base.storage.specs, suitePath live.base.storage errand.id⟩
  | compiled {suite : String} {used : Settings.Live} (inUse : current = some used) :
      Files live current (.compile suite) ⟨.ofText used.base.storage.specs,
        (Spec.compiledDirectory used.base.storage).join (suite ++ ".spec.ts")⟩
  | compiledApi {suite : String} {used : Settings.Live} (inUse : current = some used) :
      Files live current (.compileApi suite) ⟨.ofText used.base.storage.specs,
        (Spec.compiledDirectory used.base.storage).join (suite ++ "_api.spec.ts")⟩
  | run {suite : String} : Files live current (.run suite) ⟨.ofText live.base.storage.specs,
      (Spec.compiledDirectory live.base.storage).join (suite ++ ".spec.ts")⟩
  | report {suite fresh : String} (plain : '/' ∉ fresh.toList) :
      Files live current (.run suite) ⟨reportDirectory,
        reportDirectory.join ("run_" ++ suite ++ "_" ++ fresh ++ "_report.json")⟩
  | site {request : LogicRequest} : Files live current (.logic request)
      ⟨.ofText live.base.storage.siteMaps,
        (Path.ofText live.base.storage.siteMaps).join (request.crawlId ++ ".json")⟩
  | made {request : LogicRequest} {fresh : String} (plain : '/' ∉ fresh.toList) :
      Files live current (.logic request)
        ⟨.ofText live.base.storage.specs, suitePath live.base.storage fresh⟩

def Errand.Paths (live : Settings.Live) (current : Option Settings.Live) (errand : Errand)
    (path : Path) : Prop :=
  ∃ file, errand.Files live current file ∧ file.path = path

theorem Errand.Files.paths {live : Settings.Live} {current : Option Settings.Live}
    {directory path : Path} (h : errand.Files live current ⟨directory, path⟩) :
    errand.Paths live current path := ⟨_, h, rfl⟩

/-! ## Identifiers that are made up -/

/-- A character that is no digit to base 16. -/
def Foreign (c : Char) : Prop := ∀ n < 16, n.digitChar ≠ c

instance (c : Char) : Decidable (Foreign c) := inferInstanceAs (Decidable (∀ n < 16, _ ≠ c))

theorem not_mem_toDigits (h : Foreign c) (n : Nat) : c ∉ Nat.toDigits 16 n := by
  induction n using Nat.strongRecOn with
  | ind n ih =>
    by_cases hlt : n < 16
    · rw [Nat.toDigits_of_lt_base hlt, List.mem_singleton]
      exact (h n hlt).symm
    · rw [Nat.toDigits_of_base_le (by decide) (by omega), List.mem_append, List.mem_singleton, not_or]
      exact ⟨ih (n / 16) (by omega), (h _ (Nat.mod_lt _ (by decide))).symm⟩

theorem not_mem_md5Hex (h : Foreign c) (text : String) : c ∉ (Digest.md5Hex text).toList := by
  rw [Digest.md5Hex, Digest.hexOfBytes, String.toList_ofList, List.mem_flatMap]
  rintro ⟨byte, -, hmem⟩
  have hbyte : byte.toNat < 256 := byte.toNat_lt
  rcases List.mem_pair.mp hmem with heq | heq
  · exact h _ (by omega) heq.symm
  · exact h _ (by omega) heq.symm

theorem not_mem_take (h : c ∉ text.toList) (n : Nat) : c ∉ (Text.take n text).toList := by
  intro hmem
  rw [Text.take, String.toList_ofList] at hmem
  obtain ⟨point, hpoint, hmem⟩ := List.mem_flatten.mp hmem
  have hall : c ∈ (Text.points text.toList).flatten :=
    List.mem_flatten.mpr ⟨point, List.mem_of_mem_take hpoint, hmem⟩
  rw [Text.flatten_points] at hall
  exact h hall

theorem exists_of_freshId {label id : String} (h : freshId label s = (.ok id, t)) :
    ∃ text, id = label ++ Text.take 8 (Digest.md5Hex text) := by
  obtain ⟨now, u, -, h⟩ := exists_of_bind_ok h
  cases hscalar : Text.scalar? (label ++ now) with
  | none =>
    rw [hscalar] at h
    cases h
  | some text =>
    rw [hscalar] at h
    cases h
    exact ⟨text, rfl⟩

theorem not_mem_freshId {label id : String} (h : freshId label s = (.ok id, t)) (hc : Foreign c)
    (hlabel : c ∉ label.toList) : c ∉ id.toList := by
  obtain ⟨text, rfl⟩ := exists_of_freshId h
  rw [String.toList_append, List.mem_append, not_or]
  exact ⟨hlabel, not_mem_take (not_mem_md5Hex hc text) 8⟩

theorem slash_not_mem_freshId {label id : String} (h : freshId label s = (.ok id, t))
    (hlabel : '/' ∉ label.toList) : '/' ∉ id.toList :=
  not_mem_freshId h (by decide) hlabel

theorem slash_not_mem_digits {id : String} (h : Uuid.digits text = .ok id) : '/' ∉ id.toList := by
  unfold Uuid.digits at h
  dsimp only at h
  split at h
  · cases h
  · split at h
    · cases h
    · cases h
    · cases h
      simp [NumberFormat.pad, not_mem_toDigits (by decide : Foreign '/')]

theorem slash_not_mem_uuid {id : String} (h : uuid s = (.ok id, t)) : '/' ∉ id.toList := by
  rw [uuid_apply] at h
  cases hids : s.uuids with
  | nil =>
    rw [hids] at h
    cases h
    decide
  | cons =>
    rw [hids] at h
    exact slash_not_mem_digits (Prod.mk.inj h).1

/-! ## Writing -/

section Writing

variable {paths : Path → Prop} {s : Surroundings} {live : Settings.Live}
variable {storage : Settings.Storage}

theorem writes_save {name : String} (hpath : paths ((Spec.compiledDirectory storage).join name))
    (code : String) :
    Keeps (Writes paths) (Spec.save storage name code) :=
  (writes_makeDirectory _).bind fun _ => (writes_writeFile hpath _).bind fun _ => Keeps.pure _

def inUse? (s : Surroundings) : Option Settings.Live := (Settings.current s).1.toOption

theorem inUse?_of_ok {used : Settings.Live} {t : Surroundings}
    (h : Settings.current s = (.ok used, t)) : inUse? s = some used := by
  rw [inUse?, h]
  rfl

theorem id_of_suiteOfDocument {id : String} {document : Json} {suite : Suite}
    (h : suiteOfDocument id document = .ok suite) : suite.id = id := by
  obtain ⟨member, -, h⟩ := bind_eq_ok_iff.mp h
  obtain ⟨tests, -, h⟩ := bind_eq_ok_iff.mp h
  obtain ⟨cases, -, h⟩ := bind_eq_ok_iff.mp h
  obtain ⟨base, -, h⟩ := bind_eq_ok_iff.mp h
  rw [Suite.ofFields_cases, Schema.Outcome.orFault_eq_ok_iff, Schema.Outcome.map_eq_value_iff] at h
  obtain ⟨address, -, rfl⟩ := h
  rfl

theorem writes_withDocument (hserver : s.server = some live) {place : Settings.Storage → Path}
    {missing : String} {next : Settings.Storage → Json → Endpoint}
    (hnext : ∀ document, Writes paths s (next live.base.storage document s).2) :
    Writes paths s (withDocument place missing next s).2 := by
  rw [withDocument, bind_of_ok (settings_of_server hserver)]
  refine (reads_loadJson? _).keeps_bind_at fun found _ => ?_
  cases found with
  | none => exact refl s
  | some document => exact hnext document

theorem writes_compile (hserver : s.server = some live) (suite : String) :
    Writes ((Errand.compile suite).Paths live (inUse? s)) s (compile ⟨suite⟩ s).2 := by
  refine writes_withDocument hserver fun document => ?_
  refine (reads_lift _).keeps_bind_at fun made hmade => ?_
  have hid : made.id = suite := id_of_suiteOfDocument (congrArg Prod.fst hmade)
  rw [Spec.compile, bind_assoc]
  refine keeps_bind_at (writes_current s) fun used t hused => ?_
  refine Keeps.bind (writes_save ?_ _) (fun _ => Keeps.pure _) t
  rw [hid]
  exact Errand.Files.paths (.compiled (inUse?_of_ok hused))

theorem writes_compileApi (hserver : s.server = some live) (suite : String) :
    Writes ((Errand.compileApi suite).Paths live (inUse? s)) s (compileApi suite s).2 := by
  refine writes_withDocument hserver fun document => ?_
  refine (reads_lift _).keeps_bind_at fun tests _ => ?_
  split
  · exact refl s
  · refine (reads_lift _).keeps_bind_at fun base _ => ?_
    rw [Spec.Api.compile, bind_assoc]
    refine keeps_bind_at (writes_current s) fun used t hused => ?_
    refine Keeps.bind ((Keeps.lift _).bind fun _ => writes_save ?_ _) (fun _ => Keeps.pure _) t
    exact Errand.Files.paths (.compiledApi (inUse?_of_ok hused))

theorem diskless_freshId (label : String) : Diskless (freshId label) :=
  closed_freshId Diskless.closed diskless_timestamp label

theorem writes_wantedTests (kinds : List String) (site : SiteMap) :
    Keeps (Writes paths) (wantedTests kinds site) :=
  closed_wantedTests Keeps.closed writes_current (fun _ _ => (diskless_ask _ _).writes)
    diskless_timestamp.writes kinds site

theorem writes_logic (hserver : s.server = some live) (request : LogicRequest) :
    Writes ((Errand.logic request).Paths live (inUse? s)) s (logic request s).2 := by
  have hsuite (site : SiteMap) : Keeps (Writes ((Errand.logic request).Paths live (inUse? s)))
      (logicSuite request live.base.storage site) := by
    refine (writes_wantedTests _ site).bind fun tests t => ?_
    refine keeps_bind_at ((diskless_freshId _).writes t) fun id u hid => ?_
    refine Keeps.bind (writes_saveJson ?_ _) (fun _ => Keeps.pure _) u
    exact Errand.Files.paths (.made (slash_not_mem_freshId hid (by decide)))
  refine writes_withDocument hserver fun document => ?_
  refine (reads_lift _).keeps_bind_at fun site _ => ?_
  exact Keeps.bind writes_current (fun _ => hsuite site) s

theorem run_of_server (hserver : s.server = some live) (suite : String) :
    run ⟨suite⟩ s = (do
      match ← prepareIn live.base.storage suite with
      | .ok prepared => runPrepared suite prepared
      | .error refusal => return .error refusal : Endpoint) s := by
  unfold run prepare
  rw [bind_assoc]
  exact bind_of_ok (settings_of_server hserver)

theorem spec_of_prepareIn {suite : String} {prepared : Prepared}
    (h : prepareIn storage suite s = (.ok (.ok prepared), s)) :
    prepared.spec = specPath storage suite := by
  obtain ⟨found, u, -, h⟩ := exists_of_bind_ok h
  cases found with
  | none => cases h
  | some document =>
    obtain ⟨compiled, v, -, h⟩ := exists_of_bind_ok h
    split at h
    · cases h
      rfl
    · cases h

theorem text_specPath_ne (storage : Settings.Storage) (suite argument : String)
    (hlast : argument.toList.getLast? ≠ some 's') : (specPath storage suite).text ≠ argument := by
  have hslash : '/' ∉ ".spec.ts".toList := by decide
  obtain ⟨front, htext⟩ := Path.text_join_append hslash (by decide) (Spec.compiledDirectory storage) suite
  rw [specPath, htext]
  rintro rfl
  simp at hlast

theorem diskless_playwright (storage : Settings.Storage) (suite : String)
    (directory : Option String) :
    Diskless (runProgram ["npx", "playwright", "test", (specPath storage suite).text, "--headed",
      "--reporter=json"] directory none) := by
  have hconfig := text_specPath_ne storage suite "--config" (by decide)
  have hsummary := text_specPath_ne storage suite "--summary-export" (by decide)
  exact diskless_runProgram (by simp [argumentAfter?, hconfig]) (by simp [argumentAfter?, hsummary])
    directory none

theorem diskless_assessment (assistant : Settings.Assistant) (suite : String) (document : Json)
    (tally : Execute.Tally) (finished : Finished) :
    Diskless (Execute.assessment assistant suite document tally finished) := by
  refine Diskless.bind (Diskless.attempt ?_) fun asked => ?_
  · exact (Diskless.lift _).bind fun _ => (Diskless.lift _).bind fun _ => diskless_ask _ _
  · split
    · exact Diskless.lift _
    · exact Diskless.lift _

theorem writes_settings : Keeps (Writes paths) settings := by
  refine Keeps.get.bind fun s => ?_
  cases s.server with
  | some => exact Keeps.pure _
  | none => exact writes_current

theorem writes_run (hserver : s.server = some live) (suite : String) :
    Writes ((Errand.run suite).Paths live (inUse? s)) s (run ⟨suite⟩ s).2 := by
  rw [run_of_server hserver]
  refine (reads_prepareIn _ _).keeps_bind_at fun result hresult => ?_
  cases result with
  | error => exact refl s
  | ok =>
    have hspec := spec_of_prepareIn hresult
    refine keeps_bind_at (diskless_uuid.writes s) fun fresh t hfresh => ?_
    have hplain := not_mem_take (slash_not_mem_uuid hfresh) runIdLength
    have hreport : (Errand.run suite).Files live (inUse? s) ⟨reportDirectory, reportDirectory.join
        ("run_" ++ suite ++ "_" ++ Text.take runIdLength fresh ++ "_report.json")⟩ :=
      .report hplain
    rw [hspec]
    refine Keeps.bind Keeps.get (fun now => ?_) t
    refine (diskless_playwright _ _ _).writes.bind fun finished => ?_
    refine (Keeps.lift _).bind fun tally => writes_settings.bind fun used => ?_
    refine (diskless_assessment _ _ _ _ _).writes.bind fun analysis => ?_
    refine (writes_makeDirectory _).bind fun _ => diskless_timestamp.writes.bind fun now => ?_
    refine (Keeps.lift _).bind fun tests => (writes_writeFile hreport.paths _).bind fun _ => ?_
    exact (Keeps.lift _).bind fun reply => Keeps.pure _

end Writing

/-! ## Reading -/

section Reading

variable {paths : Path → Prop} {s t : Surroundings} {live : Settings.Live}
variable {suite : String}

theorem twins_save (storage : Settings.Storage) (name code : String)
    {known : Option Settings.Live → Settings.Cache → Prop} :
    Respects (Twins paths known) (Spec.save storage name code) :=
  (twins_makeDirectory _).bind fun _ => (twins_writeFile _ _).bind fun _ => Respects.pure _

theorem unmoved_settings_bind {α : Type} (hst : Twins paths (served live) s t)
    {next : Settings.Live → Run α} (hnext : Unmoved s t (next live)) :
    Unmoved s t (settings >>= next) := by
  rw [Unmoved, bind_of_ok (settings_of_server hst.known),
    bind_of_ok (settings_of_server (hst.server.trans hst.known))]
  exact hnext

theorem unmoved_withDocument (hst : Twins paths (served live) s t) {place : Settings.Storage → Path}
    (hpath : paths (place live.base.storage)) {missing : String}
    {next : Settings.Storage → Json → Endpoint}
    (hnext : ∀ document, Unmoved s t (next live.base.storage document)) :
    Unmoved s t (withDocument place missing next) := by
  refine unmoved_settings_bind hst ?_
  refine .bind_of_reads (reads_loadJson? _) (twins_loadJson? hpath s t hst).1 fun found => ?_
  cases found with
  | none => exact .lift _
  | some document => exact hnext document

theorem unmoved_compile (hst : Twins paths (served live) s t)
    (hcurrent : Unmoved s t Settings.current) (hpath : paths (suitePath live.base.storage suite)) :
    Unmoved s t (compile ⟨suite⟩) := by
  refine unmoved_withDocument hst hpath fun document => ?_
  refine .bind_of_reads (reads_lift _) (.lift _) fun made => ?_
  rw [Spec.compile, bind_assoc]
  exact hst.current_bind hcurrent fun used => (twins_save _ _ _).bind fun _ => Respects.pure _

theorem unmoved_compileApi (hst : Twins paths (served live) s t)
    (hcurrent : Unmoved s t Settings.current) (hpath : paths (suitePath live.base.storage suite)) :
    Unmoved s t (compileApi suite) := by
  refine unmoved_withDocument hst hpath fun document => ?_
  refine .bind_of_reads (reads_lift _) (.lift _) fun tests => ?_
  split
  · exact .lift _
  · refine .bind_of_reads (reads_lift _) (.lift _) fun base => ?_
    rw [Spec.Api.compile, bind_assoc]
    refine hst.current_bind hcurrent fun used => ?_
    exact ((Respects.lift _).bind fun _ => twins_save _ _ _).bind fun _ => Respects.pure _

theorem twins_wantedTests (kinds : List String) (site : SiteMap) {used : Settings.Live} :
    Respects (Twins paths (informed live used)) (wantedTests kinds site) :=
  closed_wantedTests Respects.closed twins_current (fun _ _ => (diskless_ask _ _).respects)
    diskless_timestamp.respects kinds site

theorem unmoved_logic (hst : Twins paths (served live) s t) (hcurrent : Unmoved s t Settings.current)
    {request : LogicRequest} (hpath : paths (siteMapPath request.crawlId live.base.storage)) :
    Unmoved s t (logic request) := by
  refine unmoved_withDocument hst hpath fun document => ?_
  refine .bind_of_reads (reads_lift _) (.lift _) fun site => ?_
  refine hst.current_bind hcurrent fun used => ?_
  refine (twins_wantedTests _ site).bind fun tests => (diskless_freshId _).respects.bind fun id => ?_
  exact (twins_saveJson _ _).bind fun _ => Respects.pure _

theorem twins_runPrepared (suite : String) (prepared : Prepared) :
    Respects (Twins paths (served live)) (runPrepared suite prepared) := by
  have hsettings : Respects (Twins paths (served live)) settings := by
    intro s t hst
    rw [settings_of_server hst.known, settings_of_server (hst.server.trans hst.known)]
    exact ⟨rfl, hst⟩
  refine diskless_uuid.respects.bind fun fresh => ?_
  refine Respects.get_bind (fun s t hst => by rw [hst.same]) fun now => ?_
  refine (twins_runProgram _ _ _).bind fun finished => (Respects.lift _).bind fun tally => ?_
  refine hsettings.bind fun used => (diskless_assessment _ _ _ _ _).respects.bind fun analysis => ?_
  refine (twins_makeDirectory _).bind fun _ => diskless_timestamp.respects.bind fun now => ?_
  refine (Respects.lift _).bind fun tests => (twins_writeFile _ _).bind fun _ => ?_
  exact (Respects.lift _).bind fun reply => Respects.pure _

theorem unmoved_run (hst : Twins paths (served live) s t)
    (hpath : paths (suitePath live.base.storage suite)) : Unmoved s t (run ⟨suite⟩) := by
  have hprepare : Respects (Twins paths (served live)) (prepareIn live.base.storage suite) := by
    refine (twins_loadJson? hpath).bind fun found => ?_
    cases found with
    | none => exact Respects.pure _
    | some document =>
      refine (twins_fileExists _).bind fun compiled => ?_
      split <;> exact Respects.pure _
  rw [Unmoved, run_of_server hst.known, run_of_server (hst.server.trans hst.known)]
  refine (hprepare.bind fun result => ?_) s t hst |>.1
  cases result with
  | ok prepared => exact twins_runPrepared suite prepared
  | error => exact Respects.pure _

end Reading

/-! ## Errands as a whole -/

section Whole

variable {s t : Surroundings} {live : Settings.Live}

theorem writes_errand (hserver : s.server = some live) (errand : Errand) :
    Writes (errand.Paths live (inUse? s)) s (errand.endpoint s).2 := by
  cases errand with
  | compile suite => exact writes_compile hserver suite
  | run suite => exact writes_run hserver suite
  | compileApi suite => exact writes_compileApi hserver suite
  | logic request => exact writes_logic hserver request

/-- The texts of other files make no difference to an errand, unless the settings come from
them. -/
theorem unmoved_errand {errand : Errand}
    (hst : Twins (errand.Paths live (inUse? s)) (served live) s t)
    (hcurrent : Unmoved s t Settings.current) : Unmoved s t errand.endpoint := by
  cases errand with
  | compile suite => exact unmoved_compile hst hcurrent (Errand.Files.paths (.suite nofun))
  | run suite => exact unmoved_run hst (Errand.Files.paths (.suite nofun))
  | compileApi suite => exact unmoved_compileApi hst hcurrent (Errand.Files.paths (.suite nofun))
  | logic => exact unmoved_logic hst hcurrent Errand.Files.site.paths

end Whole

end Server

end Sitecheck
