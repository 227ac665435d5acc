import Sitecheck.Proofs.Execute.Tally
import Sitecheck.Proofs.Server.Suite
import Sitecheck.Server.Endpoint.Run

/-!
# The figures of a run

A run that is answered is answered with the figures that its kept report shows
as well, whatever the test program has printed.  They add up exactly if the
output is a report, or if its marks happen to (`figures_of_run`).
-/

namespace Sitecheck

open Run

namespace Execute

/-! ## Figures told -/

def intUnder? (key : String) (value : Json) : Option Int :=
  match value.member key with
  | .ok (.int n) => some n
  | _ => none

def resultsUnder? (key : String) (value : Json) : Option (List Json) :=
  match value.member key with
  | .ok (.arr results) => some results
  | .ok .null => some []
  | _ => none

def Figures.ofAnswer? (answer : Json) : Option Figures := do
  return ⟨← intUnder? "total_tests" answer, ← intUnder? "passed" answer, ← intUnder? "failed" answer,
    ← resultsUnder? "test_results" answer⟩

def Figures.ofReport? (report : Json) : Option Figures := do
  let summary ← (report.member "execution_summary").toOption
  return ⟨← intUnder? "total_tests" summary, ← intUnder? "passed" summary,
    ← intUnder? "failed" summary, ← resultsUnder? "individual_results" report⟩

end Execute

namespace Server

variable {tally : Tally} {finished : Finished} {s t : Surroundings} {suite : String}
  {prepared : Prepared} {answer tests : Json} {rest : List ProgramReply} {levels : Nat}

open Execute

theorem ofReport?_runReport (suite runId timestamp : String) (tests : Json) (tally : Tally)
    (finished : Finished) (analysis : String) :
    Figures.ofReport? (runReport suite runId timestamp tests tally finished analysis) =
      some tally.figures := rfl

theorem itemsFrom_entries {results : List Json} (position : Nat)
    (h : ∀ result ∈ results, ∃ name ok error, result = Tally.entry name ok error) :
    ∃ rows : List (List (String × Json)),
      Schema.itemsFrom (Schema.table Schema.anything) position results = .value rows ∧
        rows.map Json.obj = results := by
  induction results generalizing position with
  | nil => exact ⟨[], rfl, rfl⟩
  | cons result results ih =>
    obtain ⟨name, ok, error, rfl⟩ := h result (by simp)
    obtain ⟨rows, hrows, hback⟩ := ih (position + 1) fun result hresult => h result (by simp [hresult])
    refine ⟨[("name", name), ("status", .str (if ok then "passed" else "failed")),
      ("error", error)] :: rows, ?_, by simp [hback, Tally.entry]⟩
    rw [Schema.itemsFrom, hrows]
    rfl

theorem reply_of_entries (suite runId path analysis : String)
    (hentries : ∀ result ∈ tally.results, ∃ name ok error, result = Tally.entry name ok error) :
    ∃ reply, RunReply.ofFields [("suite_id", .str suite), ("run_id", .str runId),
        ("total_tests", .ofNat tally.total), ("passed", .ofNat tally.passed),
        ("failed", .int tally.failed), ("report_path", .str path), ("ai_summary", .str analysis),
        ("test_results", if tally.results.isEmpty then .null else .arr tally.results)] =
          .value reply ∧
      Figures.ofAnswer? reply.toJson = some tally.figures ∧
      reply.toJson.member "report_path" = .ok (.str path) := by
  obtain ⟨total, passed, failed, results⟩ := tally
  cases results with
  | nil => exact ⟨_, rfl, rfl, rfl⟩
  | cons result results =>
    obtain ⟨rows, hrows, hback⟩ := itemsFrom_entries 0 hentries
    have hread : Schema.list (Schema.table Schema.anything) (.arr (result :: results)) =
      .value rows := hrows
    refine ⟨⟨suite, runId, total, passed, failed, path, analysis, rows⟩, ?_, ?_, rfl⟩
    · simp [RunReply.ofFields, Schema.required, Schema.optional, Schema.withDefault,
        Schema.nullable, Fields.get?, List.lookup_cons, hread, Schema.Outcome.under,
        Schema.Outcome.map, Schema.text, Schema.integer, Json.ofNat]
    · simp only [RunReply.toJson, Figures.ofAnswer?, hback, Option.map_some, Option.getD_some]
      rfl

/-! ## Running -/

theorem programs_of_runProgram {arguments : List String} {directory : Option String}
    {timeout : Option Nat} (h : runProgram arguments directory timeout s = (.ok finished, t)) :
    ∃ rest, s.programs = .finished finished :: rest := by
  unfold runProgram at h
  rw [bind_of_ok (record_apply _ s)] at h
  obtain ⟨reply, u, hreply, h⟩ := exists_of_bind_ok h
  rw [modifyGet_apply] at hreply
  cases hprograms : s.programs with
  | nil =>
    rw [hprograms] at hreply
    cases hreply
    cases h
  | cons first rest =>
    rw [hprograms] at hreply
    cases hreply
    cases first with
    | fault => cases h
    | finished result =>
      -- Whatever files the program leaves behind, its reply is the result.
      have hresult : result = finished := by
        generalize argumentAfter? "--config" arguments = config at h
        generalize argumentAfter? "--summary-export" arguments = path at h
        rcases result with ⟨code, output, errors, _ | results, _ | summary⟩ <;>
          rcases config with _ | config <;> rcases path with _ | path <;> dsimp only at h <;>
          repeat obtain ⟨⟨⟩, _, -, h⟩ := exists_of_bind_ok h
        all_goals
          cases h
          rfl
      exact ⟨rest, by rw [hresult]⟩

def SamePrograms (s t : Surroundings) : Prop := t.programs = s.programs

instance : IsPreorder Surroundings SamePrograms where
  refl _ := rfl
  trans _ _ _ hst htu := htu.trans hst

theorem samePrograms_settings : Keeps SamePrograms settings := by
  refine Keeps.get.bind fun s => ?_
  cases s.server with
  | some => exact Keeps.pure _
  | none =>
    intro s
    change SamePrograms s (Settings.current s).2
    have hasked := Settings.asked_of_current s
    generalize Settings.current s = outcome at hasked
    cases hasked <;> rfl

theorem samePrograms_prepare (suite : String) : Keeps SamePrograms (prepare suite) :=
  samePrograms_settings.bind fun _ => (reads_prepareIn _ suite).keeps

theorem samePrograms_uuid : Keeps SamePrograms uuid := by
  intro s
  rw [uuid_apply]
  split <;> rfl

theorem parts_reportPath (suite id : String) :
    (reportDirectory.join ("run_" ++ suite ++ "_" ++ id ++ "_report.json")).parts ≠ [] := by
  have hletter : 'r' ∈ ("run_" ++ suite ++ "_" ++ id ++ "_report.json").toList := by simp
  exact Path.parts_join_ne_nil _ hletter (by decide) (by decide)

theorem runPrepared_ok (h : runPrepared suite prepared s = (.ok (.ok answer), t)) :
    ∃ finished rest tally path report, s.programs = .finished finished :: rest ∧
      Tally.ofOutput finished.output = .ok tally ∧
      answer.member "report_path" = .ok (.str path.text) ∧
      t.disk.look path = .ok (some (.file report.pretty)) ∧
      Figures.ofAnswer? answer = some tally.figures ∧
      Figures.ofReport? report = some tally.figures := by
  unfold runPrepared at h
  obtain ⟨id, s₁, huuid, h⟩ := exists_of_bind_ok h
  rw [bind_of_ok (get_apply s₁)] at h
  obtain ⟨finished, s₂, hfinished, h⟩ := exists_of_bind_ok h
  obtain ⟨tally, htally, h⟩ := exists_of_lift_ok h
  obtain ⟨live, s₃, -, h⟩ := exists_of_bind_ok h
  obtain ⟨analysis, s₄, -, h⟩ := exists_of_bind_ok h
  obtain ⟨⟨⟩, s₅, -, h⟩ := exists_of_bind_ok h
  obtain ⟨now, s₆, -, h⟩ := exists_of_bind_ok h
  obtain ⟨tests, -, h⟩ := exists_of_lift_ok h
  obtain ⟨⟨⟩, s₇, hwrite, h⟩ := exists_of_bind_ok h
  obtain ⟨reply, hreply, h⟩ := exists_of_lift_ok h
  cases h
  obtain ⟨rest, hprograms⟩ := programs_of_runProgram hfinished
  obtain ⟨reply', hreply', hanswer, hpath⟩ :=
    reply_of_entries suite _ _ analysis (Tally.entries_of_ofOutput htally)
  cases (Schema.Outcome.orFault_eq_ok_iff.mp hreply).symm.trans hreply'
  refine ⟨finished, rest, tally, _, runReport suite _ now tests tally finished analysis, ?_, htally,
    hpath, Disk.look_of_write (parts_reportPath _ _) (writeFile_ok hwrite), hanswer,
    ofReport?_runReport _ _ _ _ _ _ _⟩
  rw [← hprograms]
  exact (samePrograms_uuid.of_eq huuid).symm

theorem run_ok {request : RunRequest} (h : run request s = (.ok (.ok answer), t)) :
    ∃ finished rest tally path report, s.programs = .finished finished :: rest ∧
      Tally.ofOutput finished.output = .ok tally ∧
      answer.member "report_path" = .ok (.str path.text) ∧
      t.disk.look path = .ok (some (.file report.pretty)) ∧
      Figures.ofAnswer? answer = some tally.figures ∧
      Figures.ofReport? report = some tally.figures := by
  obtain ⟨prepared, u, hprepare, h⟩ := exists_of_bind_ok h
  cases prepared with
  | error => cases h
  | ok =>
    have hsame : u.programs = s.programs := (samePrograms_prepare _).of_eq hprepare
    rw [← hsame]
    exact runPrepared_ok h

theorem figures_of_run {request : RunRequest} {answer : Json} {s t : Surroundings}
    (h : run request s = (.ok (.ok answer), t)) :
    ∃ finished rest path report figures, s.programs = .finished finished :: rest ∧
      answer.member "report_path" = .ok (.str path.text) ∧
      t.disk.look path = .ok (some (.file report.pretty)) ∧
      Figures.ofAnswer? answer = some figures ∧ Figures.ofReport? report = some figures ∧
      (figures.AddUp ↔ (Json.parse finished.output >>= Tally.ofReport).isOk ∨
        Text.count " passed" finished.output + Text.count " failed" finished.output =
          Text.count " expected" finished.output) := by
  obtain ⟨finished, rest, tally, path, report, hprograms, htally, hpath, hlook, hanswer, hreport⟩ :=
    run_ok h
  exact ⟨finished, rest, path, report, tally.figures, hprograms, hpath, hlook, hanswer, hreport,
    Tally.addUp_ofOutput_iff htally⟩

/-! ## A run without a report -/

def plainRun : Finished := ⟨.int 0, "  1 passed (2.1s)", "", none, none⟩

def plainBench : Surroundings :=
  { Crawl.Crawler.sampleSurroundings Crawl.Crawler.restlessWeb with
    disk := ⟨[], .directory [("specs", .directory [("a.json", .file Json.emptyObj.pretty),
      ("compiled", .directory [("a.spec.ts", .file "")])])]⟩
    now := ⟨63082281600000000, ""⟩
    programs := [.finished plainRun]
    server := some Crawl.Crawler.sampleSettings.live
    cache := .shared }

theorem prepare_plainBench :
    prepare "a" plainBench =
      (.ok (.ok ⟨.obj [], ⟨.working, ["specs", "compiled", "a.spec.ts"]⟩⟩), plainBench) := by
  have hsuite : suitePath Crawl.Crawler.sampleSettings.live.base.storage "a" =
      ⟨.working, ["specs", "a.json"]⟩ := by decide +kernel
  have hspec : (Spec.compiledDirectory Crawl.Crawler.sampleSettings.live.base.storage).join
      ("a" ++ ".spec.ts") = ⟨.working, ["specs", "compiled", "a.spec.ts"]⟩ := by decide +kernel
  have hstorable : Json.Storable Json.maxDepth .emptyObj := .obj (by simp) (by simp [Json.rereadFields])
  have hread : plainBench.disk.read ⟨.working, ["specs", "a.json"]⟩ = .ok Json.emptyObj.pretty :=
    Disk.read_of_look (Json.return_not_mem_pretty hstorable) rfl
  have hload := loadJson?_of_read hread
  rw [Json.parse_pretty hstorable] at hload
  unfold prepare prepareIn specPath
  rw [bind_of_ok (settings_of_server rfl), hsuite, hspec, bind_of_ok hload]
  rfl

/-- The output is no report, and its words are counted instead. -/
def isProse : Except Fault Tally → Bool
  | .ok _ => false
  | .error fault => Tally.isPlain fault

theorem fault_plainRun : ∃ fault, Json.parse plainRun.output >>= Tally.ofReport = .error fault ∧
    Tally.isPlain fault = true := by
  have hplain : isProse (Json.parse plainRun.output >>= Tally.ofReport) = true := by decide +kernel
  cases hread : Json.parse plainRun.output >>= Tally.ofReport with
  | ok =>
    rw [hread] at hplain
    cases hplain
  | error fault =>
    rw [hread] at hplain
    exact ⟨fault, rfl, hplain⟩

theorem malformed_plainRun : (Json.parse plainRun.output >>= Tally.ofReport).isOk = false := by
  obtain ⟨fault, hread, -⟩ := fault_plainRun
  rw [hread]
  rfl

theorem counts_plainRun :
    Text.count " passed" plainRun.output + Text.count " failed" plainRun.output ≠
      Text.count " expected" plainRun.output := by decide +kernel

theorem ofOutput_plainRun :
    Tally.ofOutput plainRun.output = .ok (Tally.ofText plainRun.output) := by
  obtain ⟨fault, hread, hplain⟩ := fault_plainRun
  unfold Tally.ofOutput
  rw [hread]
  exact if_pos hplain

theorem run_plainBench :
    ∃ answer t, run ⟨"a"⟩ plainBench = (.ok answer, t) ∧ answer.isOk = true := by
  have hpath : reportDirectory = ⟨.working, ["backend", "test_run_output", "reports"]⟩ := by
    decide +kernel
  have hreport : reportDirectory.join
      ("run_" ++ "a" ++ "_" ++ Text.take runIdLength noUuid ++ "_report.json") =
        ⟨.working, ["backend", "test_run_output", "reports", "run_a_00000000_report.json"]⟩ := by
    decide +kernel
  have htally (s : Surroundings) : lift (Tally.ofOutput plainRun.output) s =
      (.ok (Tally.ofText plainRun.output), s) := congrArg (·, s) ofOutput_plainRun
  refine andThen prepare_plainBench <| andThen (uuid_apply _) <| andThen (get_apply _) <|
    andThen rfl <| andThen (htally _) <| andThen (settings_of_server rfl) <| andThen rfl ?_
  rw [hreport, hpath]
  refine andThen rfl <| andThen ((timestamp_apply _).trans (if_pos (by decide +kernel))) <|
    andThen (lift_apply _ _) <| andThen (writeFile_of_write rfl ?_) ⟨_, _, rfl, rfl⟩
  exact Json.isScalar_pretty (Json.storable_of_isStorable 2 (by decide +kernel))

/-- One test has passed, of none. -/
theorem figures_of_plainBench : ∃ answer t figures,
    run ⟨"a"⟩ plainBench = (.ok (.ok answer), t) ∧ Figures.ofAnswer? answer = some figures ∧
      ¬ figures.AddUp := by
  obtain ⟨_ | answer, t, hrun, hok⟩ := run_plainBench
  · cases hok
  obtain ⟨finished, rest, path, report, figures, hprograms, -, -, hanswer, -, hiff⟩ :=
    figures_of_run hrun
  cases hprograms
  refine ⟨answer, t, figures, hrun, hanswer, fun h => ?_⟩
  have hcases := hiff.mp h
  rw [malformed_plainRun] at hcases
  simp [counts_plainRun] at hcases

end Server

end Sitecheck
