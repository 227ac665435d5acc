import Sitecheck.Proofs.Execute.Config
import Sitecheck.Proofs.Execute.Report
import Sitecheck.Proofs.Report.Marks
import Sitecheck.Proofs.Server.Stored

/-!
# Runs and their reports

Whatever the test program leaves behind, the results of a run are those of the tests it tells of,
and each test has passed, was skipped or has failed (`exists_of_runSpec`).  A report has
a block for each of them, but texts are put into it as they are: a reader finds these blocks
and no others exactly if no text brings one along (`report_of_runSpec`).
-/

namespace Sitecheck

section Flatten

variable {ε α β γ : Type} {read : α → Except ε (List β)} {each : β → Except ε γ}
  {both : α → Except ε (List γ)}
variable {results : List γ}

theorem mapM_flatten_eq_ok_iff
    (h : ∀ item results, both item = .ok results ↔ ∃ parts, read item = .ok parts ∧ parts.mapM each = .ok results)
    {items : List α} :
    (∃ lists, items.mapM both = .ok lists ∧ lists.flatten = results) ↔
      ∃ parts, items.mapM read = .ok parts ∧ parts.flatten.mapM each = .ok results := by
  induction items generalizing results with
  | nil => simp [pure, Except.pure, eq_comm]
  | cons item items ih =>
    simp only [List.mapM_cons, bind_eq_ok_iff]
    constructor
    · rintro ⟨_, ⟨first, hfirst, rest, hrest, hlists⟩, rfl⟩
      cases hlists
      obtain ⟨part, hpart, heach⟩ := (h item first).mp hfirst
      obtain ⟨parts, hparts, hothers⟩ := ih.mp ⟨rest, hrest, rfl⟩
      refine ⟨part :: parts, ⟨part, hpart, parts, hparts, rfl⟩, ?_⟩
      rw [List.flatten_cons, List.mapM_append, heach, ok_bind, hothers]
      rfl
    · rintro ⟨_, ⟨part, hpart, parts, hparts, hlists⟩, heach⟩
      cases hlists
      rw [List.flatten_cons, List.mapM_append, bind_eq_ok_iff] at heach
      obtain ⟨first, hfirst, heach⟩ := heach
      obtain ⟨others, hothers, heach⟩ := bind_eq_ok_iff.mp heach
      cases heach
      obtain ⟨rest, hrest, rfl⟩ := ih.mpr ⟨parts, hparts, hothers⟩
      exact ⟨first :: rest, ⟨first, (h item first).mpr ⟨part, hpart, hfirst⟩, rest, hrest, rfl⟩, rfl⟩

/-- To treat the parts item by item is to collect them all and to treat them then, if nothing
goes wrong. -/
theorem flatten_eq_ok_iff
    (h : ∀ item results, both item = .ok results ↔ ∃ parts, read item = .ok parts ∧ parts.mapM each = .ok results)
    {found : Except ε (List α)} :
    (do
      let items ← found
      let lists ← items.mapM both
      return lists.flatten) = .ok results ↔
    ∃ parts, (do return (← (← found).mapM read).flatten) = .ok parts ∧ parts.mapM each = .ok results := by
  have hreturn {δ ζ : Type} {x : Except ε δ} {f : δ → ζ} {b : ζ} :
      (x >>= fun a => pure (f a)) = .ok b ↔ ∃ a, x = .ok a ∧ f a = b := by
    simp [bind_eq_ok_iff, pure, Except.pure]
  simp only [bind_eq_ok_iff (x := found), hreturn, mapM_flatten_eq_ok_iff h]
  constructor
  · rintro ⟨items, hitems, parts, hparts, hresults⟩
    exact ⟨parts.flatten, ⟨items, hitems, parts, hparts, rfl⟩, hresults⟩
  · rintro ⟨_, ⟨items, hitems, parts, hparts, rfl⟩, hresults⟩
    exact ⟨items, hitems, parts, hparts, hresults⟩

end Flatten

namespace Execute

variable {results : List TestResult} {status : Status} {result : TestResult} {directory spec : Path}
  {s t : Surroundings} {id suiteId : String}

open Run

/-! ## Tests and results -/

def testsUnder (suite : Json) : Except Fault (List Json) := do
  return (← (← itemsUnder "specs" suite).mapM (itemsUnder "tests")).flatten

def testsIn (report : Json) : Except Fault (List Json) := do
  return (← (← itemsUnder "suites" report).mapM testsUnder).flatten

theorem resultsIn_eq_ok_iff {report : Json} :
    resultsIn report = .ok results ↔
      ∃ tests, testsIn report = .ok tests ∧ tests.mapM resultOf = .ok results := by
  exact flatten_eq_ok_iff fun suite results => flatten_eq_ok_iff fun spec results => bind_eq_ok_iff

def firstStatus (test : Json) : Except Fault Json := do
  (← (← test.getD "results" (.arr [.emptyObj])).first).get "status"

def verdict : Json → Status
  | .str "passed" => .passed
  | .str "skipped" => .skipped
  | _ => .failed

theorem statusOf_eq_ok {value : Json} (h : statusOf value = .ok status) :
    status = verdict value := by
  unfold statusOf at h
  unfold verdict
  split at h <;> cases h <;> simp_all

theorem fields_of_ofFields {id duration message : Json}
    (h : TestResult.ofFields [("test_id", id), ("status", .str status.name), ("duration_ms", duration),
      ("error_message", message)] = .value result) :
    Schema.text id = .value result.testId ∧ result.status = status := by
  simp only [TestResult.ofFields, Schema.Outcome.map_eq, Schema.Outcome.seq_eq,
    Schema.Outcome.seq_eq_value_iff, Schema.Outcome.map_eq_value_iff] at h
  obtain ⟨_, _, ⟨_, _, ⟨_, _, ⟨_, _, ⟨_, _, ⟨_, _, ⟨_, hid, rfl⟩, hstatus, rfl⟩, -, rfl⟩, -, rfl⟩, -, rfl⟩,
    -, rfl⟩, -, rfl⟩ := h
  refine ⟨Schema.Outcome.under_eq_value_iff.mp hid, ?_⟩
  cases status <;> cases hstatus <;> rfl

/-- The result of a test has its id and the verdict on its first attempt. -/
structure IsResultOf (test : Json) (result : TestResult) : Prop where
  id : ∃ id, test.getD "testId" (.str "unknown") = .ok id ∧ Schema.text id = .value result.testId
  status : ∃ word, firstStatus test = .ok word ∧ result.status = verdict word

theorem isResultOf_of_resultOf {test : Json} (h : resultOf test = .ok result) :
    IsResultOf test result := by
  obtain ⟨attempts, hattempts, h⟩ := bind_eq_ok_iff.mp h
  obtain ⟨attempt, hattempt, h⟩ := bind_eq_ok_iff.mp h
  obtain ⟨id, hid, h⟩ := bind_eq_ok_iff.mp h
  obtain ⟨word, hword, h⟩ := bind_eq_ok_iff.mp h
  obtain ⟨status, hstatus, h⟩ := bind_eq_ok_iff.mp h
  obtain ⟨duration, -, h⟩ := bind_eq_ok_iff.mp h
  obtain ⟨error, -, h⟩ := bind_eq_ok_iff.mp h
  obtain ⟨message, -, h⟩ := bind_eq_ok_iff.mp h
  obtain ⟨htext, hsame⟩ := fields_of_ofFields (Schema.Outcome.orFault_eq_ok_iff.mp h)
  refine ⟨⟨id, hid, htext⟩, word, ?_, hsame.trans (statusOf_eq_ok hstatus)⟩
  rw [firstStatus, hattempts, ok_bind, hattempt, ok_bind, hword]

/-! ## What a run leaves behind -/

def isReadable (test : Json) : Bool := (resultOf test).isOk

/-- The tests that a text tells of; none if it is no report or a test in it cannot be read. -/
def testsOfText (text : String) : List Json :=
  match Json.parse text >>= testsIn with
  | .ok tests => if tests.all isReadable then tests else []
  | .error _ => []

def testsLeft (disk : Disk) (directory : Path) : List Json :=
  match disk.read (directory.join "results.json") with
  | .ok text => testsOfText text
  | .error _ => []

theorem all_isReadable_iff {tests : List Json} :
    tests.all isReadable = true ↔ ∃ results, tests.mapM resultOf = .ok results := by
  have hok (test : Json) : isReadable test = true ↔ ∃ result, resultOf test = .ok result := by
    unfold isReadable
    cases resultOf test <;> simp [Except.isOk, Except.toBool]
  simp only [List.all_eq_true, hok, mapM_eq_ok_iff]
  constructor
  · exact exists_forall₂
  · rintro ⟨results, hresults⟩ test htest
    obtain ⟨result, -, hresult⟩ := exists_of_mem_forall₂_left hresults htest
    exact ⟨result, hresult⟩

theorem forall₂_resultsOfText (text : String) :
    List.Forall₂ IsResultOf (testsOfText text) (resultsOfText text) := by
  unfold testsOfText resultsOfText
  cases Json.parse text with
  | error => exact .nil
  | ok report =>
    rw [ok_bind, ok_bind]
    cases hresults : resultsIn report with
    | ok results =>
      obtain ⟨tests, htests, hmap⟩ := resultsIn_eq_ok_iff.mp hresults
      rw [htests]
      dsimp only
      rw [if_pos (all_isReadable_iff.mpr ⟨results, hmap⟩)]
      exact (mapM_eq_ok_iff.mp hmap).imp fun _ _ => isResultOf_of_resultOf
    | error fault =>
      cases htests : testsIn report with
      | error => exact .nil
      | ok tests =>
        have hunreadable : ¬ tests.all isReadable = true := by
          intro hall
          obtain ⟨results, hmap⟩ := all_isReadable_iff.mp hall
          rw [resultsIn_eq_ok_iff.mpr ⟨tests, htests, hmap⟩] at hresults
          cases hresults
        dsimp only
        rw [if_neg hunreadable]
        exact .nil

theorem results_of_resultsFrom (h : resultsFrom directory s = (.ok results, t)) :
    List.Forall₂ IsResultOf (testsLeft s.disk directory) results := by
  obtain ⟨found, hfound, h⟩ := (reads_fileExists _).bind_eq_ok_iff.mp h
  have hexists : s.disk.exists? (directory.join "results.json") = .ok found := congrArg Prod.fst hfound
  unfold testsLeft
  cases hread : s.disk.read (directory.join "results.json") with
  | ok text =>
    rw [Disk.exists?_of_read hread] at hexists
    cases hexists
    rw [if_pos rfl, bind_of_ok (attempt_apply _ s), readFile_apply, hread] at h
    cases h
    exact forall₂_resultsOfText text
  | error =>
    cases found with
    | false =>
      cases h
      exact .nil
    | true =>
      rw [if_pos rfl, bind_of_ok (attempt_apply _ s), readFile_apply, hread] at h
      cases h
      exact .nil

/-! ## Runs -/

/-- The figures of a run count its results, all of which have passed, failed or were skipped. -/
structure Tallied (run : TestRun) : Prop where
  total : run.total = run.results.length
  passed : run.passed = run.results.countP fun result => result.status = .passed
  failed : run.failed = run.results.countP fun result => result.status = .failed
  skipped : run.skipped = run.results.countP fun result => result.status = .skipped
  sum : run.total = run.passed + run.failed + run.skipped
  each : ∀ result ∈ run.results, result.status ∈ [Status.passed, .failed, .skipped]

theorem verdict_mem (word : Json) : verdict word ∈ [Status.passed, .failed, .skipped] := by
  unfold verdict
  split <;> simp

theorem length_eq_sum (h : ∀ result ∈ results, result.status ∈ [Status.passed, .failed, .skipped]) :
    results.length = results.countP (fun result => result.status = .passed) +
      results.countP (fun result => result.status = .failed) +
      results.countP (fun result => result.status = .skipped) := by
  induction results with
  | nil => rfl
  | cons result results ih =>
    obtain ⟨hresult, hresults⟩ := List.forall_mem_cons.mp h
    simp only [List.length_cons, List.countP_cons, ih hresults]
    simp only [List.mem_cons, List.not_mem_nil, or_false] at hresult
    rcases hresult with hresult | hresult | hresult <;> simp [hresult] <;> omega

theorem tallied_runOf {now : String} {duration : Int}
    (h : ∀ result ∈ results, result.status ∈ [Status.passed, .failed, .skipped]) :
    Tallied (runOf suiteId id directory duration results now) := by
  have hcount (status : Status) :
      countOf status results = results.countP fun result => result.status = status := by
    rw [countOf, List.countP_eq_length_filter]
    rfl
  refine ⟨rfl, hcount _, hcount _, hcount _, ?_, h⟩
  have hsum := length_eq_sum h
  simp only [runOf, hcount]
  exact_mod_cast hsum

theorem exists_of_runSpec {run : TestRun} (h : runSpec spec suiteId s = (.ok run, t)) :
    ∃ live id elapsed v, carryOut spec s = (.ok (live, id, elapsed), v) ∧ run.id = id ∧ Tallied run ∧
      List.Forall₂ IsResultOf (testsLeft v.disk (runDirectory live.base.storage id)) run.results := by
  unfold runSpec at h
  obtain ⟨⟨live, id, elapsed⟩, v, hcarry, h⟩ := exists_of_bind_ok h
  obtain ⟨duration, -, h⟩ := exists_of_lift_ok h
  obtain ⟨results, w, hresults, hrest⟩ := exists_of_bind_ok h
  obtain ⟨now, x, -, hrest⟩ := exists_of_bind_ok hrest
  obtain ⟨⟨⟩, y, -, hrest⟩ := exists_of_bind_ok hrest
  cases hrest
  have htold := results_of_resultsFrom hresults
  refine ⟨live, id, elapsed, v, hcarry, rfl, tallied_runOf fun result hresult => ?_, htold⟩
  obtain ⟨test, -, htest⟩ := exists_of_mem_forall₂ htold hresult
  obtain ⟨word, -, hword⟩ := htest.status
  rw [hword]
  exact verdict_mem word

theorem not_mem_of_carryOut {v : Surroundings} {live : Settings.Live} {elapsed : Binary64}
    (h : carryOut spec s = (.ok (live, id, elapsed), v)) : '<' ∉ id.toList := by
  obtain ⟨⟨live, id⟩, u, hprepare, h⟩ := exists_of_bind_ok h
  obtain ⟨finished, x, -, h⟩ := exists_of_bind_ok h
  obtain ⟨finish, y, -, h⟩ := exists_of_bind_ok h
  cases h
  obtain ⟨live, z, -, hmade⟩ := exists_of_bind_ok hprepare
  obtain ⟨id, z', hid, hmade⟩ := exists_of_bind_ok hmade
  obtain ⟨⟨⟩, z₁, -, hmade⟩ := exists_of_bind_ok hmade
  obtain ⟨⟨⟩, z₂, -, hmade⟩ := exists_of_bind_ok hmade
  cases hmade
  exact Server.not_mem_freshId hid (by decide) (by decide)

/-! ## Reports -/

open Sitecheck.Report

/-- What a reader should find in the report of a run: a block for each result, in order, as many of
each kind as the run counts, and the details of each failure. -/
structure Shows (run : TestRun) (found : List Mark) : Prop where
  order : found = run.results.flatMap resultMarks
  total : found.countP Mark.isBlock = run.total
  passed : found.count (.block .passed) = run.passed
  failed : found.count (.block .failed) = run.failed
  skipped : found.count (.block .skipped) = run.skipped
  details : found.count .details = run.failed

theorem countP_resultMarks (p : Mark → Bool) (results : List TestResult) :
    (results.flatMap resultMarks).countP p = results.countP (fun result => p (.block result.status)) +
      if p .details then results.countP (fun result => result.status = .failed) else 0 := by
  induction results with
  | nil => simp
  | cons result results ih =>
    rw [List.flatMap_cons, List.countP_append, ih, resultMarks, List.countP_cons, List.countP_cons,
      List.countP_cons]
    by_cases hfailed : result.status = .failed <;> cases hdetails : p .details <;>
      simp [hfailed, hdetails] <;> omega

theorem shows_iff {run : TestRun} (h : Tallied run) (found : List Mark) :
    Shows run found ↔ found = run.results.flatMap resultMarks := by
  refine ⟨Shows.order, ?_⟩
  rintro rfl
  have hblocks : (run.results.flatMap resultMarks).countP Mark.isBlock = run.results.length := by
    simp [countP_resultMarks, Mark.isBlock]
  have hblock (status : Status) : (run.results.flatMap resultMarks).count (.block status) =
      run.results.countP fun result => result.status = status := by
    simp [List.count, countP_resultMarks, beq_eq_decide]
  have hdetails : (run.results.flatMap resultMarks).count .details =
      run.results.countP fun result => result.status = .failed := by
    simp [List.count, countP_resultMarks, beq_eq_decide]
  constructor
  · rfl
  · rw [hblocks, h.total]
  · rw [hblock, h.passed]
  · rw [hblock, h.failed]
  · rw [hblock, h.skipped]
  · rw [hdetails, h.failed]

theorem report_of_runSpec {spec : Path} {suiteId : String} {s t : Surroundings} {run : TestRun}
    (h : runSpec spec suiteId s = (.ok run, t)) :
    (∃ live id elapsed v, carryOut spec s = (.ok (live, id, elapsed), v) ∧
      List.Forall₂ IsResultOf (testsLeft v.disk (runDirectory live.base.storage id)) run.results) ∧
    Tallied run ∧
    ∀ analyses, ∃ page, html run analyses = .ok page ∧
      marksIn page = marksIn run.finishedAt ++ run.results.flatMap (blockMarks analyses) ∧
      (Shows run (marksIn page) ↔
        ∀ text ∈ run.finishedAt :: run.results.flatMap (shownTexts analyses), marksIn text = []) := by
  obtain ⟨live, id, elapsed, v, hcarry, rfl, htallied, htold⟩ := exists_of_runSpec h
  have hid : marksIn run.id = [] := marks_of_not_mem (not_mem_of_carryOut hcarry)
  refine ⟨⟨live, _, elapsed, v, hcarry, htold⟩, htallied, fun analyses => ?_⟩
  have hnonneg : 0 ≤ run.passed := by
    rw [htallied.passed]
    exact Int.natCast_nonneg _
  have hle : run.passed ≤ run.total := by
    rw [htallied.passed, htallied.total]
    exact_mod_cast List.countP_le_length
  obtain ⟨page, hpage, hmarks⟩ := marksIn_html hnonneg hle analyses
  rw [hid, List.nil_append, List.nil_append] at hmarks
  refine ⟨page, hpage, hmarks, ?_⟩
  rw [shows_iff htallied, hmarks, flatMap_blockMarks_iff, List.forall_mem_cons]

/-! ## A message that is read as a block -/

open Crawl.Crawler (sampleSettings)

def coveringMessage : String :=
  "<div class=\"test-result passed\">Total</div> intercepts pointer events"

def coveredTest : Json :=
  .obj [("testId", .str "pay"), ("results", .arr [.obj [("status", .str "timedOut"),
    ("error", .obj [("message", .str coveringMessage)])]])]

def coveredReport : Json :=
  .obj [("suites", .arr [.obj [("specs", .arr [.obj [("tests", .arr [coveredTest])]])]])]

def coveredResult : TestResult := ⟨"pay", .failed, 0, some coveringMessage, none, none, none⟩

theorem storable_coveredReport : Json.Storable Json.maxDepth coveredReport :=
  Json.storable_of_isStorable _ (by decide +kernel)

theorem resultsOfText_coveredReport : resultsOfText coveredReport.pretty = [coveredResult] := by
  have hreread : coveredReport.reread = coveredReport := by
    simp (disch := decide) only [coveredReport, coveredTest, Json.reread, Json.rereadItems,
      Json.rereadFields, Text.reread_of_not_mem, coveringMessage]
  have hresults : resultsIn coveredReport = .ok [coveredResult] := rfl
  rw [resultsOfText, (Json.parse_pretty storable_coveredReport).trans (congrArg _ hreread), ok_bind, hresults]

/-- The directory of the run is there, with the results in it. -/
def coveredOffice : Surroundings :=
  { relativeOffice with
    disk := ⟨[], .directory [("artifacts", .directory [("run_77480dc4", .directory [
      ("results.json", .file coveredReport.pretty)])])]⟩
    programs := [.finished ⟨.int 1, "", "", none, none⟩] }

theorem runSpec_coveredOffice : ∃ run t,
    runSpec (.ofText "pay.spec.ts") "suite" coveredOffice = (.ok run, t) ∧ run.results = [coveredResult] := by
  have hid : freshId "run_" coveredOffice = (.ok "run_77480dc4", coveredOffice.after 1) := by
    have hsame := freshId_relativeOffice
    rw [freshId_of_timely ⟨rfl, by decide +kernel⟩ (by decide)] at hsame ⊢
    exact congrArg (fun result => (result, coveredOffice.after 1)) (congrArg Prod.fst hsame)
  have hname (name : String) (h : name ∈ ["playwright.config.ts", "results.json", "test_run.json"]) :
      (⟨.working, ["artifacts", "run_77480dc4"]⟩ : Path).join name =
        ⟨.working, ["artifacts", "run_77480dc4", name]⟩ := by
    revert name
    decide +kernel
  have htime (s : Surroundings) : lift (milliseconds ((Binary64.zero false).sub (.zero false))) s = (.ok 0, s) :=
    congrArg (·, s) (by decide +kernel)
  have hresults {s : Surroundings} (hlook : s.disk.look ⟨.working, ["artifacts", "run_77480dc4", "results.json"]⟩ =
      .ok (some (.file coveredReport.pretty))) :
      resultsFrom ⟨.working, ["artifacts", "run_77480dc4"]⟩ s = (.ok [coveredResult], s) := by
    have hread := Disk.read_of_look (Json.return_not_mem_pretty storable_coveredReport) hlook
    rw [← hname "results.json" (by simp)] at hread
    rw [Execute.Report.resultsFrom_of_read hread, resultsOfText_coveredReport]
  unfold runSpec carryOut prepare launch configPath runDirectory
  simp only [bind_assoc, pure_bind]
  refine andThen (Settings.current_of_read? rfl) <| andThen hid ?_
  rw [directory_relativeOffice, hname "playwright.config.ts" (by simp), hname "test_run.json" (by simp)]
  refine andThen rfl <| andThen (writeFile_of_write rfl isScalar_relativeOffice) <| andThen rfl <| andThen rfl <|
    andThen rfl <| andThen (htime _) <| andThen (hresults rfl) <|
    andThen ((timestamp_apply _).trans (if_pos (by decide +kernel))) <| andThen
      (Server.saveJson_of_room ⟨rfl, rfl, fun _ h => by cases h⟩
        (Json.storable_of_isStorable 3 (by decide +kernel))) ⟨_, _, rfl, rfl⟩

/-- The one test that has not passed has a block of its own, and its message brings another. -/
theorem report_of_coveredOffice : ∃ run t page,
    runSpec (.ofText "pay.spec.ts") "suite" coveredOffice = (.ok run, t) ∧ run.total = 1 ∧ run.failed = 1 ∧
      html run [] = .ok page ∧ .block .passed ∈ marksIn page ∧ ¬ Shows run (marksIn page) := by
  obtain ⟨run, t, hrun, hresults⟩ := runSpec_coveredOffice
  obtain ⟨-, htallied, hreport⟩ := report_of_runSpec hrun
  obtain ⟨page, hpage, hmarks, hshows⟩ := hreport []
  have hmessage : marksIn (shownMessage coveredResult) = [.block .passed] := by
    have hshown : shownMessage coveredResult = coveringMessage := by decide +kernel
    rw [hshown]
    decide +kernel
  refine ⟨run, t, page, hrun, ?_, ?_, hpage, ?_, fun hall => ?_⟩
  · rw [htallied.total, hresults]
    rfl
  · rw [htallied.failed, hresults]
    rfl
  · have hblock : .block .passed ∈ blockMarks [] coveredResult := by
      refine List.mem_append_right _ (List.mem_append_right _ ?_)
      rw [hmessage]
      exact List.mem_singleton_self _
    rw [hmarks, hresults]
    exact List.mem_append_right _ (List.mem_flatMap.mpr ⟨_, List.mem_singleton_self _, hblock⟩)
  · have hshown : shownMessage coveredResult ∈ shownTexts [] coveredResult := by simp [shownTexts, coveredResult]
    have hplain := hshows.mp hall (shownMessage coveredResult)
      (List.mem_cons_of_mem _ (List.mem_flatMap.mpr ⟨coveredResult, by simp [hresults], hshown⟩))
    rw [hmessage] at hplain
    cases hplain

end Execute

end Sitecheck
