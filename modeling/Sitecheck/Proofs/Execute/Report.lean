import Sitecheck.Execute.Playwright
import Sitecheck.Proofs.Server.Figures

/-!
# One report, read in two ways

A report is a tree of suites.  One reader takes the tests of the outer suites and
gives up if one of them was never attempted; the other takes the specs of the
first inner suite, or of the first suite, and gives up if one of them has failed
without a first attempt.  `readings_of_report` says what each finds, and when it
finds all there is.
-/

namespace Sitecheck

namespace Execute.Report

variable {document value : Json} {key text : String} {spec : Spec}

/-! ## Reports as trees -/

structure Attempt where
  status : String
  duration : Int
  message : Option String

structure Test where
  id : String
  attempts : List Attempt

structure Spec where
  title : String
  ok : Bool
  tests : List Test

inductive Suite where
  | mk (specs : List Spec) (suites : List Suite)

def Suite.specs : Suite → List Spec
  | .mk specs _ => specs

def Suite.suites : Suite → List Suite
  | .mk _ suites => suites

mutual

def Suite.allSpecs : Suite → List Spec
  | .mk specs suites => specs ++ allSpecs suites

def allSpecs : List Suite → List Spec
  | [] => []
  | suite :: suites => suite.allSpecs ++ allSpecs suites

end

def outerSpecs (suites : List Suite) : List Spec := suites.flatMap Suite.specs

def innerSpecs (suites : List Suite) : List Spec := allSpecs (suites.flatMap Suite.suites)

def firstSpecs : List Suite → List Spec
  | [] => []
  | .mk specs [] :: _ => specs
  | .mk _ (inner :: _) :: _ => inner.specs

def testsOf (specs : List Spec) : List Test := specs.flatMap Spec.tests

/-! ## What came of a test -/

def Test.status (test : Test) : Status :=
  match test.attempts with
  | [] => .failed
  | attempt :: _ =>
    if attempt.status = "passed" then .passed
    else if attempt.status = "skipped" then .skipped
    else .failed

def Test.wasAttempted (test : Test) : Bool := !test.attempts.isEmpty

def Test.result (test : Test) : TestResult :=
  ⟨test.id, test.status, (test.attempts.head?.map Attempt.duration).getD 0,
    test.attempts.head?.bind Attempt.message, none, none, none⟩

structure Tells (test : Test) (result : TestResult) : Prop where
  id : result.testId = test.id
  status : result.status = test.status

def Spec.firstAttempt? (spec : Spec) : Option Attempt :=
  spec.tests.head?.bind fun test => test.attempts.head?

def Spec.isExplained (spec : Spec) : Bool := spec.ok || spec.firstAttempt?.isSome

def Spec.entry (spec : Spec) : Json :=
  Tally.entry (.str spec.title) spec.ok
    (if spec.ok then .null else .ofOption (spec.firstAttempt?.bind Attempt.message))

/-! ## Reports as documents -/

structure IsAttempt (document : Json) (attempt : Attempt) : Prop where
  status : document.get "status" = .ok (.str attempt.status)
  duration : document.getD "duration" (.int 0) = .ok (.int attempt.duration)
  message : (document.getD "error" .emptyObj >>= fun error => error.get "message") =
    .ok (.ofOption attempt.message)

structure IsTest (document : Json) (test : Test) : Prop where
  id : document.getD "testId" (.str "unknown") = .ok (.str test.id)
  attempts : ∃ items, document.member "results" = .ok (.arr items) ∧
    List.Forall₂ IsAttempt items test.attempts

structure IsSpec (document : Json) (spec : Spec) : Prop where
  title : document.getD "title" (.str "Unknown test") = .ok (.str spec.title)
  ok : document.getD "ok" (.bool false) = .ok (.bool spec.ok)
  tests : ∃ items, document.member "tests" = .ok (.arr items) ∧ List.Forall₂ IsTest items spec.tests

inductive IsSuite : Json → Suite → Prop where
  | mk {document : Json} {specs : List Spec} {suites : List Suite} {specItems suiteItems : List Json}
      (hspecs : document.getD "specs" (.arr []) = .ok (.arr specItems))
      (isSpecs : List.Forall₂ IsSpec specItems specs)
      (hsuites : document.getD "suites" (.arr []) = .ok (.arr suiteItems))
      (isSuites : List.Forall₂ IsSuite suiteItems suites) : IsSuite document (.mk specs suites)

/-- The document of a report with these outer suites; whatever else stands in it does
not matter. -/
def IsReport (document : Json) (suites : List Suite) : Prop :=
  ∃ items, document.getD "suites" (.arr []) = .ok (.arr items) ∧ List.Forall₂ IsSuite items suites

/-! ## Single results -/

theorem getD_of_member (h : document.member key = .ok value) (default : Json) :
    document.getD key default = .ok value := by
  unfold Json.member at h
  split at h
  · split at h
    · next found hfound =>
      cases h
      simp [Json.getD, Json.fieldsFor, hfound, bind, Except.bind, pure, Except.pure]
    · cases h
  all_goals cases h

theorem statusOf_str (status : String) :
    statusOf (.str status) =
      .ok (if status = "passed" then .passed else if status = "skipped" then .skipped else .failed) := by
  unfold statusOf
  split <;> simp_all

theorem ofFields_result (id : String) (status : Status) (duration : Int) (message : Option String) :
    TestResult.ofFields [("test_id", .str id), ("status", .str status.name),
      ("duration_ms", .int duration), ("error_message", .ofOption message)] =
        .value ⟨id, status, duration, message, none, none, none⟩ := by
  cases status <;> cases message <;> rfl

theorem resultOf_test {test : Test} (h : IsTest document test) :
    resultOf document = if test.wasAttempted then .ok test.result else .error .outOfRange := by
  obtain ⟨id, attempts⟩ := test
  obtain ⟨items, hmember, hitems⟩ := h.attempts
  have hresults := getD_of_member hmember (.arr [.emptyObj])
  have hid := h.id
  cases hitems with
  | nil => simp [resultOf, hresults, Json.first, Test.wasAttempted, bind, Except.bind]
  | @cons item attempt items attempts hitem _ =>
    obtain ⟨error, herror, hmessage⟩ := bind_eq_ok_iff.mp hitem.message
    simp [resultOf, hresults, Json.first, hid, hitem.status, hitem.duration, herror, hmessage,
      statusOf_str, ofFields_result, Test.wasAttempted, Test.result, Test.status,
      Schema.Outcome.orFault, bind, Except.bind]

theorem bind_ite_ok {α β : Type} {c : Prop} [Decidable c] {a : α} {fault : Fault} (f : α → β) :
    ((if c then .ok a else .error fault) >>= fun a => pure (f a) : Except Fault β) =
      if c then .ok (f a) else .error fault := by
  split <;> rfl

theorem itemsUnder_of_getD {items : List Json}
    (h : document.getD key (.arr []) = .ok (.arr items)) : itemsUnder key document = .ok items := by
  simp [itemsUnder, h, Json.elements, bind, Except.bind]

theorem resultsIn_report {suites : List Suite} (h : IsReport document suites) :
    resultsIn document =
      if (testsOf (outerSpecs suites)).all Test.wasAttempted then
        .ok ((testsOf (outerSpecs suites)).map Test.result)
      else .error .outOfRange := by
  have hspec : ∀ document spec, IsSpec document spec →
      (do (← itemsUnder "tests" document).mapM resultOf) =
        if spec.tests.all Test.wasAttempted then .ok (spec.tests.map Test.result)
        else .error .outOfRange := by
    intro document spec hspec
    obtain ⟨items, hmember, hitems⟩ := hspec.tests
    rw [itemsUnder_of_getD (getD_of_member hmember _)]
    exact mapM_eq_ite (fun _ _ => resultOf_test) hitems
  have hsuite : ∀ document suite, IsSuite document suite →
      (do
        let specs ← itemsUnder "specs" document
        let perSpec ← specs.mapM fun spec => do (← itemsUnder "tests" spec).mapM resultOf
        return perSpec.flatten) =
        if (testsOf suite.specs).all Test.wasAttempted then
          .ok ((testsOf suite.specs).map Test.result)
        else .error .outOfRange := by
    rintro document _ ⟨hspecs, isSpecs, -, -⟩
    rw [itemsUnder_of_getD hspecs]
    change (List.mapM _ _ >>= fun perSpec => pure perSpec.flatten : Except Fault _) = _
    rw [mapM_eq_ite hspec isSpecs, bind_ite_ok]
    simp only [← List.flatMap_def, testsOf, Suite.specs, List.all_flatMap, List.map_flatMap]
  obtain ⟨items, hitems, isSuites⟩ := h
  unfold resultsIn
  rw [itemsUnder_of_getD hitems]
  change (List.mapM _ _ >>= fun perSuite => pure perSuite.flatten : Except Fault _) = _
  rw [mapM_eq_ite hsuite isSuites, bind_ite_ok]
  simp only [← List.flatMap_def, testsOf, outerSpecs, List.all_flatMap, List.map_flatMap,
    List.flatMap_assoc]

/-! ## Counts -/

theorem firstOf?_arr (items : List Json) : Tally.firstOf? (.arr items) = .ok items.head? := by
  cases items with
  | nil => rfl
  | cons => simp [Tally.firstOf?, Json.isTruthy, Json.size, Json.first, bind, Except.bind,
      pure, Except.pure]

theorem specs_report {suites : List Suite} (h : IsReport document suites) :
    ∃ items, Tally.specs document = .ok (.arr items) ∧ List.Forall₂ IsSpec items (firstSpecs suites) := by
  obtain ⟨items, hitems, isSuites⟩ := h
  unfold Tally.specs
  cases isSuites with
  | nil => 
      exact ⟨[], by simp [hitems, firstOf?_arr, bind, Except.bind, pure, Except.pure], .nil⟩
  | cons isOuter =>
    obtain ⟨hspecs, isSpecs, hsuites, isInner⟩ := isOuter
    cases isInner with
    | nil => exact ⟨_, by simp [hitems, firstOf?_arr, hsuites, hspecs, bind, Except.bind], isSpecs⟩
    | cons isInner =>
      obtain ⟨hspecs', isSpecs', -, -⟩ := isInner
      exact ⟨_, by simp [hitems, firstOf?_arr, hsuites, hspecs', bind, Except.bind], isSpecs'⟩

theorem isOk_spec (h : IsSpec document spec) : Tally.isOk document = .ok spec.ok := by
  simp [Tally.isOk, h.ok, Json.isTruthy, bind, Except.bind, pure, Except.pure]

theorem errorOf_spec (h : IsSpec document spec) :
    Tally.errorOf document =
      if spec.firstAttempt?.isSome then .ok (.ofOption (spec.firstAttempt?.bind Attempt.message))
      else .error .outOfRange := by
  obtain ⟨title, ok, tests⟩ := spec
  obtain ⟨items, hmember, hitems⟩ := h.tests
  have htests := getD_of_member hmember (.arr [.emptyObj])
  cases hitems with
  | nil => simp [Tally.errorOf, htests, Json.first, Spec.firstAttempt?, bind, Except.bind]
  | @cons item test items tests hitem _ =>
    obtain ⟨id, attempts⟩ := test
    obtain ⟨results, hmember, hresults⟩ := hitem.attempts
    have hattempts := getD_of_member hmember (.arr [.emptyObj])
    cases hresults with
    | nil => 
        simp [Tally.errorOf, htests, hattempts, Json.first, Spec.firstAttempt?, bind, Except.bind]
    | cons hresult =>
      obtain ⟨error, herror, hmessage⟩ := bind_eq_ok_iff.mp hresult.message
      simp [Tally.errorOf, htests, hattempts, Json.first, herror, hmessage, Spec.firstAttempt?,
        bind, Except.bind]

theorem resultOf_spec (h : IsSpec document spec) :
    Tally.resultOf document = if spec.isExplained then .ok spec.entry else .error .outOfRange := by
  have hok := isOk_spec h
  have herror := errorOf_spec h
  cases hspec : spec.ok with
  | true =>
    simp [Tally.resultOf, h.title, hok, hspec, Spec.isExplained, Spec.entry, Tally.entry, bind,
      Except.bind, pure, Except.pure]
  | false =>
    cases hfirst : spec.firstAttempt? <;> rw [hfirst] at herror <;>
      simp [Tally.resultOf, h.title, hok, hspec, herror, hfirst, Spec.isExplained, Spec.entry,
        Tally.entry, bind, Except.bind, pure, Except.pure]

def tallyOf (specs : List Spec) : Tally :=
  { total := specs.length
    passed := specs.countP Spec.ok
    failed := specs.countP fun spec => !spec.ok
    results := specs.map Spec.entry }

theorem ofReport_report {suites : List Suite} (h : IsReport document suites) :
    Tally.ofReport document =
      if (firstSpecs suites).all Spec.isExplained then .ok (tallyOf (firstSpecs suites))
      else .error .outOfRange := by
  obtain ⟨items, hspecs, hitems⟩ := specs_report h
  have houtcomes : items.mapM Tally.isOk = .ok ((firstSpecs suites).map Spec.ok) :=
    mapM_eq_ok_iff.mpr (List.forall₂_map_right_iff.mpr (hitems.imp fun _ _ => isOk_spec))
  have hresults : items.mapM Tally.resultOf =
      if (firstSpecs suites).all Spec.isExplained then .ok ((firstSpecs suites).map Spec.entry)
      else .error .outOfRange := mapM_eq_ite (fun _ _ => resultOf_spec) hitems
  have hcount : ((firstSpecs suites).map Spec.ok).count true = (firstSpecs suites).countP Spec.ok := by
    simp [List.count, List.countP_map, Function.comp_def]
  have hfailed : ((firstSpecs suites).length : Int) - (firstSpecs suites).countP Spec.ok =
      (firstSpecs suites).countP fun spec => !spec.ok := by
    have hsum := List.length_eq_countP_add_countP Spec.ok (l := firstSpecs suites)
    simp at hsum
    omega
  simp only [Tally.ofReport, hspecs, houtcomes, hresults, Json.size, Json.elements, bind, Except.bind,
    pure, Except.pure, hitems.length_eq, hcount, hfailed]
  cases (firstSpecs suites).all Spec.isExplained <;> rfl

/-! ## What is left out -/

theorem allSpecs_append (front back : List Suite) :
    allSpecs (front ++ back) = allSpecs front ++ allSpecs back := by
  induction front with
  | nil => rfl
  | cons suite front ih => simp [allSpecs, ih]

theorem perm_allSpecs (suites : List Suite) :
    (allSpecs suites).Perm (outerSpecs suites ++ innerSpecs suites) := by
  induction suites with
  | nil => simp [allSpecs, outerSpecs, innerSpecs]
  | cons suite suites ih =>
    obtain ⟨specs, inner⟩ := suite
    simp only [allSpecs, Suite.allSpecs, outerSpecs, innerSpecs, List.flatMap_cons, Suite.specs,
      Suite.suites, allSpecs_append, List.append_assoc] at ih ⊢
    refine List.Perm.append_left specs ?_
    exact (ih.append_left _).trans (List.perm_append_comm_assoc _ _ _)

theorem perm_tests (suites : List Suite) : (testsOf (allSpecs suites)).Perm
    (testsOf (outerSpecs suites) ++ testsOf (innerSpecs suites)) := by
  have hperm := (perm_allSpecs suites).flatMap_right Spec.tests
  rwa [List.flatMap_append] at hperm

theorem firstSpecs_sublist (suites : List Suite) : (firstSpecs suites).Sublist (allSpecs suites) := by
  cases suites with
  | nil => exact List.Sublist.refl _
  | cons suite =>
    obtain ⟨specs, inner⟩ := suite
    cases inner with
    | nil => simp [firstSpecs, allSpecs, Suite.allSpecs]
    | cons suite =>
      obtain ⟨shown, deeper⟩ := suite
      simp only [firstSpecs, Suite.specs, allSpecs, Suite.allSpecs, List.append_assoc]
      exact (List.sublist_append_left _ _).trans (List.sublist_append_right specs _)

theorem resultsFrom_of_read {directory : Path} {s : Surroundings}
    (h : s.disk.read (directory.join "results.json") = .ok text) :
    resultsFrom directory s = (.ok (resultsOfText text), s) := by
  unfold resultsFrom
  rw [Run.bind_of_ok (Run.fileExists_of_read h), if_pos rfl, Run.bind_of_ok (Run.attempt_apply _ s),
    Run.readFile_of_read h]
  rfl

theorem forall₂_tells (tests : List Test) : List.Forall₂ Tells tests (tests.map Test.result) := by
  induction tests with
  | nil => exact .nil
  | cons test tests ih => exact .cons ⟨rfl, rfl⟩ ih

def resultsOf (suites : List Suite) : List TestResult :=
  if (testsOf (outerSpecs suites)).all Test.wasAttempted then
    (testsOf (outerSpecs suites)).map Test.result
  else []

theorem wasAttempted_iff (test : Test) : test.wasAttempted = true ↔ test.attempts ≠ [] := by
  simp [Test.wasAttempted]

theorem told_resultsOf_iff (suites : List Suite) :
    (∃ order, order.Perm (testsOf (allSpecs suites)) ∧ List.Forall₂ Tells order (resultsOf suites)) ↔
      testsOf (innerSpecs suites) = [] ∧ ∀ test ∈ testsOf (outerSpecs suites), test.attempts ≠ [] := by
  have hperm := perm_tests suites
  simp only [← wasAttempted_iff, ← List.all_eq_true]
  constructor
  · rintro ⟨order, horder, htold⟩
    have hlength := htold.length_eq
    rw [(horder.trans hperm).length_eq, List.length_append] at hlength
    unfold resultsOf at hlength
    split at hlength
    · next hall =>
      rw [List.length_map] at hlength
      exact ⟨List.length_eq_zero_iff.mp (by omega), hall⟩
    · next hall =>
      -- A test that was not attempted is there and not told.
      have hnone : testsOf (outerSpecs suites) = [] := by
        rw [List.length_nil] at hlength
        exact List.length_eq_zero_iff.mp (by omega)
      simp [hnone] at hall
  · rintro ⟨hinner, hall⟩
    rw [hinner, List.append_nil] at hperm
    refine ⟨testsOf (outerSpecs suites), hperm.symm, ?_⟩
    rw [resultsOf, if_pos hall]
    exact forall₂_tells _

theorem failure_resultsOf_iff (suites : List Suite) :
    (∃ result ∈ resultsOf suites, result.status = .failed) ↔
      (∀ test ∈ testsOf (outerSpecs suites), test.attempts ≠ []) ∧
        ∃ test ∈ testsOf (outerSpecs suites), test.status = .failed := by
  simp only [← wasAttempted_iff, ← List.all_eq_true]
  unfold resultsOf
  split
  · next hall => simp [hall, Test.result]
  · next hall => simp [hall]

def countsOf (text : String) (suites : List Suite) : Tally :=
  if ∀ spec ∈ firstSpecs suites, spec.isExplained then tallyOf (firstSpecs suites)
  else Tally.ofText text

theorem total_countsOf_iff (text : String) (suites : List Suite) :
    (countsOf text suites).total = (allSpecs suites).length ↔
      if ∀ spec ∈ firstSpecs suites, spec.isExplained then allSpecs suites = firstSpecs suites
      else Text.count " expected" text = (allSpecs suites).length := by
  unfold countsOf
  split
  · constructor
    · intro htotal
      exact ((firstSpecs_sublist suites).eq_of_length htotal).symm
    · intro hall
      rw [hall, tallyOf]
  · rfl

theorem failure_countsOf_iff (text : String) (suites : List Suite) :
    0 < (countsOf text suites).failed ↔
      if ∀ spec ∈ firstSpecs suites, spec.isExplained then ∃ spec ∈ firstSpecs suites, spec.ok = false
      else 0 < Text.count " failed" text := by
  unfold countsOf
  split
  · simp [tallyOf]
  · simp [Tally.ofText]

/-- If nothing is left out, and a spec is all right exactly if none of its tests has
failed, both find a failure or none does. -/
theorem failure_iff {suites : List Suite} (hinner : testsOf (innerSpecs suites) = [])
    (hattempted : ∀ test ∈ testsOf (outerSpecs suites), test.attempts ≠ [])
    (hall : allSpecs suites = firstSpecs suites)
    (hok : ∀ spec ∈ allSpecs suites, spec.ok = true ↔ ∀ test ∈ spec.tests, test.status ≠ .failed) :
    (∃ result ∈ resultsOf suites, result.status = .failed) ↔ 0 < (countsOf text suites).failed := by
  have htests : ∀ spec ∈ allSpecs suites, ∀ test ∈ spec.tests, test ∈ testsOf (outerSpecs suites) := by
    intro spec hspec test htest
    have hmem : test ∈ testsOf (allSpecs suites) := List.mem_flatMap.mpr ⟨spec, hspec, htest⟩
    rwa [(perm_tests suites).mem_iff, hinner, List.append_nil] at hmem
  have hfailing : ∀ spec ∈ allSpecs suites,
      spec.ok = false ↔ ∃ test ∈ spec.tests, test.status = .failed := by
    intro spec hspec
    rw [← Bool.not_eq_true, hok spec hspec]
    push Not
    rfl
  have hexplained : ∀ spec ∈ firstSpecs suites, spec.isExplained := by
    intro spec hspec
    rw [← hall] at hspec
    cases hcase : spec.ok with
    | true => simp [Spec.isExplained, hcase]
    | false =>
      obtain ⟨test, htest, -⟩ := (hfailing spec hspec).mp hcase
      cases htestsOf : spec.tests with
      | nil => simp [htestsOf] at htest
      | cons first =>
        have hfirst := hattempted first (htests spec hspec first (by simp [htestsOf]))
        simp [Spec.isExplained, Spec.firstAttempt?, htestsOf, List.isSome_head?, hfirst]
  rw [failure_resultsOf_iff, failure_countsOf_iff, if_pos hexplained]
  constructor
  · rintro ⟨-, test, htest, hfailed⟩
    have hmem : test ∈ testsOf (allSpecs suites) := by
      rw [(perm_tests suites).mem_iff]
      exact List.mem_append_left _ htest
    obtain ⟨spec, hspec, htest⟩ := List.mem_flatMap.mp hmem
    exact ⟨spec, hall ▸ hspec, (hfailing spec hspec).mpr ⟨test, htest, hfailed⟩⟩
  · rintro ⟨spec, hspec, hcase⟩
    rw [← hall] at hspec
    obtain ⟨test, htest, hfailed⟩ := (hfailing spec hspec).mp hcase
    exact ⟨hattempted, test, htests spec hspec test htest, hfailed⟩

/-- What the two readers find in a report. -/
theorem readings_of_report {directory : Path} {s : Surroundings} {text : String} {report : Json}
    {suites : List Suite} (hread : s.disk.read (directory.join "results.json") = .ok text)
    (hparse : Json.parse text = .ok report) (hreport : IsReport report suites) :
    ∃ results tally, resultsFrom directory s = (.ok results, s) ∧
      Tally.ofOutput text = .ok tally ∧
      (∀ request answer finished rest t u, Server.run request t = (.ok (.ok answer), u) →
        t.programs = .finished finished :: rest → finished.output = text →
        Figures.ofAnswer? answer = some tally.figures) ∧
      -- Each test is told once, exactly if none is in an inner suite or without an attempt.
      ((∃ order, order.Perm (testsOf (allSpecs suites)) ∧ List.Forall₂ Tells order results) ↔
        testsOf (innerSpecs suites) = [] ∧
          ∀ test ∈ testsOf (outerSpecs suites), test.attempts ≠ []) ∧
      -- The total is the number of specs, exactly if there are no others than the first ones.
      (tally.total = (allSpecs suites).length ↔
        if ∀ spec ∈ firstSpecs suites, spec.isExplained then allSpecs suites = firstSpecs suites
        else Text.count " expected" text = (allSpecs suites).length) ∧
      -- One finds a failure among the outer tests, the other among the first specs.
      ((∃ result ∈ results, result.status = .failed) ↔
        (∀ test ∈ testsOf (outerSpecs suites), test.attempts ≠ []) ∧
          ∃ test ∈ testsOf (outerSpecs suites), test.status = .failed) ∧
      (0 < tally.failed ↔
        if ∀ spec ∈ firstSpecs suites, spec.isExplained then
          ∃ spec ∈ firstSpecs suites, spec.ok = false
        else 0 < Text.count " failed" text) ∧
      -- They agree if both leave nothing out and a spec is all right unless a test has failed.
      (testsOf (innerSpecs suites) = [] →
        (∀ test ∈ testsOf (outerSpecs suites), test.attempts ≠ []) →
        allSpecs suites = firstSpecs suites →
        (∀ spec ∈ allSpecs suites, spec.ok = true ↔ ∀ test ∈ spec.tests, test.status ≠ .failed) →
        ((∃ result ∈ results, result.status = .failed) ↔ 0 < tally.failed)) := by
  have hresults : resultsOfText text = resultsOf suites := by
    simp only [resultsOfText, hparse, bind, Except.bind, resultsIn_report hreport, resultsOf]
    cases (testsOf (outerSpecs suites)).all Test.wasAttempted <;> rfl
  have htally : Tally.ofOutput text = .ok (countsOf text suites) := by
    simp only [Tally.ofOutput, hparse, bind, Except.bind, ofReport_report hreport, countsOf,
      ← List.all_eq_true]
    cases (firstSpecs suites).all Spec.isExplained <;> rfl
  refine ⟨resultsOf suites, countsOf text suites, hresults ▸ resultsFrom_of_read hread, htally, ?_,
    told_resultsOf_iff suites, total_countsOf_iff text suites, failure_resultsOf_iff suites,
    failure_countsOf_iff text suites, failure_iff⟩
  rintro request answer finished rest t u hrun hprograms rfl
  obtain ⟨finished', rest', tally, -, -, hprograms', htally', -, -, hanswer, -⟩ := Server.run_ok hrun
  rw [hprograms] at hprograms'
  cases hprograms'
  rw [htally] at htally'
  cases htally'
  exact hanswer

def nestedSpec : Json :=
  .obj [("title", .str "a"), ("ok", .bool false),
    ("tests", .arr [.obj [("results", .arr [.obj [("status", .str "failed")]])]])]

def nestedReport : Json :=
  .obj [("suites", .arr [.obj [("specs", .arr []),
    ("suites", .arr [.obj [("specs", .arr [nestedSpec])]])]])]

def nestedSuites : List Suite :=
  [.mk [] [.mk [⟨"a", false, [⟨"unknown", [⟨"failed", 0, none⟩]⟩]⟩] []]]

theorem storable_nestedReport : Json.Storable Json.maxDepth nestedReport :=
  Json.storable_of_isStorable _ (by decide +kernel)

theorem reread_nestedReport : nestedReport.reread = nestedReport := by
  simp (disch := decide) only [nestedReport, nestedSpec, Json.reread, Json.rereadItems,
    Json.rereadFields, Text.reread_of_not_mem]

theorem isReport_nestedReport : IsReport nestedReport nestedSuites := by
  have hattempt : IsAttempt (.obj [("status", .str "failed")]) ⟨"failed", 0, none⟩ := ⟨rfl, rfl, rfl⟩
  have htest : IsTest (.obj [("results", .arr [.obj [("status", .str "failed")]])])
      ⟨"unknown", [⟨"failed", 0, none⟩]⟩ := ⟨rfl, _, rfl, .cons hattempt .nil⟩
  have hspec : IsSpec nestedSpec ⟨"a", false, [⟨"unknown", [⟨"failed", 0, none⟩]⟩]⟩ :=
    ⟨rfl, rfl, _, rfl, .cons htest .nil⟩
  exact ⟨_, rfl, .cons (.mk rfl .nil rfl (.cons (.mk rfl (.cons hspec .nil) rfl .nil) .nil)) .nil⟩

def nestedShelf : Surroundings :=
  { Crawl.Crawler.sampleSurroundings Crawl.Crawler.restlessWeb with
    disk := ⟨[], .directory [("run", .directory [("results.json", .file nestedReport.pretty)])]⟩ }

/-- One reader finds no test, the other one that has failed. -/
theorem readings_of_nestedReport : ∃ results tally,
    resultsFrom ⟨.working, ["run"]⟩ nestedShelf = (.ok results, nestedShelf) ∧
      Tally.ofOutput nestedReport.pretty = .ok tally ∧
      (¬ ∃ order, order.Perm (testsOf (allSpecs nestedSuites)) ∧ List.Forall₂ Tells order results) ∧
      (¬ ∃ result ∈ results, result.status = .failed) ∧ 0 < tally.failed := by
  have hpath : (⟨.working, ["run"]⟩ : Path).join "results.json" = ⟨.working, ["run", "results.json"]⟩ := by
    decide +kernel
  have hread : nestedShelf.disk.read ((⟨.working, ["run"]⟩ : Path).join "results.json") =
      .ok nestedReport.pretty := by
    rw [hpath]
    exact Disk.read_of_look (Json.return_not_mem_pretty storable_nestedReport) rfl
  have hparse : Json.parse nestedReport.pretty = .ok nestedReport :=
    (Json.parse_pretty storable_nestedReport).trans (congrArg _ reread_nestedReport)
  obtain ⟨results, tally, hresults, htally, -, htold, -, hfailed, hcount, -⟩ :=
    readings_of_report hread hparse isReport_nestedReport
  refine ⟨results, tally, hresults, htally, fun h => ?_, fun h => ?_, hcount.mpr ?_⟩
  · exact absurd (htold.mp h).1 (by simp [nestedSuites, innerSpecs, allSpecs, Suite.allSpecs,
      Suite.suites, testsOf])
  · obtain ⟨-, test, htest, -⟩ := hfailed.mp h
    simp [nestedSuites, outerSpecs, Suite.specs, testsOf] at htest
  · simp [nestedSuites, firstSpecs, Suite.specs, Spec.isExplained, Spec.firstAttempt?]

end Execute.Report

end Sitecheck
