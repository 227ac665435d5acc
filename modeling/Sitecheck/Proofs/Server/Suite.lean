import Sitecheck.Proofs.Server.Making
import Sitecheck.Proofs.Spec.Difference

/-!
# Compiling a suite that was made before

A suite that was made and kept is compiled from its document
(`compile_of_generated`).  What the document gives back lacks the strategies of
the steps and the assertions of the tests, and the code of a test shows it
exactly if a strategy differs from the one that its selector calls for, or if
there is an assertion.
-/

namespace Sitecheck

/-! ## Texts that are kept -/

def Step.texts (step : Step) : List String :=
  step.description ::
    (step.selector.toList ++ step.value.toList ++ step.url.toList ++ step.assertion.toList)

def TestCase.texts (case : TestCase) : List String :=
  case.name :: case.description :: case.steps.flatMap Step.texts

theorem Step.stored_eq_bare {step : Step} (h : ∀ text ∈ step.texts, Text.reread text = text) :
    step.stored = step.bare := by
  have hmap : ∀ value : Option String, (∀ text ∈ value.toList, Text.reread text = text) →
      value.map Text.reread = value := by
    intro value hvalue
    cases value with
    | none => rfl
    | some text => rw [Option.map_some, hvalue text (by simp)]
  simp only [Step.texts, List.mem_cons, List.mem_append] at h
  have hselector := hmap step.selector fun text htext => h text (by simp [htext])
  have hvalue := hmap step.value fun text htext => h text (by simp [htext])
  have hurl := hmap step.url fun text htext => h text (by simp [htext])
  have hassertion := hmap step.assertion fun text htext => h text (by simp [htext])
  have hdescription := h step.description (Or.inl rfl)
  simp only [Step.stored, Step.bare, hselector, hvalue, hurl, hassertion, hdescription]

namespace Server

variable {crawl pageUrl : String} {suite : Suite} {s : Surroundings} {live : Settings.Live}

open Run

/-- What a document gives back for a test, and when the two have the same code. -/
structure GivesBack (kept case : TestCase) : Prop where
  name : kept.name = Text.reread case.name
  description : kept.description = Text.reread case.description
  steps : kept.steps = case.steps.map Step.stored
  assertions : kept.assertions = []
  code : (∀ text ∈ case.texts, Text.reread text = text) →
    (Spec.caseCode kept = Spec.caseCode case ↔
      (∀ step ∈ case.steps, Spec.Inferable step) ∧ case.assertions = [])

theorem givesBack_stored (id : String) (case : TestCase) : GivesBack (case.stored id) case := by
  refine ⟨rfl, rfl, rfl, rfl, fun h => ?_⟩
  have hname : Text.reread case.name = case.name := h _ (by simp [TestCase.texts])
  have hdescription : Text.reread case.description = case.description :=
    h _ (by simp [TestCase.texts])
  have hsteps : case.steps.map Step.stored = case.steps.map Step.bare := by
    refine List.map_congr_left fun step hstep => Step.stored_eq_bare fun text htext => h text ?_
    exact List.mem_cons_of_mem _ (List.mem_cons_of_mem _ (List.mem_flatMap.mpr ⟨step, hstep, htext⟩))
  rw [← Spec.caseCode_bare_eq_iff, Spec.caseCode_eq, Spec.caseCode_eq case.bare]
  simp only [TestCase.stored, TestCase.bare, hname, hdescription, hsteps]

theorem forall₂_storedCases (suite : String) (index : Nat) (cases : List TestCase) :
    List.Forall₂ GivesBack (storedCases suite index cases) cases := by
  induction cases generalizing index with
  | nil => exact .nil
  | cons case cases ih => exact .cons (givesBack_stored _ case) (ih (index + 1))

/-! ## Keeping -/

theorem keepSuite_ok {t : Surroundings} {reply : GenerateReply}
    (h : keepSuite crawl pageUrl suite s = (.ok reply, t)) (hserver : s.server = some live) :
    (∃ disk, Disk.write (suitePath live.base.storage suite.id)
      (suiteDocument crawl pageUrl suite).pretty disk = .ok t.disk) ∧
      (suiteDocument crawl pageUrl suite).draft = none := by
  unfold keepSuite at h
  rw [bind_of_ok (settings_of_server hserver)] at h
  obtain ⟨⟨⟩, t', hsave, h⟩ := exists_of_bind_ok h
  obtain ⟨hwrite, hdraft⟩ := saveJson_ok hsave
  cases h
  exact ⟨hwrite, hdraft⟩

theorem parts_suitePath (storage : Settings.Storage) (suite : String) :
    (suitePath storage suite).parts ≠ [] := by
  have hletter : 'j' ∈ (suite ++ ".json").toList := by
    rw [String.toList_append]
    exact List.mem_append_right _ (by decide)
  exact Path.parts_join_ne_nil _ hletter (by decide) (by decide)

/-! ## Compiling -/

def compileKept (pageUrl id : String) (kept : List TestCase) : Endpoint := do
  let suite ← Run.lift (storedSuite pageUrl id kept)
  let compiled ← Spec.compile suite
  return .ok (CompileReply.mk id compiled.text true).toJson

theorem compile_of_look (hlook : s.disk.look (suitePath live.base.storage suite.id) =
      .ok (some (.file (suiteDocument crawl pageUrl suite).pretty)))
    (hdraft : (suiteDocument crawl pageUrl suite).draft = none) (hserver : s.server = some live) :
    compile ⟨suite.id⟩ s =
      compileKept pageUrl suite.id (storedCases suite.id 0 suite.cases) s := by
  have hreturn := Json.return_not_mem_pretty
    (storable_suiteDocument (count_of_draft hdraft) crawl pageUrl 0)
  have hread := Disk.read_of_look hreturn hlook
  unfold compile withDocument compileKept
  have hload := loadJson?_of_read hread
  rw [parse_suiteDocument hdraft] at hload
  rw [bind_of_ok (settings_of_server hserver), bind_of_ok hload]
  dsimp only
  rw [suiteOfDocument_reread]

def firstUrl (site : SiteMap) : String := (site.pages.head?.map Page.url).getD ""

/-- A suite that was made for a request is compiled, as long as its file is as it was
left, from tests that have lost their strategies and their assertions.  So the code of
a test is the one that the suite itself would have given exactly if every strategy is
the one that its selector calls for and there are no assertions. -/
theorem compile_of_generated {request : GenerateRequest} {s t : Surroundings} {answer : Json}
    {live : Settings.Live} (hserver : s.server = some live)
    (hgenerated : generate request s = (.ok (.ok answer), t)) :
    ∃ site suite chosen made kept, chosenSite? request s = (.ok (some site), chosen) ∧
      Generate.suiteFor site chosen = (.ok suite, made) ∧
      List.Forall₂ GivesBack kept suite.cases ∧
      ∀ u later, u.server = some later → later.base.storage = live.base.storage →
        u.disk.look (suitePath live.base.storage suite.id) =
          t.disk.look (suitePath live.base.storage suite.id) →
        compile ⟨suite.id⟩ u = compileKept (firstUrl site) suite.id kept u := by
  unfold generate at hgenerated
  obtain ⟨found, chosen, hchosen, h⟩ := exists_of_bind_ok hgenerated
  cases found with
  | none => cases h
  | some site =>
    obtain ⟨suite, made, hmade, h⟩ := exists_of_bind_ok h
    obtain ⟨reply, t', hkept, h⟩ := exists_of_bind_ok h
    cases h
    -- The server keeps its settings, so the file is written where it looks for it later.
    have hinquired := inquired_chosenSite? hserver request
    rw [hchosen] at hinquired
    have hsame : made.server = some live :=
      ((sameServer_suiteFor site).of_eq hmade).trans (hinquired.server.trans hserver)
    obtain ⟨⟨disk, hwrite⟩, hdraft⟩ := keepSuite_ok hkept hsame
    refine ⟨site, suite, chosen, made, storedCases suite.id 0 suite.cases, hchosen, hmade,
      forall₂_storedCases suite.id 0 suite.cases, ?_⟩
    intro u later hlater hstorage hlook
    rw [Disk.look_of_write (parts_suitePath _ _) hwrite, ← hstorage] at hlook
    exact compile_of_look hlook hdraft hlater

/-! ## A suite with an assertion -/

def plainPage : Json :=
  .obj [("page_id", .str "p"), ("url", .str "http://a.co"), ("title", .str ""),
    ("base_url", .str "http://a.co"), ("screenshot_path", .null), ("element_id", .null)]

def plainReply : String :=
  "[\x7b\"test_id\":\"\",\"name\":\"\",\"description\":\"\",\"steps\":[],\"assertions\":[\"a\"]\x7d]"

def plainOffice : Surroundings :=
  { Crawl.Crawler.sampleSurroundings Crawl.Crawler.restlessWeb with
    now := ⟨63082281600000000, ""⟩
    tick := 0
    replies := [.text (some plainReply)]
    store := ⟨none, ⟨[], fun _ => some (.ok [plainPage])⟩, 0⟩
    server := some Crawl.Crawler.sampleSettings.live
    cache := .shared }

def plainRequest : GenerateRequest := ⟨"c", ["http://a.co"]⟩

theorem cases_plainReply :
    (Generate.casesInReply plainReply).map (fun case => (case.texts, case.assertions)) =
      [(["", ""], ["a"])] := by decide +kernel

theorem isSummarised_plainOffice :
    isSummarised (chosenSite? plainRequest plainOffice).1 = true := by decide +kernel

theorem generate_plainOffice : ∃ site suite chosen t u answer,
    chosenSite? plainRequest plainOffice = (.ok (some site), chosen) ∧
      Generate.suiteFor site chosen = (.ok suite, t) ∧
      suite.cases = Generate.casesInReply plainReply ∧
      generate plainRequest plainOffice = (.ok (.ok answer), u) := by
  obtain ⟨site, summary, chosen, hchosen, hsummary⟩ :=
    exists_of_isSummarised isSummarised_plainOffice
  have hinquired := inquired_chosenSite? (s := plainOffice) rfl plainRequest
  rw [hchosen] at hinquired
  obtain ⟨hdisk, hserver, hcache, hreplies, -, ticks, hticks⟩ := hinquired
  -- The clock stands still, so the identifier is the one of the start.
  have hnow : chosen.now = plainOffice.now := by
    rw [hticks]
    simp [plainOffice, Moment.later]
  have hfirst : (freshId "suite_" plainOffice).1 = .ok "suite_04ef4a7f" := by decide +kernel
  have hcount : Json.isUnwritable (((some plainReply).map Generate.casesInReply).getD []).length = false := by
    decide +kernel
  have hpath : suitePath Crawl.Crawler.sampleSettings.live.base.storage "suite_04ef4a7f" =
      ⟨.working, ["specs", "suite_04ef4a7f.json"]⟩ := by decide +kernel
  have hmade : ∃ suite t, Generate.suiteFor site chosen = (.ok suite, t) ∧
      suite.cases = Generate.casesInReply plainReply ∧
      ∃ reply u, keepSuite "c" (firstUrl site) suite t = (.ok reply, u) ∧ True := by
    cases chosen
    dsimp only at hdisk hserver hcache hreplies hnow
    subst hdisk hserver hcache hreplies hnow
    refine andThen (Settings.current_of_read? rfl) <| andThen (by rw [hsummary]; exact lift_apply _ _) <|
      andThen rfl ?_
    refine andThen (freshId_of_now hfirst rfl) <|
      andThen ((congrFun (congrArg (saveJson · _) hpath) _).trans
        (saveJson_of_room ⟨rfl, rfl, fun _ h => by cases h⟩ (storable_suite 0 _))) ⟨_, _, rfl, rfl, ?_⟩
    refine andThen rfl <| andThen ((congrFun (congrArg (saveJson · _) hpath) _).trans
      (saveJson_of_room ⟨rfl, rfl, fun _ h => by cases h⟩ (storable_suiteDocument (by exact hcount) _ _ 0))) ?_
    exact andThen rfl ⟨_, _, rfl, trivial⟩
  obtain ⟨suite, t, hsuite, hcases, reply, u, hkept, -⟩ := hmade
  refine ⟨site, suite, chosen, t, u, reply.toJson, hchosen, hsuite, hcases, ?_⟩
  unfold generate
  rw [bind_of_ok hchosen]
  exact (bind_of_ok hsuite).trans (bind_of_ok hkept)

/-- The assertion of the only test is not in the code that is compiled later. -/
theorem compile_of_plainOffice : ∃ site suite chosen made t answer kept,
    chosenSite? plainRequest plainOffice = (.ok (some site), chosen) ∧
      Generate.suiteFor site chosen = (.ok suite, made) ∧
      generate plainRequest plainOffice = (.ok (.ok answer), t) ∧
      (∀ u, u.server = plainOffice.server → u.disk = t.disk →
        compile ⟨suite.id⟩ u = compileKept (firstUrl site) suite.id kept u) ∧
      suite.cases.length = 1 ∧
      List.Forall₂ (fun kept case => Spec.caseCode kept ≠ Spec.caseCode case) kept suite.cases := by
  obtain ⟨site, suite, chosen, made, t, answer, hchosen, hsuite, hcases, hgenerated⟩ :=
    generate_plainOffice
  have hserver : plainOffice.server = some Crawl.Crawler.sampleSettings.live := rfl
  obtain ⟨site', suite', chosen', made', kept, hchosen', hsuite', hkept, hcompile⟩ :=
    compile_of_generated hserver hgenerated
  rw [hchosen] at hchosen'
  cases hchosen'
  rw [hsuite] at hsuite'
  cases hsuite'
  have hplain := cases_plainReply
  rw [← hcases] at hplain
  obtain ⟨case, hcase, hfacts⟩ := List.map_eq_singleton_iff.mp hplain
  obtain ⟨htexts, hassertions⟩ := Prod.mk.inj hfacts
  refine ⟨site, suite, chosen, made, t, answer, kept, hchosen, hsuite, hgenerated, ?_, ?_, ?_⟩
  · intro u hu hdisk
    exact hcompile u _ (hu.trans hserver) rfl (by rw [hdisk])
  · rw [hcase]
    rfl
  · rw [hcase] at hkept ⊢
    cases hkept with
    | cons hback htail =>
      cases htail
      refine .cons (fun hcode => ?_) .nil
      have hreread : ∀ text ∈ case.texts, Text.reread text = text := by
        rw [htexts]
        intro text htext
        have hempty : text = "" := by simpa using htext
        rw [hempty]
        exact Text.reread_of_not_mem (by decide)
      have hnone : case.assertions = [] := ((hback.code hreread).mp hcode).2
      rw [hassertions] at hnone
      cases hnone

end Server

end Sitecheck
