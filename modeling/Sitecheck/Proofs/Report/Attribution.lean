import Sitecheck.Proofs.Document
import Sitecheck.Proofs.Settings.Reading
import Sitecheck.Report.Analysis

/-!
# Whose analysis a report shows

The model is asked about the failures that have a message one by one, each in the
words of its own result.  What it answers is kept by test id, so that a report shows for
a failure the answer about the last failure with the same id (`write_attribution`).
-/

namespace Sitecheck

namespace Report

variable {s u : Surroundings} {live : Settings.Live} {result : TestResult}
  {calls : List (TestResult × String)} {test error : String} {results : List TestResult}
  {place : Nat}

open Run

/-! ## The answers of the model -/

/-- What is shown for a call that the model answers with a reply, or not at all. -/
def summary : Option Reply → Json
  | some (.text content) => .ofOption content
  | _ => .str "Failed to generate summary"

def noSummary : Json := .str "No summary available"

theorem analyse_apply (settings : Settings.Assistant) (result : TestResult) (error : String)
    (s : Surroundings) :
    analyse settings result error s =
      (.ok (summary s.replies.head?),
        { s with
          replies := s.replies.tail
          log := .prompt (analysisRequest settings result error) settings.apiKey :: s.log }) := by
  obtain ⟨disk, environment, now, tick, uuids, loopTimes, replies, _⟩ := s
  cases replies with
  | nil => rfl
  | cons reply => cases reply <;> rfl

def prompts (settings : Settings.Assistant) (calls : List (TestResult × String)) : List Event :=
  calls.map fun call => .prompt (analysisRequest settings call.1 call.2) settings.apiKey

def answers (replies : List Reply) (calls : List (TestResult × String)) : List (String × Json) :=
  calls.mapIdx fun i call => (call.1.testId, summary replies[i]?)

theorem answers_cons (replies : List Reply) (call : TestResult × String)
    (calls : List (TestResult × String)) :
    answers replies (call :: calls) =
      (call.1.testId, summary replies.head?) :: answers replies.tail calls := by
  simp [answers, List.mapIdx_cons, List.head?_eq_getElem?]

theorem mapM_analyse (settings : Settings.Assistant) (calls : List (TestResult × String))
    (s : Surroundings) :
    (calls.mapM fun (result, error) => do
        return (result.testId, ← analyse settings result error) : Run (List (String × Json))) s =
      (.ok (answers s.replies calls),
        { s with
          replies := s.replies.drop calls.length
          log := (prompts settings calls).reverse ++ s.log }) := by
  induction calls generalizing s with
  | nil => rfl
  | cons call calls ih =>
    have hcall : (do return (call.1.testId, ← analyse settings call.1 call.2) : Run (String × Json)) s =
        (.ok (call.1.testId, summary s.replies.head?),
          { s with
            replies := s.replies.tail
            log := .prompt (analysisRequest settings call.1 call.2) settings.apiKey :: s.log }) := by
      rw [bind_of_ok (analyse_apply settings call.1 call.2 s)]
      rfl
    rw [List.mapM_cons, bind_of_ok hcall, bind_of_ok (ih _), answers_cons]
    simp [prompts]

theorem analyses_of_current (h : Settings.current s = (.ok live, u)) (results : List TestResult) :
    analyses results s =
      (.ok (Fields.update (answers u.replies (explicable results)) []),
        { u with
          replies := u.replies.drop (explicable results).length
          log := (prompts live.base.assistant (explicable results)).reverse ++ u.log }) := by
  unfold analyses
  rw [bind_of_ok h, bind_of_ok (mapM_analyse live.base.assistant (explicable results) u)]
  rfl

/-! ## What a report shows -/

def block (result : TestResult) (shown : Json) : String := resultBlock [(result.testId, shown)] result

/-- The answer to the last of the calls with a test id. -/
def lastSummary (replies : List Reply) (results : List TestResult) (test : String) : Json :=
  (Fields.get? test (answers replies (explicable results)).reverse).getD noSummary

/-- The page of a run; each block has the last answer for its id. -/
def page (run : TestRun) (rate : String) (replies : List Reply) : String :=
  pageText run rate (run.results.map fun result =>
    block result (lastSummary replies run.results result.testId))

def ownCall (results : List TestResult) (place : Nat) : Nat := (explicable (results.take place)).length

def ownSummary (replies : List Reply) (results : List TestResult) (place : Nat)
    (result : TestResult) : Json :=
  if (firstText result.error none).isSome then summary replies[ownCall results place]? else noSummary

/-- The calls after the one about the result at a place, or all if there is none about it. -/
def rivals (results : List TestResult) (place : Nat) (result : TestResult) :
    List (TestResult × String) :=
  explicable (if (firstText result.error none).isSome then results.drop (place + 1) else results)

theorem getD_single (test : String) (shown : Json) :
    (Fields.get? test [(test, shown)]).getD noSummary = shown := by
  simp [Fields.get?]

theorem resultBlock_update (replies : List Reply) (results : List TestResult) (result : TestResult) :
    resultBlock (Fields.update (answers replies (explicable results)) []) result =
      block result (lastSummary replies results result.testId) := by
  have hfound : (Fields.get? result.testId
        (Fields.update (answers replies (explicable results)) [])).getD noSummary =
      lastSummary replies results result.testId := by
    rw [Fields.get?_update, lastSummary]
    simp [Fields.get?]
  have hnone : Json.str "No summary available" = noSummary := rfl
  unfold block resultBlock
  cases result.status with
  | failed => simp only [hnone, hfound, getD_single]
  | _ => rfl

theorem block_eq_iff (h : result.status = .failed) (shown other : Json) :
    block result shown = block result other ↔ shown.display = other.display := by
  have hnone : Json.str "No summary available" = noSummary := rfl
  unfold block resultBlock errorBlock
  simp only [h, hnone, getD_single]
  rw [← String.toList_inj]
  simp only [String.toList_append, List.append_cancel_right_eq, List.append_cancel_left_eq,
    String.toList_inj]

/-! ## The last call with an id -/

theorem answers_append (replies : List Reply) (front back : List (TestResult × String)) :
    answers replies (front ++ back) =
      answers replies front ++ answers (replies.drop front.length) back := by
  induction front generalizing replies with
  | nil => rfl
  | cons call front ih =>
    rw [List.cons_append, answers_cons, answers_cons, ih]
    simp

theorem keys_answers (replies : List Reply) (calls : List (TestResult × String)) :
    (answers replies calls).map Prod.fst = calls.map fun call => call.1.testId := by
  induction calls generalizing replies with
  | nil => rfl
  | cons call calls ih => rw [answers_cons, List.map_cons, ih, List.map_cons]

theorem get?_answers_of_none (h : ∀ call ∈ calls, call.1.testId ≠ test) (replies : List Reply) :
    Fields.get? test (answers replies calls).reverse = none := by
  rw [Fields.get?_eq_none_iff, List.map_reverse, List.mem_reverse, keys_answers]
  intro hmem
  obtain ⟨call, hcall, hid⟩ := List.mem_map.mp hmem
  exact h call hcall hid

theorem lastSummary_of_last {front back : List (TestResult × String)} {call : TestResult × String}
    (hcalls : explicable results = front ++ call :: back)
    (hback : ∀ later ∈ back, later.1.testId ≠ call.1.testId) (replies : List Reply) :
    lastSummary replies results call.1.testId = summary replies[front.length]? := by
  have hnone := get?_answers_of_none hback (replies.drop front.length).tail
  have hfound : Fields.get? call.1.testId (answers replies (explicable results)).reverse =
      some (summary replies[front.length]?) := by
    rw [hcalls, answers_append, answers_cons, List.reverse_append, List.reverse_cons]
    unfold Fields.get? at hnone ⊢
    rw [List.lookup_append, List.lookup_append, hnone]
    simp [List.head?_drop]
  rw [lastSummary, hfound, Option.getD_some]

theorem lastSummary_of_none (h : ∀ call ∈ explicable results, call.1.testId ≠ test)
    (replies : List Reply) :
    lastSummary replies results test = noSummary := by
  rw [lastSummary, get?_answers_of_none h, Option.getD_none]

theorem exists_last (h : ∃ call ∈ calls, call.1.testId = test) :
    ∃ front call back, calls = front ++ call :: back ∧ call.1.testId = test ∧
      ∀ later ∈ back, later.1.testId ≠ test := by
  induction calls with
  | nil => simp at h
  | cons first calls ih =>
    by_cases hlater : ∃ call ∈ calls, call.1.testId = test
    · obtain ⟨front, call, back, rfl, hcall, hback⟩ := ih hlater
      exact ⟨first :: front, call, back, rfl, hcall, hback⟩
    · obtain ⟨call, hmem, hid⟩ := h
      rcases List.mem_cons.mp hmem with rfl | hmem
      · exact ⟨[], call, calls, rfl, hid, fun later hmem hid => hlater ⟨later, hmem, hid⟩⟩
      · exact absurd ⟨call, hmem, hid⟩ hlater

/-! ## Whose answer is shown -/

theorem explicable_split (hplace : results[place]? = some result)
    (hfailed : result.status = .failed) (herror : firstText result.error none = some error) :
    explicable results =
      explicable (results.take place) ++ (result, error) :: explicable (results.drop (place + 1)) := by
  obtain ⟨hlt, hget⟩ := List.getElem?_eq_some_iff.mp hplace
  have hsplit : results = results.take place ++ result :: results.drop (place + 1) := by
    rw [← hget, List.getElem_cons_drop, List.take_append_drop]
  conv_lhs => rw [hsplit, explicable, List.filterMap_append, List.filterMap_cons]
  simp only [hfailed, beq_self_eq_true, if_true, herror, Option.map_some]
  rfl

/-- Replies of which only one is a text, and that is empty. -/
def onlyReply (number : Nat) : List Reply := List.replicate number .empty ++ [.text (some "")]

theorem summary_onlyReply (number : Nat) : summary (onlyReply number)[number]? = .str "" := by
  simp [onlyReply, summary, Json.ofOption]

theorem summary_onlyReply_of_lt {number other : Nat} (h : other < number) :
    summary (onlyReply number)[other]? = .str "Failed to generate summary" := by
  have hother : (onlyReply number)[other]? = some .empty := by
    rw [onlyReply, List.getElem?_append_left (by simpa using h)]
    simp [h]
  rw [hother]
  rfl

/-- A failure shows its own answer, whatever the model says, if and only if no later call
has the same id; without a message, if and only if no call has it. -/
theorem own_shown_iff (hplace : results[place]? = some result) (hfailed : result.status = .failed) :
    (∀ replies, block result (lastSummary replies results result.testId) =
        block result (ownSummary replies results place result)) ↔
      ∀ call ∈ rivals results place result, call.1.testId ≠ result.testId := by
  simp only [block_eq_iff hfailed, ownSummary, rivals]
  cases herror : firstText result.error none with
  | none =>
    simp only [Option.isSome_none, Bool.false_eq_true, if_false]
    constructor
    · intro hshown call hcall hid
      obtain ⟨front, last, back, hcalls, hlast, hback⟩ := exists_last ⟨call, hcall, hid⟩
      rw [← hlast] at hshown hback
      have hfailure := hshown []
      rw [lastSummary_of_last hcalls hback, List.getElem?_nil] at hfailure
      exact absurd hfailure (by decide)
    · intro hnone replies
      rw [lastSummary_of_none hnone]
  | some error =>
    simp only [Option.isSome_some, if_true]
    have hsplit := explicable_split hplace hfailed herror
    constructor
    · intro hshown call hcall hid
      obtain ⟨front, last, back, hcalls, hlast, hback⟩ := exists_last ⟨call, hcall, hid⟩
      rw [hcalls, ← List.cons_append, ← List.append_assoc] at hsplit
      rw [← hlast] at hshown hback
      -- the last call is answered and the own one is not
      have hanswer := hshown (onlyReply (explicable (results.take place) ++ (result, error) :: front).length)
      rw [lastSummary_of_last hsplit hback, summary_onlyReply,
        summary_onlyReply_of_lt (by simp [ownCall])] at hanswer
      exact absurd hanswer (by decide)
    · intro hlater replies
      exact congrArg Json.display (lastSummary_of_last hsplit hlater replies)

/-! ## Writing a report -/

theorem html_of_update (run : TestRun) (replies : List Reply) :
    html run (Fields.update (answers replies (explicable run.results)) []) =
      (passRate run.passed run.total).map fun rate => page run rate replies := by
  have hblocks : run.results.map
        (resultBlock (Fields.update (answers replies (explicable run.results)) [])) =
      run.results.map fun result => block result (lastSummary replies run.results result.testId) :=
    List.map_congr_left fun result _ => resultBlock_update replies run.results result
  rw [html, hblocks]
  cases passRate run.passed run.total <;> rfl

theorem look_of_filePage {storage : Settings.Storage} {run : TestRun} {text : String} {path : Path}
    {t : Surroundings} (h : filePage storage run text s = (.ok path, t)) :
    t.disk.look path = .ok (some (.file text)) := by
  obtain ⟨⟨⟩, v, -, h⟩ := exists_of_bind_ok h
  obtain ⟨⟨⟩, w, hwrite, h⟩ := exists_of_bind_ok h
  cases h
  have hletter : 'r' ∈ "report.html".toList := by decide
  exact Disk.look_of_write (Path.parts_join_ne_nil _ hletter (by decide) (by decide))
    (Server.writeFile_ok hwrite)

theorem write_of_current (h : Settings.current s = (.ok live, u)) (run : TestRun) :
    write run s =
      (do
        let rate ← Run.lift (passRate run.passed run.total)
        filePage live.base.storage run (page run rate s.replies) : Run Path)
      { u with
        replies := s.replies.drop (explicable run.results).length
        log := (prompts live.base.assistant (explicable run.results)).reverse ++ s.log } := by
  obtain ⟨hagain, hreplies, hlog⟩ := Settings.current_again h
  unfold write
  rw [bind_of_ok h, bind_of_ok (analyses_of_current hagain run.results), html_of_update, hreplies, hlog,
    lift_map_bind]

theorem prompts_own (settings : Settings.Assistant) (hplace : results[place]? = some result)
    (hfailed : result.status = .failed) (herror : firstText result.error none = some error) :
    (prompts settings (explicable results))[ownCall results place]? =
      some (.prompt (analysisRequest settings result error) settings.apiKey) := by
  rw [explicable_split hplace hfailed herror]
  simp [prompts, ownCall]

/-- Each failure with a message is asked about, in its own words, but a report shows for it
the answer to the last call with its id.  That is its own, whatever the model says, if and
only if no later call has the id. -/
theorem write_attribution {s u : Surroundings} {live : Settings.Live}
    (h : Settings.current s = (.ok live, u)) (run : TestRun) :
    write run s =
        (do
          let rate ← Run.lift (passRate run.passed run.total)
          filePage live.base.storage run (page run rate s.replies) : Run Path)
        { u with
          replies := s.replies.drop (explicable run.results).length
          log := (prompts live.base.assistant (explicable run.results)).reverse ++ s.log } ∧
      (∀ path t, write run s = (.ok path, t) → ∃ rate, passRate run.passed run.total = .ok rate ∧
        t.disk.look path = .ok (some (.file (page run rate s.replies)))) ∧
      ∀ place result, run.results[place]? = some result → result.status = .failed →
        (∀ error, firstText result.error none = some error →
          (prompts live.base.assistant (explicable run.results))[ownCall run.results place]? =
            some (.prompt (analysisRequest live.base.assistant result error)
              live.base.assistant.apiKey)) ∧
        ((∀ replies, block result (lastSummary replies run.results result.testId) =
            block result (ownSummary replies run.results place result)) ↔
          ∀ call ∈ rivals run.results place result, call.1.testId ≠ result.testId) := by
  have hwrite := write_of_current h run
  refine ⟨hwrite, fun path t hpath => ?_, fun place result hplace hfailed => ⟨?_, ?_⟩⟩
  · rw [hwrite] at hpath
    obtain ⟨rate, hrate, hfile⟩ := exists_of_lift_ok hpath
    exact ⟨rate, hrate, look_of_filePage hfile⟩
  · intro error herror
    exact prompts_own live.base.assistant hplace hfailed herror
  · exact own_shown_iff hplace hfailed

def namelessFailure (error : String) : TestResult :=
  ⟨"unknown", .failed, 1, some error, none, none, none⟩

def namelessRun : TestRun :=
  ⟨"r", "s", "now", 2, 0, 2, 0, 3, [namelessFailure "first", namelessFailure "second"], none, none⟩

def namelessDesk : Surroundings :=
  { Crawl.Crawler.sampleSurroundings Crawl.Crawler.restlessWeb with
    replies := [.text (some "About the first."), .text (some "About the second.")]
    server := some Crawl.Crawler.sampleSettings.live
    cache := .shared }

/-- The first failure is shown with what is said about the second. -/
theorem write_attribution_nameless :
    Settings.current namelessDesk = (.ok Crawl.Crawler.sampleSettings.live, namelessDesk) ∧
      (∀ rate, page namelessRun rate namelessDesk.replies = pageText namelessRun rate
        [block (namelessFailure "first") (.str "About the second."),
          block (namelessFailure "second") (.str "About the second.")]) ∧
      write namelessRun namelessDesk =
        (do
          let rate ← Run.lift (passRate 0 2)
          filePage Crawl.Crawler.sampleSettings.live.base.storage namelessRun
            (page namelessRun rate namelessDesk.replies) : Run Path)
        { namelessDesk with
          replies := []
          log := (prompts Crawl.Crawler.sampleSettings.live.base.assistant
            [(namelessFailure "first", "first"), (namelessFailure "second", "second")]).reverse } ∧
      ownSummary namelessDesk.replies namelessRun.results 0 (namelessFailure "first") =
        .str "About the first." ∧
      ¬ ∀ replies, block (namelessFailure "first") (lastSummary replies namelessRun.results "unknown") =
        block (namelessFailure "first")
          (ownSummary replies namelessRun.results 0 (namelessFailure "first")) := by
  have hcurrent : Settings.current namelessDesk =
      (.ok Crawl.Crawler.sampleSettings.live, namelessDesk) := rfl
  obtain ⟨hwrite, -, hshown⟩ := write_attribution hcurrent namelessRun
  obtain ⟨-, hown⟩ := hshown 0 (namelessFailure "first") rfl rfl
  refine ⟨hcurrent, fun rate => rfl, hwrite, rfl, fun hall => ?_⟩
  exact hown.mp hall (namelessFailure "second", "second") (.head _) rfl

end Report

end Sitecheck
