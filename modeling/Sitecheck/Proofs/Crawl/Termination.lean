import Sitecheck.Proofs.Crawl.Visit

/-!
# A crawl ends

However the site behaves, a crawl ends after finitely many rounds and stores no
more pages than its limit.  Each round takes one address off the queue and sends
the browser to it at most once, so the visits are counted by the base and the
links that were put into the queue.
-/

namespace Sitecheck

/-! ## Counting visits -/

def SameVisits (s t : Surroundings) : Prop := visitsIn t.log = visitsIn s.log

def OneVisit (s t : Surroundings) : Prop := visitsIn t.log ≤ visitsIn s.log + 1

instance : IsPreorder Surroundings SameVisits where
  refl _ := rfl
  trans _ _ _ hst htu := htu.trans hst

theorem sameVisits_of_grows {allowed : Event → Prop} {s t : Surroundings}
    (hallowed : ∀ event, allowed event → event.isVisit = false) (h : Run.Grows allowed s t) :
    SameVisits s t := by
  obtain ⟨new, hlog, hnew⟩ := h.log
  have hnone : visitsIn new = 0 := by
    refine List.countP_eq_zero.mpr fun event hevent => ?_
    simp [hallowed event (hnew event hevent)]
  simp only [visitsIn] at hnone
  simp [SameVisits, visitsIn, hlog, hnone]

namespace Run

variable {α β : Type}
variable {action : Run α}

theorem Keeps.sameVisits (h : Keeps (Stays Event.IsAside) action) : Keeps SameVisits action :=
  h.mono fun _ _ hstays => sameVisits_of_grows (fun _ hevent => hevent.noVisit) hstays.toGrows

theorem Keeps.visitThen {next : α → Run β} (h : Keeps OneVisit action)
    (hnext : ∀ a, Keeps SameVisits (next a)) : Keeps OneVisit (action >>= next) :=
  h.seq hnext (fun _ _ hone => hone) fun _ _ _ hone hsame => hsame.trans_le hone

theorem Keeps.thenVisit {next : α → Run β} (h : Keeps SameVisits action)
    (hnext : ∀ a, Keeps OneVisit (next a)) : Keeps OneVisit (action >>= next) := by
  refine h.seq hnext (fun s t hsame => ?_) fun s t u hsame hone => ?_
  · simp only [SameVisits] at hsame
    simp [OneVisit, hsame]
  · simp only [SameVisits] at hsame
    simpa [OneVisit, hsame] using hone

theorem oneVisit_goto (url : String) (timeout : Json) (waitUntil : Option String) :
    Keeps OneVisit (goto url timeout waitUntil) := by
  intro s
  simp [goto_apply, OneVisit, visitsIn, List.countP_cons]
  split <;> omega

end Run

namespace Graph

open Run

theorem sameVisits_addPage (page : NewPage) : Keeps SameVisits (addPage page) := by
  have hquery (params : List (String × Json)) :
      Keeps SameVisits (querySingle addPageQuery params) := by
    have hstays : Keeps (Settled fun event => event.isVisit = false)
        (querySingle addPageQuery params) := settled_querySingle rfl
    exact hstays.mono fun _ _ hst => sameVisits_of_grows (fun _ hevent => hevent) hst.toGrows
  refine (Keeps.lift _).bind fun content => ?_
  exact (hquery _).bind fun record => Keeps.lift _

end Graph

namespace Crawl.Crawler

open Run

/-! ## One visit for each round -/

variable {crawler : Crawler}

def Discreet (crawler : Crawler) : Prop :=
  ∀ notify, crawler.notify = some notify → ∀ update, Keeps SameVisits (notify update)

theorem Discreet.report (h : crawler.Discreet) (update : List (String × Json)) :
    Keeps SameVisits (crawler.report update) :=
  keeps_report h update

theorem Discreet.oneVisit_loadPage (h : crawler.Discreet) (url : String) (depth : Json)
    (count : Nat) : Keeps OneVisit (crawler.loadPage url depth count) := by
  refine (h.report _).thenVisit fun _ => ?_
  refine (oneVisit_goto _ _ _).attempt.visitThen fun result => ?_
  cases result with
  | ok => exact Keeps.pure _
  | error => exact (h.report _).bind fun _ => Keeps.throw _

theorem Discreet.oneVisit_storePage (h : crawler.Discreet) (crawl : Json) (url : String)
    (depth : Json) (count : Nat) : Keeps OneVisit (crawler.storePage crawl url depth count) := by
  refine (h.oneVisit_loadPage url depth count).visitThen fun _ => ?_
  refine (settled_readPage crawler crawl url depth).aside.sameVisits.bind fun read => ?_
  refine (Graph.sameVisits_addPage read.1).bind fun page => (h.report _).bind fun _ => ?_
  exact (settled_storeElements crawler page).inner.aside.sameVisits.attempt.bind fun _ => Keeps.pure _

theorem Discreet.oneVisit_visit (h : crawler.Discreet) (crawl : Json) (base : String)
    (visited : List String) (url : String) (depth : Nat) (s : Surroundings) :
    OneVisit s (crawler.visit crawl base visited url depth s).2 := by
  refine visit_keeps (h.oneVisit_storePage crawl url (.ofNat depth) visited.length s) ?_
  intro t u hone hstays
  have hsame : SameVisits t u := sameVisits_of_grows (fun _ he => he.noVisit) hstays.inner.aside.toGrows
  exact hsame.trans_le hone

theorem Discreet.visitsIn_le {bounds : Bounds} {base : String} {crawl : Json}
    (h : crawler.Discreet) {f g : Frontier Surroundings} {count : Nat} {added : List String}
    (hrounds : Frontier.Rounds bounds base (crawler.visit crawl base) count added f g) :
    visitsIn g.state.log ≤ visitsIn f.state.log + count := by
  -- a round visits one address at most, and skipping one is no visit at all
  induction hrounds with
  | done => exact Nat.le_refl _
  | @more f g k url rest here later count round waits puts rounds ih =>
    have hone : OneVisit f.state g.state := by
      rcases (Frontier.next_eq_some_iff.mp round).state_eq with hstate | ⟨visitedUrl, hstate⟩
      · rw [hstate]
        exact Nat.le_succ _
      · rw [hstate]
        exact h.oneVisit_visit crawl base f.visited visitedUrl _ f.state
    simp only [OneVisit] at hone
    omega

/-! ## The whole crawl -/

/-- Whatever the site and the graph answer, a new crawl ends: some number of
rounds leads to a frontier without a next one.  It has visited no more than its
limit of addresses, and the browser was sent to no more addresses than the base
and those that were put into the queue. -/
theorem rounds_of_new_crawl {bounds : Bounds} {base : String} {maxPages maxDepth : Int}
    (limits : crawler.Limits base maxPages maxDepth bounds) (crawl : Json) (s : Surroundings) :
    ∃ count added done,
      done = (start base [] s).walk bounds base (crawler.visit crawl base) ∧
      Frontier.Rounds bounds base (crawler.visit crawl base) count added (start base [] s) done ∧
      done.next bounds base (crawler.visit crawl base) = none ∧
      done.visited.Nodup ∧ (done.visited.length : Int) ≤ max 0 maxPages ∧
      count ≤ 1 + added.length ∧
      (crawler.Discreet → visitsIn done.state.log ≤ visitsIn s.log + (1 + added.length)) := by
  obtain ⟨count, added, hrounds, hend⟩ :=
    Frontier.rounds_walk bounds base (crawler.visit crawl base) (start base [] s)
  have hcount : count ≤ 1 + added.length := by
    have hlength := hrounds.length_queue
    simp only [start, List.length_singleton] at hlength
    omega
  refine ⟨count, added, _, rfl, hrounds, hend, ?_, ?_, hcount, fun hdiscreet => ?_⟩
  · exact hrounds.leads.nodup_visited List.nodup_nil
  · have hlimit := hrounds.leads.length_visited_le (Nat.zero_le _)
    rw [limits.limit_eq] at hlimit
    omega
  · calc visitsIn _ ≤ visitsIn s.log + count := hdiscreet.visitsIn_le hrounds
      _ ≤ visitsIn s.log + (1 + added.length) := Nat.add_le_add_left hcount _

theorem sample_discreet : sample.Discreet := by
  intro notify hnotify update
  cases hnotify
  exact (stays_record ⟨rfl, rfl⟩).sameVisits

theorem rounds_of_restless_crawl :
    ∃ bounds, sample.Limits "https://a.b" 50 3 bounds ∧ sample.Discreet ∧
      ∃ count added done,
        Frontier.Rounds bounds "https://a.b" (sample.visit (.str "crawl") "https://a.b") count added
          (start "https://a.b" [] (sampleSurroundings restlessWeb)) done ∧
        done.next bounds "https://a.b" (sample.visit (.str "crawl") "https://a.b") = none ∧
        (done.visited.length : Int) ≤ 50 ∧ visitsIn done.state.log ≤ 1 + added.length := by
  obtain ⟨bounds, limits⟩ := sample_limits "https://a.b"
  obtain ⟨count, added, done, -, hrounds, hend, -, hvisited, -, hvisits⟩ :=
    rounds_of_new_crawl limits (.str "crawl") (sampleSurroundings restlessWeb)
  have hfew := hvisits sample_discreet
  rw [show visitsIn (sampleSurroundings restlessWeb).log = 0 from rfl, Nat.zero_add] at hfew
  exact ⟨bounds, limits, sample_discreet, count, added, done, hrounds, hend, hvisited, hfew⟩

end Crawl.Crawler

end Sitecheck
