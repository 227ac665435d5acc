import Sitecheck.Proofs.Server.Crawler

/-!
# What a client is told

A client that asks for a crawl is told that it starts, then page by page what
becomes of it, and at last how it ended.  The pages that are reported as complete
are those that the crawl has visited, in the same order: a visit either stores a
page and says so, or it does neither.
-/

namespace Sitecheck

variable {cut : List Json}

/-! ## Messages in the log -/

def Event.message? : Event → Option Json
  | .sent message => some message
  | _ => none

def messagesIn (log : List Event) : List Json := (log.filterMap Event.message?).reverse

def Surroundings.logged (event : Event) (s : Surroundings) : Surroundings :=
  { s with log := event :: s.log }

def Tells (facts : List (String × Json)) : Json → Prop
  | .obj fields => ∀ fact ∈ facts, Fields.get? fact.1 fields = some fact.2
  | _ => False

namespace Run

def Says (told : List Json) (s t : Surroundings) : Prop :=
  messagesIn t.log = messagesIn s.log ++ told

variable {s t u : Surroundings} {first second : List Json}

theorem Says.trans (hst : Says first s t) (htu : Says second t u) : Says (first ++ second) s u := by
  unfold Says at *
  rw [htu, hst, List.append_assoc]

theorem Logs.silent (h : Offstage s t) : Says [] s t := by
  obtain ⟨new, hlog, hnew⟩ := h
  have hnone : new.filterMap Event.message? = [] := by
    refine List.filterMap_eq_nil_iff.mpr fun event hevent => ?_
    have hoffstage := hnew event hevent
    cases event <;> simp [Event.isOffstage, Event.message?] at hoffstage ⊢
  simp [Says, messagesIn, hlog, hnone]

theorem Says.quietly (hst : Says first s t) (htu : Offstage t u) : Says first s u := by
  have hboth := hst.trans htu.silent
  rwa [List.append_nil] at hboth

theorem says_logged (message : Json) (s : Surroundings) : Says [message] s (s.logged (.sent message)) := by
  simp [Says, messagesIn, Event.message?, Surroundings.logged]

end Run

open Run

/-! ## One page -/

def loadingFacts (url : String) (count : Nat) : List (String × Json) :=
  [("type", .str "page_loading"), ("url", .str url), ("visited", .ofNat count)]

def outcomeFacts (url : String) (stored : Bool) : List (String × Json) :=
  [("type", .str (if stored then "page_complete" else "page_error")), ("url", .str url)]

/-- What is told of one attempt to load and store a page. -/
inductive Attempt (url : String) (count : Nat) : (stored : Bool) → List Json → Prop
  | abandoned {loading : Json} (loads : Tells (loadingFacts url count) loading) :
      Attempt url count false [loading]
  | ended {stored : Bool} {loading outcome : Json} (loads : Tells (loadingFacts url count) loading)
      (ends : Tells (outcomeFacts url stored) outcome) :
      Attempt url count stored [loading, outcome]

/-- What is told of one attempt after the other, and the addresses that were
reported as complete. -/
inductive Progress : (done : List String) → List Json → Prop
  | start : Progress [] []
  | missed {done : List String} {told new : List Json} {url : String} (before : Progress done told)
      (attempt : Attempt url done.length false new) : Progress done (told ++ new)
  | stored {done : List String} {told new : List Json} {url : String} (before : Progress done told)
      (attempt : Attempt url done.length true new) : Progress (done ++ [url]) (told ++ new)

theorem Attempt.of_prefix {url : String} {count : Nat} {stored : Bool} {new : List Json}
    (h : Attempt url count stored new) (hcut : cut <+: new) :
    cut = [] ∨ cut = new ∨ Attempt url count false cut := by
  cases h with
  | abandoned =>
    rcases List.prefix_cons_iff.mp hcut with rfl | ⟨rest, rfl, hrest⟩
    · exact Or.inl rfl
    · rw [List.prefix_nil.mp hrest]
      exact Or.inr (Or.inl rfl)
  | ended loads =>
    rcases List.prefix_cons_iff.mp hcut with rfl | ⟨rest, rfl, hrest⟩
    · exact Or.inl rfl
    rcases List.prefix_cons_iff.mp hrest with rfl | ⟨last, rfl, hlast⟩
    · exact Or.inr (Or.inr (.abandoned loads))
    · rw [List.prefix_nil.mp hlast]
      exact Or.inr (Or.inl rfl)

/-- A crawl that is broken off has told of its first attempts, of the last one
perhaps only that it began. -/
theorem Progress.of_prefix {done : List String} {told : List Json} (h : Progress done told)
    (hcut : cut <+: told) : ∃ fewer, fewer <+: done ∧ Progress fewer cut := by
  have hsplit {told new : List Json} (hcut : cut <+: told ++ new) :
      cut <+: told ∨ ∃ part, cut = told ++ part ∧ part <+: new := by
    obtain ⟨rest, hrest⟩ := hcut
    rcases List.append_eq_append_iff.mp hrest with ⟨more, rfl, -⟩ | ⟨part, rfl, rfl⟩
    · exact Or.inl (List.prefix_append _ _)
    · exact Or.inr ⟨part, rfl, List.prefix_append _ _⟩
  induction h with
  | start => exact ⟨[], List.prefix_refl _, List.prefix_nil.mp hcut ▸ .start⟩
  | @missed done told new url before attempt ih =>
    rcases hsplit hcut with hcut | ⟨part, rfl, hpart⟩
    · exact ih hcut
    · refine ⟨done, List.prefix_refl _, ?_⟩
      rcases attempt.of_prefix hpart with rfl | rfl | hbegan
      · rwa [List.append_nil]
      · exact .missed before attempt
      · exact .missed before hbegan
  | @stored done told new url before attempt ih =>
    rcases hsplit hcut with hcut | ⟨part, rfl, hpart⟩
    · obtain ⟨fewer, hfewer, hprogress⟩ := ih hcut
      exact ⟨fewer, hfewer.trans (List.prefix_append _ _), hprogress⟩
    · rcases attempt.of_prefix hpart with rfl | rfl | hbegan
      · exact ⟨done, List.prefix_append _ _, by rwa [List.append_nil]⟩
      · exact ⟨done ++ [url], List.prefix_refl _, .stored before attempt⟩
      · exact ⟨done, List.prefix_append _ _, .missed before hbegan⟩

namespace Crawl.Crawler

def Talks (crawler : Crawler) : Prop := crawler.notify = some fun update => Run.record (.sent update)

variable {crawler : Crawler}

theorem Talks.says_report (h : crawler.Talks) (update : List (String × Json)) (s : Surroundings) :
    ∃ t, crawler.report update s = (.ok (), t) ∧ Says [.obj update] s t := by
  unfold Crawler.report
  rw [h]
  exact ⟨s.logged (.sent (.obj update)), rfl, says_logged _ s⟩

theorem says_goto (url : String) (timeout : Json) (waitUntil : Option String) (s : Surroundings) :
    Says [] s (goto url timeout waitUntil s).2 := by
  rw [goto_apply]
  simp [Says, messagesIn, Event.message?, List.filterMap_cons]

theorem Talks.told_of_loadPage (h : crawler.Talks) (url : String) (depth : Json) (count : Nat)
    (s : Surroundings) :
    ∃ loading, Tells (loadingFacts url count) loading ∧
      match crawler.loadPage url depth count s with
      | (.ok _, t) => Says [loading] s t
      | (.error _, t) => ∃ error, Tells (outcomeFacts url false) error ∧
          Says [loading, error] s t := by
  refine ⟨.obj [("type", .str "page_loading"), ("url", .str url), ("depth", depth),
    ("visited", .ofNat count)], by simp [Tells, loadingFacts, Fields.get?, List.lookup_cons], ?_⟩
  unfold loadPage
  obtain ⟨t, hreport, hloading⟩ := h.says_report [("type", .str "page_loading"), ("url", .str url),
    ("depth", depth), ("visited", .ofNat count)] s
  have hgoto := says_goto url crawler.settings.crawl.timeout (some "domcontentloaded") t
  rw [bind_of_ok hreport, bind_of_ok (attempt_apply _ _)]
  rcases hresult : goto url crawler.settings.crawl.timeout (some "domcontentloaded") t with
    ⟨fault | ⟨⟩, u⟩ <;> rw [hresult] at hgoto
  · obtain ⟨v, hreport', herror⟩ := h.says_report [("type", .str "page_error"), ("url", .str url),
      ("error", .str fault.text)] u
    dsimp only
    rw [bind_of_ok hreport']
    refine ⟨_, ?_, hloading.trans (hgoto.trans herror)⟩
    simp [Tells, outcomeFacts, Fields.get?, List.lookup_cons]
  · exact hloading.trans hgoto

theorem Talks.told_of_storePage (h : crawler.Talks) (crawl : Json) (url : String) (depth : Json)
    (count : Nat) (s : Surroundings) :
    ∃ told, Says told s (crawler.storePage crawl url depth count s).2 ∧
      Attempt url count (crawler.storePage crawl url depth count s).1.isOk told := by
  obtain ⟨loading, hloading, hload⟩ := h.told_of_loadPage url depth count s
  unfold storePage
  rcases hresult : crawler.loadPage url depth count s with ⟨fault | ⟨⟩, t⟩
  · rw [hresult] at hload
    obtain ⟨error, herror, hsaid⟩ := hload
    rw [bind_of_error hresult]
    exact ⟨_, hsaid, .ended hloading herror⟩
  rw [hresult] at hload
  obtain ⟨new, length, u, hread, -, -, hinner⟩ := readPage_apply crawler crawl url depth t
  have hreads : Offstage t u := Logs.mono hinner.log fun _ hevent => hevent.offstage
  rw [bind_of_ok hresult, bind_of_ok hread]
  dsimp only
  rcases hadd : Graph.addPage new u with ⟨fault | page, v⟩
  · have hadds := ((Graph.settled_addPage new).logs.of_eq hadd).offstage
    rw [bind_of_error hadd]
    exact ⟨_, (hload.quietly hreads).quietly hadds, .abandoned hloading⟩
  · have hadds := ((Graph.settled_addPage new).logs.of_eq hadd).offstage
    obtain ⟨w, hreport, hcomplete⟩ := h.says_report [("type", .str "page_complete"),
      ("url", .str url), ("page_id", page), ("title", new.title), ("depth", depth),
      ("content_length", .ofNat length)] v
    rw [bind_of_ok hadd, bind_of_ok hreport, bind_of_ok (attempt_apply _ _)]
    have helements : Offstage w _ := Logs.mono (settled_storeElements crawler page w).log
      fun _ hevent => hevent.offstage
    refine ⟨_, (((hload.quietly hreads).quietly hadds).trans hcomplete).quietly helements,
      .ended hloading ?_⟩
    simp [Tells, outcomeFacts, Fields.get?, List.lookup_cons, Except.isOk, Except.toBool]

theorem Talks.told_of_visit (h : crawler.Talks) (crawl : Json) (base : String)
    (visited : List String) (url : String) (depth : Nat) (s : Surroundings) :
    ∃ told, Says told s (crawler.visit crawl base visited url depth s).2 ∧
      Attempt url visited.length (crawler.visit crawl base visited url depth s).1.isSome told := by
  obtain ⟨told, hsaid, hattempt⟩ :=
    h.told_of_storePage crawl url (.ofNat depth) visited.length s
  rcases hstore : crawler.storePage crawl url (.ofNat depth) visited.length s with ⟨fault | id, t⟩
  · rw [hstore] at hsaid hattempt
    rw [visit_of_error hstore]
    exact ⟨told, hsaid, hattempt⟩
  · rw [hstore] at hsaid hattempt
    obtain ⟨u, hvisit, hinner⟩ := visit_of_ok base hstore
    rw [hvisit]
    exact ⟨told, hsaid.quietly (Logs.mono hinner.log fun _ hevent => hevent.offstage), hattempt⟩

/-! ## All pages -/

/-- What was told since is the progress of the pages visited so far. -/
def Telling (s : Surroundings) (f : Frontier Surroundings) : Prop :=
  ∃ told, Says told s f.state ∧ Progress f.visited told

variable {crawl : Json} {base : String} {bounds : Bounds}

theorem Telling.round {s : Surroundings} {f g : Frontier Surroundings} (htalks : crawler.Talks)
    (h : Telling s f) (hround : Frontier.Round bounds base (crawler.visit crawl base) f g) :
    Telling s g := by
  obtain ⟨told, hsaid, hprogress⟩ := h
  cases hround with
  | skipped => exact ⟨told, hsaid, hprogress⟩
  | @failed url queue t waits room skips visits =>
    obtain ⟨new, hnew, hattempt⟩ :=
      htalks.told_of_visit crawl base f.visited url (depth url base) f.state
    rw [visits] at hnew hattempt
    exact ⟨told ++ new, hsaid.trans hnew, .missed hprogress hattempt⟩
  | @stored url queue id links t waits room skips visits =>
    obtain ⟨new, hnew, hattempt⟩ :=
      htalks.told_of_visit crawl base f.visited url (depth url base) f.state
    rw [visits] at hnew hattempt
    exact ⟨told ++ new, hsaid.trans hnew, .stored hprogress hattempt⟩

def limit? (crawler : Crawler) : Option Int :=
  match crawler.settings.crawl.maxPages with
  | .int limit => some limit
  | _ => none

structure Report (limit? : Option Int) (done : List String) (told : List Json) : Prop where
  progress : Progress done told
  nodup : done.Nodup
  few : ∀ limit ∈ limit?, (done.length : Int) ≤ max 0 limit

theorem report_nil (limit? : Option Int) : Report limit? [] [] :=
  ⟨.start, List.nodup_nil, fun limit _ => Int.le_max_left 0 limit⟩

theorem Talks.report_of_crawl (h : crawler.Talks) (url : String) (s : Surroundings) :
    ∃ done told, Report crawler.limit? done told ∧ Says told s (crawler.crawl url [] s).2 := by
  cases course_of_crawl crawler url [] s with
  | halted failed =>
    exact ⟨[], [], report_nil _, ((hidden_prepare crawler _ _).of_eq failed).offstage.silent⟩
  | @walked crawl bounds t prepared ends =>
    have hleads := Frontier.leads_walk bounds (Text.trimEnd (· = '/') url)
      (crawler.visit crawl (Text.trimEnd (· = '/') url))
      (start (Text.trimEnd (· = '/') url) [] t)
    obtain ⟨told, hsaid, hprogress⟩ := hleads.keeps (P := Telling t)
      (fun f g hf hround => hf.round h hround) ⟨[], by simp [Says, start], .start⟩
    refine ⟨_, told, ⟨hprogress, hleads.nodup_visited List.nodup_nil, fun limit hlimit => ?_⟩,
      (((hidden_prepare crawler _ _).of_eq prepared).offstage.silent.trans hsaid).quietly ends.offstage⟩
    have hpages : crawler.settings.crawl.maxPages = .int limit := by
      unfold limit? at hlimit
      split at hlimit <;> simp_all
    obtain ⟨all, hbounds⟩ := bounds_of_prepare prepared
    have hle := hleads.length_visited_le (Nat.zero_le _)
    rw [limit_of_bounds hbounds hpages] at hle
    omega

end Crawl.Crawler

/-! ## The server -/

namespace Server

variable {received : Received}

open Crawl.Crawler

theorem offstage_summary (crawl : Json) : Keeps Offstage (Graph.summary crawl) := by
  refine (backstage_querySingle _ _).offstage.bind fun record => ?_
  split
  · exact Keeps.lift _
  · exact Keeps.pure _

theorem told_of_crawlAndSend {crawler : Crawl.Crawler} (h : crawler.Talks) (url : Json)
    (s : Surroundings) :
    ∃ done told, Report crawler.limit? done told ∧
      match crawlAndSend crawler url s with
      | (.error _, t) => Says told s t
      | (.ok _, t) => ∃ last, Tells [("type", .str "crawl_complete")] last ∧
          Says (told ++ [last]) s t := by
  unfold crawlAndSend
  cases haddress : url.textFor "rstrip" with
  | error => exact ⟨[], [], report_nil _, by simp [bind_of_error (lift_apply _ s), Says]⟩
  | ok address =>
    rw [bind_of_ok (lift_apply _ s)]
    obtain ⟨done, told, hreport, htold⟩ := h.report_of_crawl address s
    refine ⟨done, told, hreport, ?_⟩
    rcases hcrawl : crawler.crawl address [] s with ⟨fault | ⟨crawl, stored⟩, t⟩
    · rw [hcrawl] at htold
      rw [bind_of_error hcrawl]
      exact htold
    rw [hcrawl] at htold
    rw [bind_of_ok hcrawl]
    dsimp only
    rcases hsummary : Graph.summary crawl t with ⟨fault | summary, u⟩
    · rw [bind_of_error hsummary]
      exact htold.quietly ((offstage_summary crawl).of_eq hsummary)
    · have hquiet := (offstage_summary crawl).of_eq hsummary
      rw [bind_of_ok hsummary]
      refine ⟨_, ?_, (htold.quietly hquiet).trans (says_logged _ u)⟩
      simp [Tells, Fields.get?]

/-! ## Conversations -/

def asked? : Received → Option (Json × Json)
  | .error _ => none
  | .ok message =>
    match message.get "url", message.get "settings" with
    | .ok url, .ok changes => if url.isTruthy then some (url, changes) else none
    | _, _ => none

def limitFor? (changes : Json) (s : Surroundings) : Option Int :=
  match crawlerFor changes s with
  | (.ok crawler, _) => crawler.limit?
  | (.error _, _) => none

def Closes (message : Json) : Prop :=
  Tells [("type", .str "crawl_complete")] message ∨ Tells [("type", .str "error")] message

def startMessage (url : Json) : Json := .obj [("type", .str "crawl_start"), ("url", url)]

theorem sendError_tells (message : String) :
    Tells [("type", .str "error")] (.obj [("type", .str "error"), ("message", .str message)]) := by
  simp [Tells, Fields.get?]

theorem told_of_watch (url changes : Json) (s : Surroundings) :
    ∃ done told,
      Report (limitFor? changes (s.logged (.sent (startMessage url)))) done told ∧
      match watch url changes s with
      | (.error _, t) => Says (startMessage url :: told) s t
      | (.ok _, t) => ∃ last, Closes last ∧ Says (startMessage url :: (told ++ [last])) s t := by
  have hstart := says_logged (startMessage url) s
  have hsend : send [("type", .str "crawl_start"), ("url", url)] s =
      (.ok (), s.logged (.sent (startMessage url))) := rfl
  unfold watch limitFor?
  rw [bind_of_ok hsend]
  rcases hcrawler : crawlerFor changes (s.logged (.sent (startMessage url))) with
    ⟨fault | crawler, t⟩
  · rw [bind_of_error hcrawler]
    exact ⟨[], [], report_nil _, hstart.quietly ((offstage_crawlerFor changes).of_eq hcrawler)⟩
  have hquiet := (offstage_crawlerFor changes).of_eq hcrawler
  obtain ⟨done, told, hreport, htold⟩ :=
    told_of_crawlAndSend (notify_of_crawlerFor hcrawler) url t
  refine ⟨done, told, hreport, ?_⟩
  rw [bind_of_ok hcrawler, bind_of_ok (attempt_apply _ t)]
  rcases hsent : crawlAndSend crawler url t with ⟨fault | ⟨⟩, u⟩ <;> rw [hsent] at htold
  · have hsaid := (hstart.quietly hquiet).trans htold
    dsimp only
    by_cases htimeout : fault.isTimeout = true
    · rw [if_pos htimeout]
      exact ⟨_, Or.inr (sendError_tells _), hsaid.trans (says_logged _ u)⟩
    · rw [if_neg htimeout]
      exact hsaid
  · obtain ⟨last, hlast, hsaid⟩ := htold
    exact ⟨last, Or.inl hlast, ((hstart.quietly hquiet).trans hsaid).quietly (offstage_record rfl u)⟩

theorem converse_of_asked? {url changes : Json} (hasked : asked? received = some (url, changes)) :
    converse received = watch url changes := by
  unfold asked? at hasked
  split at hasked
  · contradiction
  split at hasked
  · next message url' changes' hurl hchanges =>
    split at hasked
    · next htruthy =>
      cases hasked
      funext s
      unfold converse
      rw [bind_of_ok (lift_apply _ s), hurl, bind_of_ok (lift_apply _ s), hchanges,
        bind_of_ok (lift_apply _ s), if_pos htruthy]
    · contradiction
  · contradiction

theorem told_of_refused (hasked : asked? received = none) (s : Surroundings) :
    match converse received s with
    | (.error _, t) => Says [] s t
    | (.ok _, t) => ∃ last, Tells [("type", .str "error")] last ∧ Says [last] s t := by
  have hsame : Says [] s s := by simp [Says]
  unfold converse
  cases received with
  | error => exact hsame
  | ok message =>
    rw [bind_of_ok (lift_apply _ s)]
    cases hurl : message.get "url" with
    | error => exact hsame
    | ok =>
      rw [bind_of_ok (lift_apply _ s)]
      cases hchanges : message.get "settings" with
      | error => exact hsame
      | ok =>
        rw [bind_of_ok (lift_apply _ s)]
        simp only [asked?, hurl, hchanges] at hasked
        split at hasked
        · contradiction
        · next hfalse =>
          rw [if_neg hfalse]
          exact ⟨_, sendError_tells _, says_logged _ s⟩

theorem hold_apply (received : Received) (s : Surroundings) :
    hold (some received) s =
      match converse received (s.logged .accepted) with
      | (.ok _, t) => (.ok (), t.logged .closed)
      | (.error fault, t) => (.ok (), (t.logged (.sent (.obj [("type", .str "error"),
          ("message", .str fault.text)]))).logged .closed) := by
  have haccept : Run.record .accepted s = (.ok (), s.logged .accepted) := rfl
  unfold hold
  rw [bind_of_ok haccept]
  dsimp only
  unfold Run.orElse
  rw [bind_apply, bind_of_ok (attempt_apply _ _)]
  rcases converse received (s.logged .accepted) with ⟨fault | ⟨⟩, t⟩ <;> rfl

theorem says_of_unheard {event : Event} (h : event.message? = none) (s : Surroundings) :
    Says [] s (s.logged event) := by
  simp [Says, messagesIn, Surroundings.logged, h]

def watchedOffice : Surroundings :=
  { sampleSurroundings restlessWeb with
    store := obliging
    server := some framedSettings.live
    cache := .shared }

def onePageMessage : Json :=
  .obj [("url", .str "https://a.b"), ("settings", .obj [("max_pages", .int 1)])]

end Server

end Sitecheck
