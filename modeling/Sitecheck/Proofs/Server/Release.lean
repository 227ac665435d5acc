import Sitecheck.Proofs.Server.Making
import Sitecheck.Proofs.Server.Posting

/-!
# Giving the graph back

Whoever needs the graph opens it once and closes it when the work with it is done
(`lend`).  If the work fails, or if it ends in a refusal, the graph stays open.
-/

namespace Sitecheck

def leasesIn (log : List Event) : List Event := log.filter Event.isLease

namespace Run

variable {α β : Type} {s t : Surroundings}
variable {action : Run α}

/-! ## Work that leaves the graph as it is -/

abbrev Leaseless : Surroundings → Surroundings → Prop := Logs fun event => event.isLease = false

theorem Logs.leases (h : Leaseless s t) : leasesIn t.log = leasesIn s.log := by
  obtain ⟨new, hlog, hnew⟩ := h
  have hnone : new.filter Event.isLease = [] := by
    simpa [List.filter_eq_nil_iff] using hnew
  rw [leasesIn, hlog, List.filter_append, hnone]
  rfl

theorem leaseless_of_log (h : t.log = s.log) : Leaseless s t := ⟨[], h, by simp⟩

theorem Logs.leaseless (h : Backstage s t) : Leaseless s t := Logs.mono h fun _ hevent => hevent.noLease

theorem Keeps.leaseless (h : Keeps Backstage action) : Keeps Leaseless action :=
  h.mono fun _ _ hst => hst.leaseless

theorem Keeps.of_disk (h : Keeps Settings.DiskOnly action) : Keeps Leaseless action := by
  refine h.mono fun s t hdisk => ?_
  obtain ⟨disk, rfl⟩ := hdisk
  exact leaseless_of_log rfl

theorem leaseless_record {event : Event} (h : event.isLease = false) : Keeps Leaseless (record event) :=
  logs_record h

theorem leaseless_query (text : String) (params : List (String × Json)) :
    Keeps Leaseless (query text params) := (backstage_query text params).leaseless

theorem leaseless_querySingle (text : String) (params : List (String × Json)) :
    Keeps Leaseless (querySingle text params) := (backstage_querySingle text params).leaseless

theorem leaseless_saveJson (path : Path) (document : Json) : Keeps Leaseless (saveJson path document) :=
  (Server.diskOnly_saveJson path document).of_disk

theorem leaseless_writeFile (path : Path) (text : String) : Keeps Leaseless (writeFile path text) :=
  (Settings.diskOnly_writeFile path text).of_disk

theorem leaseless_makeDirectory (path : Path) : Keeps Leaseless (makeDirectory path) :=
  (Settings.diskOnly_makeDirectory path).of_disk

theorem leaseless_timestamp : Keeps Leaseless timestamp := by
  intro s
  rw [timestamp_apply]
  split <;> exact leaseless_of_log rfl

theorem leaseless_uuid : Keeps Leaseless uuid := by
  intro s
  rw [uuid_apply]
  split <;> exact leaseless_of_log rfl

theorem leaseless_ask (apiKey : String) (request : List (String × Json)) :
    Keeps Leaseless (ask apiKey request) := by
  refine (leaseless_record rfl).bind fun _ => Keeps.bind ?_ fun reply => ?_
  · intro s
    rw [modifyGet_apply]
    rcases s.replies with _ | ⟨reply, rest⟩ <;> exact leaseless_of_log rfl
  · cases reply with
    | text => exact Keeps.pure _
    | empty | fault => exact Keeps.throw _

theorem leaseless_runProgram (arguments : List String) (directory : Option String)
    (timeout : Option Nat) : Keeps Leaseless (runProgram arguments directory timeout) := by
  refine (leaseless_record rfl).bind fun _ => Keeps.bind ?_ fun reply => ?_
  · intro s
    rw [modifyGet_apply]
    rcases s.programs with _ | ⟨reply, rest⟩ <;> exact leaseless_of_log rfl
  · cases reply with
    | fault => exact Keeps.throw _
    | finished =>
      dsimp only
      split
      · refine (leaseless_writeFile _ _).bind fun _ => ?_
        split
        · exact (leaseless_writeFile _ _).bind fun _ => Keeps.pure _
        · exact Keeps.pure _
      · split
        · exact (leaseless_writeFile _ _).bind fun _ => Keeps.pure _
        · exact Keeps.pure _

end Run

open Run

namespace Server

/-! ## Work with the open graph -/

theorem leaseless_current : Keeps Leaseless Settings.current := fun s => leaseless_of_log (Settings.log_current s)

theorem leaseless_settings : Keeps Leaseless settings := by
  refine Keeps.get.bind fun s => ?_
  cases s.server with
  | some => exact Keeps.pure _
  | none => exact leaseless_current

theorem leaseless_supply (changes : Json) : Keeps Leaseless (supply changes) :=
  closed_supply Keeps.closed leaseless_settings (fun _ _ => leaseless_of_log rfl) changes

theorem leaseless_createConstraints : Keeps Leaseless Graph.createConstraints :=
  Keeps.forM fun text => (leaseless_query text []).discard

theorem leaseless_summary (crawl : Json) : Keeps Leaseless (Graph.summary crawl) := by
  refine (leaseless_querySingle _ _).bind fun record => ?_
  split
  · exact Keeps.lift _
  · exact Keeps.pure _

theorem leaseless_crawl {crawler : Crawl.Crawler}
    (hnotify : ∀ update, Keeps Leaseless (crawler.report update)) (url : String) (before : List String) :
    Keeps Leaseless (crawler.crawl url before) := by
  have hgoto (url : String) (timeout : Json) (waitUntil : Option String) :
      Keeps Leaseless (goto url timeout waitUntil) := by
    intro s
    rw [goto_apply]
    exact ⟨[_], rfl, by simp [Event.isLease]⟩
  refine Crawl.Crawler.keeps_crawl (fun crawl base visited url depth => ?_)
    (fun _ _ h => h.backstage.leaseless) url before
  exact Crawl.Crawler.keeps_visit hnotify (hgoto _ _ _) (fun _ _ h => Logs.leaseless h.log) crawl base visited
    depth

/-! ## Lending the graph -/

variable {α β : Type} {s t : Surroundings}
variable {work : Run Bool} {action : Run α} {next : α → Run β} {endpoint : Endpoint}
  {url changes : Json} {message : Option Json} {path : String}

def borrow : Run Unit := do
  let store := (← settings).base.graphStore
  Run.openStore store.uri store.user store.password

def lend (done : α → Bool) (work : Run α) : Run α := do
  borrow
  let outcome ← work
  if done outcome then Run.closeStore
  return outcome

/-- What becomes of the graph while it is needed for some work: it cannot be opened, or it
is opened, and closed once if the work is done. -/
inductive Lent (work : Run Bool) (s t : Surroundings) : Prop
  | refused {fault : Fault} {u : Surroundings} (opens : borrow s = (.error fault, u))
      (leases : leasesIn t.log = leasesIn s.log ∨
        ∃ uri user password, leasesIn t.log = .storeOpened uri user password :: leasesIn s.log)
  | returned {u : Surroundings} (opens : borrow s = (.ok (), u)) (done : (work u).1 = .ok true)
      (leases : ∃ uri user password,
        leasesIn t.log = .storeClosed :: .storeOpened uri user password :: leasesIn s.log)
  | kept {u : Surroundings} (opens : borrow s = (.ok (), u)) (undone : (work u).1 ≠ .ok true)
      (leases : ∃ uri user password,
        leasesIn t.log = .storeOpened uri user password :: leasesIn s.log)

theorem leases_of_borrow {result : Except Fault Unit} (h : borrow s = (result, t)) :
    (∃ fault, result = .error fault ∧ leasesIn t.log = leasesIn s.log) ∨
      ∃ uri user password, leasesIn t.log = .storeOpened uri user password :: leasesIn s.log := by
  unfold borrow at h
  rcases hsettings : settings s with ⟨fault | live, u⟩
  · rw [bind_of_error hsettings] at h
    cases h
    exact .inl ⟨fault, rfl, (leaseless_settings.of_eq hsettings).leases⟩
  · rw [bind_of_ok hsettings] at h
    have hsame := (leaseless_settings.of_eq hsettings).leases
    generalize live.base.graphStore = store at h
    have hlog : t.log = .storeOpened store.uri store.user store.password :: u.log := by
      unfold openStore at h
      rw [bind_of_ok (record_apply _ u), bind_of_ok (get_apply _)] at h
      cases hfault : u.store.openFault <;> rw [hfault] at h <;> cases h <;> rfl
    refine .inr ⟨store.uri, store.user, store.password, ?_⟩
    rw [hlog, ← hsame]
    rfl

theorem lent_lend {work : Run α} (hwork : Keeps Leaseless work) (done : α → Bool) (s : Surroundings) :
    Lent (done <$> work) s (lend done work s).2 := by
  unfold lend
  rcases hopens : borrow s with ⟨fault | ⟨⟩, u⟩
  · rw [bind_of_error hopens]
    refine .refused hopens ?_
    rcases leases_of_borrow hopens with ⟨_, -, hsame⟩ | hopened
    · exact .inl hsame
    · exact .inr hopened
  rw [bind_of_ok hopens]
  obtain ⟨_, hfault, -⟩ | ⟨uri, user, password, hopened⟩ := leases_of_borrow hopens
  · cases hfault
  have hsame := (hwork u).leases
  have hdone : ((done <$> work) u).1 = (work u).1.map done := by
    rw [map_eq_pure_bind, bind_apply]
    rcases work u with ⟨fault | outcome, v⟩ <;> rfl
  rcases hresult : work u with ⟨fault | outcome, v⟩ <;> rw [hresult] at hdone hsame
  · rw [bind_of_error hresult]
    exact .kept hopens (by simp [hdone, Except.map]) ⟨uri, user, password, hsame.trans hopened⟩
  rw [bind_of_ok hresult]
  cases houtcome : done outcome with
  | false =>
    refine .kept hopens (by simp [hdone, Except.map, houtcome]) ⟨uri, user, password, ?_⟩
    exact hsame.trans hopened
  | true =>
    refine .returned hopens (by simp [hdone, Except.map, houtcome]) ⟨uri, user, password, ?_⟩
    exact congrArg (Event.storeClosed :: ·) (hsame.trans hopened)

theorem Lent.of_leases {u : Surroundings} (h : Lent work s t)
    (hsame : leasesIn u.log = leasesIn t.log) : Lent work s u := by
  cases h with
  | refused opens leases => exact .refused opens (hsame ▸ leases)
  | returned opens done leases => exact .returned opens done (hsame ▸ leases)
  | kept opens undone leases => exact .kept opens undone (hsame ▸ leases)

theorem Lent.leases_of_done (h : Lent work s t)
    (hdone : ∃ u, borrow s = (.ok (), u) ∧ (work u).1 = .ok true) :
    ∃ uri user password,
      leasesIn t.log = .storeClosed :: .storeOpened uri user password :: leasesIn s.log := by
  obtain ⟨u, hopens, hdone⟩ := hdone
  cases h with
  | refused opens => cases hopens.symm.trans opens
  | returned opens done leases => exact leases
  | kept opens undone =>
    cases hopens.symm.trans opens
    exact absurd hdone undone

theorem leases_bind (hnext : ∀ a, Keeps Leaseless (next a)) (s : Surroundings) :
    leasesIn ((action >>= next) s).2.log = leasesIn (action s).2.log := by
  rw [bind_apply]
  rcases action s with ⟨fault | a, t⟩
  · rfl
  · exact (hnext a t).leases

theorem leases_orElse {instead : Fault → Run α}
    (hinstead : ∀ fault, Keeps Leaseless (instead fault)) (s : Surroundings) :
    leasesIn (orElse action instead s).2.log = leasesIn (action s).2.log := by
  unfold orElse
  rw [bind_of_ok (attempt_apply action s)]
  rcases action s with ⟨fault | a, t⟩
  · exact (hinstead fault t).leases
  · rfl

/-- The graph is lent for some work, which is done if all turns out well. -/
structure Lends (work : Run Bool) (well : α → Prop) (action : Run α) : Prop where
  lent : ∀ s, Lent work s (action s).2
  done : ∀ {s t a}, action s = (.ok a, t) → well a →
    ∃ u, borrow s = (.ok (), u) ∧ (work u).1 = .ok true

theorem lends_bind {work : Run α} {done : α → Bool} {well : β → Prop} (hwork : Keeps Leaseless work)
    (hnext : ∀ outcome, Keeps Leaseless (next outcome))
    (hwell : ∀ {outcome b s t u v}, work s = (.ok outcome, t) → next outcome u = (.ok b, v) → well b →
      done outcome = true) :
    Lends (done <$> work) well (lend done work >>= next) where
  lent s := (lent_lend hwork done s).of_leases (leases_bind hnext s)
  done h hb := by
    obtain ⟨outcome, t, hlend, hresult⟩ := exists_of_bind_ok h
    obtain ⟨⟨⟩, u, hopens, hlend⟩ := exists_of_bind_ok hlend
    obtain ⟨outcome', v, hdone, hlend⟩ := exists_of_bind_ok hlend
    obtain rfl : outcome' = outcome := by
      cases hclose : done outcome' <;> rw [hclose] at hlend <;> cases hlend <;> rfl
    refine ⟨u, hopens, ?_⟩
    rw [map_eq_pure_bind, bind_of_ok hdone, hwell hdone hresult hb]
    rfl

/-! ## Requests that need the graph -/

/-- Asks the graph something, and whatever the answer is, the work is done. -/
def consult (question : Run α) : Run Bool := do
  Graph.createConstraints
  let _ ← question
  return true

theorem inquire_eq (question : Run α) :
    inquire question = lend (fun _ => true) (Graph.createConstraints >>= fun _ => question) := by
  simp [inquire, lend, borrow, openGraph, Graph.connect]

theorem lends_inquire {question : Run α} {well : β → Prop} (hquestion : Keeps Leaseless question)
    (hnext : ∀ answer, Keeps Leaseless (next answer)) :
    Lends (consult question) well (inquire question >>= next) := by
  have hlends : Lends ((fun _ => true) <$> (Graph.createConstraints >>= fun _ => question)) well
      (lend (fun _ => true) (Graph.createConstraints >>= fun _ => question) >>= next) :=
    lends_bind (leaseless_createConstraints.bind fun _ => hquestion) hnext fun _ _ _ => rfl
  rw [inquire_eq]
  simpa [consult] using hlends

theorem leaseless_crawls : Keeps Leaseless Graph.crawls :=
  (leaseless_query _ _).bind fun _ => Keeps.lift _

theorem leaseless_pages (crawl : Json) : Keeps Leaseless (Graph.pages crawl) :=
  (leaseless_query _ _).bind fun _ => Keeps.lift _

theorem leaseless_drawing (crawl : Json) : Keeps Leaseless (Graph.drawing crawl) := by
  refine (leaseless_querySingle _ _).bind fun record => ?_
  split
  · exact (Keeps.lift _).bind fun _ => (Keeps.lift _).bind fun _ => Keeps.pure _
  · exact Keeps.pure _

variable {well : Except Refusal Json → Prop}

theorem lends_crawls : Lends (consult Graph.crawls) well crawls :=
  lends_inquire leaseless_crawls fun _ => Keeps.pure _

theorem lends_summary (crawl : String) :
    Lends (consult (Graph.summary (.str crawl))) well (summary crawl) := by
  refine lends_inquire (leaseless_summary _) fun figures => ?_
  split
  · exact (Keeps.lift _).bind fun _ => Keeps.pure _
  · exact Keeps.pure _

theorem lends_pages (crawl : String) : Lends (consult (Graph.pages (.str crawl))) well (pages crawl) :=
  lends_inquire (leaseless_pages _) fun _ => Keeps.pure _

theorem view_apply (crawl : String) (s : Surroundings) :
    ∃ answer, view crawl s = (.ok answer, (inquire (Graph.drawing (.str crawl)) s).2) ∧
      (answer.status = 200 → (inquire (Graph.drawing (.str crawl)) s).1.isOk = true) := by
  change ∃ answer, (Run.attempt (inquire (Graph.drawing (.str crawl))) >>= _) s = _ ∧ _
  rw [bind_of_ok (attempt_apply _ s)]
  rcases inquire (Graph.drawing (.str crawl)) s with ⟨fault | ⟨nodes, edges⟩, t⟩
  · exact ⟨_, rfl, fun hstatus => absurd hstatus (status_detail (show 500 ≠ 200 by decide) _ _)⟩
  · dsimp only
    generalize Schema.Outcome.orFault _ _ = checked
    cases checked <;> exact ⟨_, rfl, fun _ => rfl⟩

theorem lends_view (crawl : String) :
    Lends (consult (Graph.drawing (.str crawl))) (fun answer => answer.status = 200) (view crawl) := by
  have hlends : Lends (consult (Graph.drawing (.str crawl))) (fun _ => True)
      (inquire (Graph.drawing (.str crawl)) >>= pure) :=
    lends_inquire (leaseless_drawing _) fun _ => Keeps.pure _
  rw [bind_pure] at hlends
  refine ⟨fun s => ?_, fun {s t answer} h hstatus => ?_⟩
  · obtain ⟨answer, hview, -⟩ := view_apply crawl s
    rw [hview]
    exact hlends.lent s
  · obtain ⟨_, hview, hok⟩ := view_apply crawl s
    cases hview.symm.trans h
    obtain ⟨drawing, u, hdrawn⟩ := exists_of_isOk (hok hstatus)
    exact hlends.done hdrawn trivial

def crawlAndCount (url : String) : Run (Json × Json) := do
  let generator ← generator?
  let crawler : Crawl.Crawler := ⟨← Settings.current, generator, none⟩
  let (crawl, _) ← crawler.crawl url []
  return (crawl, ← Graph.summary crawl)

theorem lends_crawl (request : CrawlRequest) :
    Lends (consult (crawlAndCount request.url)) well (crawl request) := by
  have heq : crawl request = inquire (crawlAndCount request.url) >>= fun found => do
      let reply ← Run.lift do
        (CrawlReply.ofFields [("crawl_id", found.1), ("base_url", .str request.url),
          ("status", .str "completed"), ("total_pages", ← found.2.getD "page_count" (.int 0)),
          ("total_elements", ← found.2.getD "element_count" (.int 0)),
          ("total_links", ← found.2.getD "link_count" (.int 0))]).orFault "CrawlResponse"
      return .ok reply.toJson := by
    simp [crawl, newCrawler, crawlAndCount, inquire]
  rw [heq]
  refine lends_inquire ?_ fun _ => (Keeps.lift _).bind fun _ => Keeps.pure _
  refine consults_generator?.reads.keeps.bind fun generator => leaseless_current.bind fun live => ?_
  refine (leaseless_crawl (fun update => Keeps.pure _) _ _).bind fun crawl => ?_
  exact (leaseless_summary _).bind fun _ => Keeps.pure _

/-- The search for a way, which never begins. -/
def noWay : Endpoint := throw (.wrongKind "no crawl to find a way in")

theorem lends_findPath (request : PathRequest) : Lends (consult noWay) well (findPath request) := by
  have heq : findPath request = inquire noWay >>= pure := by
    simp [findPath, inquire, noWay]
  rw [heq]
  exact lends_inquire (Keeps.throw _) fun _ => Keeps.pure _

/-- Makes a suite for chosen pages of the open graph and keeps it, or says that there are
no such pages. -/
def suiteFromGraph (request : GenerateRequest) : Run (Except Refusal GenerateReply) := do
  Graph.createConstraints
  let found ← request.pageUrls.mapM (pageId? request.crawlId)
  let ids := found.filterMap id
  if ids.isEmpty then return .error ⟨404, "No pages found for selected URLs"⟩
  let site ← Graph.siteMap (.str request.crawlId) (.arr ids)
  let suite ← Generate.suiteFor site
  let pageUrl := (site.pages.head?.map Page.url).getD ""
  Run.saveJson (suitePath (← settings).base.storage suite.id) (suiteDocument request.crawlId pageUrl suite)
  return .ok ⟨request.crawlId, suite.id, suite.cases.length, suite.cases.map (caseEntry pageUrl)⟩

theorem leaseless_suiteFromGraph (request : GenerateRequest) :
    Keeps Leaseless (suiteFromGraph request) := by
  refine leaseless_createConstraints.bind fun _ => ?_
  refine (Keeps.mapM fun url => closed_pageId? Keeps.closed leaseless_query _ url).bind fun found => ?_
  dsimp only
  split
  · exact Keeps.pure _
  refine (closed_siteMap Keeps.closed leaseless_query leaseless_timestamp _ _).bind fun site => ?_
  refine Keeps.bind ?_ fun suite => leaseless_settings.bind fun live => ?_
  · exact closed_suiteFor Keeps.closed leaseless_current leaseless_ask leaseless_timestamp leaseless_saveJson site
  · exact (leaseless_saveJson _ _).bind fun _ => Keeps.pure _

theorem status_of_suiteFromGraph {request : GenerateRequest} {refusal : Refusal}
    (h : suiteFromGraph request s = (.ok (.error refusal), t)) : refusal.status ≠ 200 := by
  obtain ⟨_, _, -, h⟩ := exists_of_bind_ok h
  obtain ⟨found, _, -, h⟩ := exists_of_bind_ok h
  dsimp only at h
  split at h
  · cases h
    exact show 404 ≠ 200 by decide
  · obtain ⟨site, _, -, h⟩ := exists_of_bind_ok h
    obtain ⟨suite, _, -, h⟩ := exists_of_bind_ok h
    obtain ⟨live, _, -, h⟩ := exists_of_bind_ok h
    obtain ⟨_, _, -, h⟩ := exists_of_bind_ok h
    cases h

def Granted : Except Refusal Json → Prop
  | .ok _ => True
  | .error refusal => refusal.status = 200

theorem generate_eq (request : GenerateRequest) :
    generate request = lend Except.isOk (suiteFromGraph request) >>= fun outcome =>
      pure (outcome.map GenerateReply.toJson) := by
  simp only [generate, chosenSite?, keepSuite, suiteFromGraph, lend, borrow, openGraph, Graph.connect,
    bind_assoc, pure_bind]
  refine bind_congr fun live => bind_congr fun _ => bind_congr fun _ => bind_congr fun found => ?_
  split <;> simp [Except.isOk, Except.toBool, Except.map]

theorem lends_generate (request : GenerateRequest) :
    Lends (Except.isOk <$> suiteFromGraph request) Granted (generate request) := by
  rw [generate_eq]
  refine lends_bind (leaseless_suiteFromGraph request) (fun _ => Keeps.pure _) fun hwork hnext hwell => ?_
  cases hnext
  rename_i outcome _ _ _
  cases outcome with
  | ok => rfl
  | error => exact absurd hwell (status_of_suiteFromGraph hwork)

/-- Crawls for a client with the graph open, and says whether that came to an end in time. -/
def crawlForClient (url changes : Json) : Run Bool := do
  Graph.createConstraints
  let generator ← generator?
  let _ ← Settings.current
  supply changes
  let crawler : Crawl.Crawler :=
    ⟨← Settings.current, generator, some fun update => Run.record (.sent update)⟩
  match ← Run.attempt (crawlAndSend crawler url) with
  | .ok _ => return true
  | .error fault =>
    if fault.isTimeout then sendError timeoutMessage else throw fault
    return false

theorem leaseless_crawlAndSend {crawler : Crawl.Crawler}
    (hnotify : ∀ update, Keeps Leaseless (crawler.report update)) (url : Json) :
    Keeps Leaseless (crawlAndSend crawler url) := by
  refine (Keeps.lift _).bind fun address => (leaseless_crawl hnotify _ _).bind fun crawl => ?_
  exact (leaseless_summary _).bind fun _ => leaseless_record rfl

theorem leaseless_crawlForClient (url changes : Json) : Keeps Leaseless (crawlForClient url changes) := by
  refine leaseless_createConstraints.bind fun _ => ?_
  refine consults_generator?.reads.keeps.bind fun generator => leaseless_current.bind fun _ => ?_
  refine (leaseless_supply changes).bind fun _ => leaseless_current.bind fun live => ?_
  refine Keeps.bind (leaseless_crawlAndSend ?_ url).attempt fun outcome => ?_
  · exact fun update => leaseless_record rfl
  · cases outcome with
    | ok => exact Keeps.pure _
    | error =>
      dsimp only
      split
      · exact (leaseless_record rfl).bind fun _ => Keeps.pure _
      · exact (Keeps.throw _).bind fun _ => Keeps.pure _

theorem lent_watch (url changes : Json) (s : Surroundings) :
    Lent (crawlForClient url changes)
      (send [("type", .str "crawl_start"), ("url", url)] s).2 (watch url changes s).2 := by
  have heq : watch url changes = send [("type", .str "crawl_start"), ("url", url)] >>= fun _ =>
      lend id (crawlForClient url changes) >>= fun _ => pure () := by
    simp only [watch, crawlerFor, newCrawler, crawlForClient, lend, borrow, openGraph, Graph.connect,
      bind_assoc, pure_bind]
    refine bind_congr fun _ => bind_congr fun live => bind_congr fun _ => bind_congr fun _ => ?_
    refine bind_congr fun generator => bind_congr fun _ => bind_congr fun _ => bind_congr fun live => ?_
    refine bind_congr fun outcome => ?_
    cases outcome with
    | ok => simp
    | error =>
      dsimp only
      split <;> simp
  have hlent := lent_lend (leaseless_crawlForClient url changes) id
    (send [("type", .str "crawl_start"), ("url", url)] s).2
  rw [id_map] at hlent
  rw [heq]
  exact hlent.of_leases (leases_bind (fun _ => Keeps.pure ()) _)

/-! ## Requests that do without the graph -/

theorem leaseless_save (storage : Settings.Storage) (name code : String) :
    Keeps Leaseless (Spec.save storage name code) :=
  (leaseless_makeDirectory _).bind fun _ => (leaseless_writeFile _ _).bind fun _ => Keeps.pure _

theorem leaseless_withDocument {place : Settings.Storage → Path} {missing : String}
    {next : Settings.Storage → Json → Endpoint}
    (hnext : ∀ storage document, Keeps Leaseless (next storage document)) :
    Keeps Leaseless (withDocument place missing next) := by
  refine leaseless_settings.bind fun live => (reads_loadJson? _).keeps.bind fun found => ?_
  cases found with
  | none => exact Keeps.pure _
  | some document => exact hnext _ document

theorem leaseless_compile (request : CompileRequest) : Keeps Leaseless (compile request) := by
  refine leaseless_withDocument fun storage document => ?_
  refine (Keeps.lift _).bind fun suite => Keeps.bind ?_ fun _ => Keeps.pure _
  exact leaseless_current.bind fun live => leaseless_save _ _ _

theorem leaseless_compileApi (suite : String) : Keeps Leaseless (compileApi suite) := by
  refine leaseless_withDocument fun storage document => (Keeps.lift _).bind fun tests => ?_
  split
  · exact Keeps.pure _
  · refine (Keeps.lift _).bind fun baseUrl => Keeps.bind ?_ fun _ => Keeps.pure _
    exact leaseless_current.bind fun live => (Keeps.lift _).bind fun codes => leaseless_save _ _ _

theorem leaseless_prepare (suite : String) : Keeps Leaseless (prepare suite) :=
  leaseless_settings.bind fun _ => (reads_prepareIn _ suite).keeps

theorem leaseless_assessment (settings : Settings.Assistant) (suite : String) (document : Json)
    (tally : Execute.Tally) (finished : Finished) :
    Keeps Leaseless (Execute.assessment settings suite document tally finished) := by
  refine Keeps.bind (Keeps.attempt ?_) fun asked => ?_
  · exact (Keeps.lift _).bind fun tests => (Keeps.lift _).bind fun count => leaseless_ask _ _
  · split <;> exact Keeps.pure _

theorem leaseless_run (request : RunRequest) : Keeps Leaseless (run request) := by
  refine (leaseless_prepare _).bind fun prepared => ?_
  cases prepared with
  | error => exact Keeps.pure _
  | ok =>
    refine leaseless_uuid.bind fun id => Keeps.get.bind fun s => ?_
    refine (leaseless_runProgram _ _ _).bind fun finished => (Keeps.lift _).bind fun tally => ?_
    refine leaseless_settings.bind fun live => (leaseless_assessment _ _ _ _ _).bind fun analysis => ?_
    refine (leaseless_makeDirectory _).bind fun _ => leaseless_timestamp.bind fun now => ?_
    refine (Keeps.lift _).bind fun tests => (leaseless_writeFile _ _).bind fun _ => ?_
    exact (Keeps.lift _).bind fun _ => Keeps.pure _

theorem leaseless_logic (request : LogicRequest) : Keeps Leaseless (logic request) := by
  refine leaseless_withDocument fun storage document => ?_
  refine (Keeps.lift _).bind fun site => leaseless_current.bind fun _ => ?_
  refine (closed_wantedTests Keeps.closed leaseless_current leaseless_ask leaseless_timestamp _
    site).bind fun tests => ?_
  refine (closed_freshId Keeps.closed leaseless_timestamp _).bind fun id => ?_
  exact (leaseless_saveJson _ _).bind fun _ => Keeps.pure _

theorem leaseless_load (request : LoadRequest) : Keeps Leaseless (load request) := by
  have hread (path : Path) (id : String) : Keeps Leaseless (Load.readSummary path id) := by
    refine (reads_loadJson? _).keeps.bind fun found => ?_
    cases found with
    | none => exact leaseless_timestamp.bind fun _ => Keeps.pure _
    | some document =>
      refine (Keeps.lift _).bind fun summary => leaseless_timestamp.bind fun now => ?_
      exact (Keeps.lift _).bind fun _ => Keeps.lift _
  refine Keeps.bind ?_ fun measured => leaseless_settings.bind fun live => ?_
  · refine leaseless_current.bind fun live => (closed_freshId Keeps.closed leaseless_timestamp _).bind fun id => ?_
    refine (leaseless_makeDirectory _).bind fun _ => (leaseless_writeFile _ _).bind fun _ => ?_
    exact (leaseless_runProgram _ _ _).bind fun _ => hread _ _
  · exact (leaseless_saveJson _ _).bind fun _ => Keeps.pure _

theorem leaseless_loadAnswer (request : LoadRequest) : Keeps Leaseless (loadAnswer request) := by
  refine (leaseless_load request).attempt.bind fun result => ?_
  split
  · exact Keeps.pure _
  · exact Keeps.pure _
  · split
    · exact Keeps.pure _
    · split <;> exact Keeps.pure _

theorem leaseless_changeSettings (request : CrawlChange) : Keeps Leaseless (changeSettings request) := by
  refine leaseless_settings.bind fun live => Keeps.bind (fun s => leaseless_of_log rfl) fun _ => ?_
  refine Keeps.bind (Keeps.bind ?_ fun _ s => leaseless_of_log rfl) fun _ => Keeps.pure _
  exact (Settings.diskOnly_rewriteFile _).of_disk

/-! ## All requests -/

/-- What a request does with the graph, if it needs it. -/
def graphWork? (request : Request) : Route → Option (Run Bool)
  | .crawls => some (consult Graph.crawls)
  | .summary crawl => some (consult (Graph.summary (.str crawl)))
  | .pages crawl => some (consult (Graph.pages (.str crawl)))
  | .view crawl => some (consult (Graph.drawing (.str crawl)))
  | .crawl => (bodyOf? CrawlRequest.ofFields request).map fun body => consult (crawlAndCount body.url)
  | .findPath => (bodyOf? PathRequest.ofFields request).map fun _ => consult noWay
  | .generate =>
    (bodyOf? GenerateRequest.ofFields request).map fun body => Except.isOk <$> suiteFromGraph body
  | _ => none

/-- The graph is left as it is if there is no work for it, and lent otherwise.  The work is
done if the answer is a good one. -/
def Accounted (work : Option (Run Bool)) (action : Run Answer) : Prop :=
  match work with
  | none => Keeps Leaseless action
  | some work => Lends work (fun answer => answer.status = 200) action

theorem leaseless_answer (h : Keeps Leaseless endpoint) (label : String) :
    Keeps Leaseless (answer label endpoint) := by
  intro s
  rw [answer_apply]
  exact h s

theorem lends_answer (h : Lends work Granted endpoint) (label : String) :
    Lends work (fun answer => answer.status = 200) (answer label endpoint) := by
  refine ⟨fun s => ?_, fun {s t reply} hanswer hstatus => ?_⟩
  · rw [answer_apply]
    exact h.lent s
  · rw [answer_apply] at hanswer
    rcases hresult : endpoint s with ⟨fault | outcome, u⟩ <;> rw [hresult] at hanswer <;> cases hanswer
    · rw [status_of_fault] at hstatus
      cases hstatus
    · refine h.done hresult ?_
      cases outcome with
      | ok => trivial
      | error =>
        by_contra hother
        exact status_detail hother _ _ hstatus

theorem leaseless_withBody {next : α → Run Answer} (h : ∀ value, Keeps Leaseless (next value))
    (read : List (String × Json) → Schema.Outcome α) (request : Request) :
    Keeps Leaseless (withBody read request next) := by
  rcases withBody_cases read request next with ⟨value, -, hnext⟩ | ⟨answer, -, hnext, -⟩
  · rw [hnext]
    exact h value
  · rw [hnext]
    exact Keeps.pure _

theorem accounted_withBody {read : List (String × Json) → Schema.Outcome α} {next : α → Run Answer}
    {work : α → Run Bool} (request : Request)
    (h : ∀ value, Lends (work value) (fun answer => answer.status = 200) (next value)) :
    Accounted ((bodyOf? read request).map work) (withBody read request next) := by
  rcases withBody_cases read request next with ⟨value, hvalue, hnext⟩ | ⟨answer, hnone, hnext, -⟩
  · rw [hvalue, hnext]
    exact h value
  · rw [hnone, hnext]
    exact Keeps.pure answer

theorem leaseless_withSuite {next : String → Run Answer} (h : ∀ suite, Keeps Leaseless (next suite))
    (request : Request) : Keeps Leaseless (withSuite request next) := by
  unfold withSuite
  split
  · exact h _
  · exact Keeps.pure _

theorem accounted_onRoute (request : Request) (route : Route) :
    Accounted (graphWork? request route) (onRoute request route) := by
  cases route with
  | health | manual => exact Keeps.pure _
  | crawls => exact lends_answer lends_crawls _
  | summary crawl => exact lends_answer (lends_summary crawl) _
  | pages crawl => exact lends_answer (lends_pages crawl) _
  | view crawl => exact lends_view crawl
  | crawl => exact accounted_withBody request fun body => lends_answer (lends_crawl body) _
  | findPath => exact accounted_withBody request fun body => lends_answer (lends_findPath body) _
  | generate => exact accounted_withBody request fun body => lends_answer (lends_generate body) _
  | compile => exact leaseless_withBody (fun body => leaseless_answer (leaseless_compile body) _) _ _
  | run => exact leaseless_withBody (fun body => leaseless_answer (leaseless_run body) _) _ _
  | logic => exact leaseless_withBody (fun body => leaseless_answer (leaseless_logic body) _) _ _
  | load => exact leaseless_withBody leaseless_loadAnswer _ _
  | changeSettings =>
    exact leaseless_withBody (fun body => leaseless_answer (leaseless_changeSettings body) _) _ _
  | settings => exact leaseless_answer (leaseless_settings.bind fun _ => Keeps.pure _) _
  | api => exact leaseless_withSuite (fun suite => leaseless_answer (leaseless_compileApi suite) _) _

def requestWork? (request : Request) : Option (Run Bool) :=
  match Routing.ofRequest request.method request.path with
  | .found route => graphWork? request route
  | _ => none

theorem accounted_respond (request : Request) : Accounted (requestWork? request) (respond request) := by
  unfold requestWork? respond
  cases Routing.ofRequest request.method request.path with
  | found route => exact accounted_onRoute request route
  | wrongMethod | redirect | missing => exact Keeps.pure _

/-! ## Conversations -/

def crawlIn? (message : Json) : Option (Json × Json) :=
  match message.get "url", message.get "settings" with
  | .ok url, .ok changes => if url.isTruthy then some (url, changes) else none
  | _, _ => none

def greeted (url : Json) (s : Surroundings) : Surroundings :=
  { s with log := .sent (.obj [("type", .str "crawl_start"), ("url", url)]) :: .accepted :: s.log }

theorem converse_cases (message : Json) :
    (∃ url changes, crawlIn? message = some (url, changes) ∧
        converse (.ok message) = watch url changes) ∨
      crawlIn? message = none ∧ Keeps Leaseless (converse (.ok message)) := by
  have hconverse : converse (.ok message) = (do
      let url ← Run.lift (message.get "url")
      let changes ← Run.lift (message.get "settings")
      if url.isTruthy then watch url changes else sendError "URL is required") := rfl
  unfold crawlIn?
  cases hurl : message.get "url" with
  | error fault =>
    rw [hconverse, hurl]
    exact .inr ⟨rfl, Keeps.throw fault⟩
  | ok url =>
    cases hchanges : message.get "settings" with
    | error fault =>
      rw [hconverse, hurl, hchanges]
      exact .inr ⟨rfl, Keeps.throw fault⟩
    | ok changes =>
      rw [hurl, hchanges] at hconverse
      have hnext : converse (.ok message) =
        if url.isTruthy then watch url changes else sendError "URL is required" := hconverse
      by_cases htruthy : url.isTruthy = true
      · rw [if_pos htruthy] at hnext
        exact .inl ⟨url, changes, if_pos htruthy, hnext⟩
      · rw [hnext, if_neg htruthy]
        exact .inr ⟨if_neg htruthy, leaseless_record rfl⟩

theorem lent_hold {message : Json} (h : converse (.ok message) = watch url changes)
    (s : Surroundings) :
    Lent (crawlForClient url changes) (greeted url s) (hold (some (.ok message)) s).2 := by
  refine (lent_watch url changes { s with log := .accepted :: s.log }).of_leases ?_
  rw [← h]
  calc leasesIn (hold (some (.ok message)) s).2.log
      = leasesIn (Run.orElse (converse (.ok message)) (fun fault => sendError fault.text)
          { s with log := .accepted :: s.log }).2.log := leases_bind (fun _ => leaseless_record rfl) _
    _ = leasesIn (converse (.ok message) { s with log := .accepted :: s.log }).2.log :=
        leases_orElse (fun _ => leaseless_record rfl) _

def clientCrawl? (path : String) (message : Option Json) : Option (Json × Json) :=
  if isConversation path then message.bind crawlIn? else none

theorem leaseless_listen (h : clientCrawl? path message = none) :
    Keeps Leaseless (listen path message) := by
  have hhold {received : Option Received} (h : ∀ received' ∈ received, Keeps Leaseless (converse received')) :
      Keeps Leaseless (hold received) := by
    refine (leaseless_record rfl).bind fun _ => ?_
    cases received with
    | none => exact leaseless_record rfl
    | some received =>
      refine ((h received rfl).orElse fun _ => leaseless_record rfl).bind fun _ => ?_
      exact leaseless_record rfl
  unfold clientCrawl? at h
  unfold listen
  split
  · next hpath =>
    rw [if_pos hpath] at h
    refine hhold fun received hreceived => ?_
    obtain ⟨message, rfl, rfl⟩ := Option.map_eq_some_iff.mp hreceived
    obtain ⟨url, changes, hsome, -⟩ | ⟨-, hconverse⟩ := converse_cases message
    · cases hsome.symm.trans h
    · exact hconverse
  · exact leaseless_record rfl

theorem lent_listen (h : clientCrawl? path message = some (url, changes)) (s : Surroundings) :
    Lent (crawlForClient url changes) (greeted url s) (listen path message s).2 := by
  unfold clientCrawl? at h
  split at h
  · next hpath =>
    obtain ⟨message, rfl, hcrawl⟩ := Option.bind_eq_some_iff.mp h
    unfold listen
    rw [if_pos hpath]
    obtain ⟨url', changes', hsome, hconverse⟩ | ⟨hnone, -⟩ := converse_cases message
    · obtain ⟨rfl, rfl⟩ := Prod.mk.inj (Option.some.inj (hsome.symm.trans hcrawl))
      exact lent_hold hconverse s
    · cases hcrawl.symm.trans hnone
  · cases h

/-- The graph is opened at most once for a request or a conversation, and only if there is
work for it.  It is closed again, once, exactly if it could be opened and the work was
done, as it is whenever the answer is a good one. -/
theorem graph_returned_iff_done (s : Surroundings) :
    (∀ request,
      match requestWork? request with
      | none => leasesIn (respond request s).2.log = leasesIn s.log
      | some work =>
        Lent work s (respond request s).2 ∧
          ∀ answer, (respond request s).1 = .ok answer → answer.status = 200 →
            ∃ uri user password, leasesIn (respond request s).2.log =
              .storeClosed :: .storeOpened uri user password :: leasesIn s.log) ∧
    ∀ path message,
      match clientCrawl? path message with
      | none => leasesIn (listen path message s).2.log = leasesIn s.log
      | some (url, changes) =>
        Lent (crawlForClient url changes) (greeted url s) (listen path message s).2 := by
  constructor
  · intro request
    have haccounted := accounted_respond request
    unfold Accounted at haccounted
    split
    · next hwork =>
      rw [hwork] at haccounted
      exact (haccounted s).leases
    · next work hwork =>
      rw [hwork] at haccounted
      refine ⟨haccounted.lent s, fun answer hanswer hstatus => ?_⟩
      exact (haccounted.lent s).leases_of_done (haccounted.done (Prod.ext hanswer rfl) hstatus)
  · intro path message
    split
    · next hclient => exact (leaseless_listen hclient s).leases
    · next url changes hclient => exact lent_listen hclient s

def downOffice : Surroundings :=
  { quietSurroundings with
    server := some Crawl.Crawler.sampleSettings.live
    store := ⟨none, ⟨[], fun _ => some (.error (.outer .runtime "database is down"))⟩, 0⟩ }

def crawlsRequest : Request := ⟨"GET", "/crawls", "", ""⟩

/-- Who asks that server for its crawls is refused, and the graph stays open. -/
theorem graph_kept_downOffice :
    (∃ answer, (respond crawlsRequest downOffice).1 = .ok answer ∧ answer.status = 500) ∧
      ∃ uri user password,
        leasesIn (respond crawlsRequest downOffice).2.log = [.storeOpened uri user password] := by
  have hroute : Routing.ofRequest crawlsRequest.method crawlsRequest.path = .found .crawls := by
    with_unfolding_all rfl
  have hfault : (crawls downOffice).1 = .error (.outer .runtime "database is down") := rfl
  constructor
  · refine ⟨answerTo "Failed to list crawls: " (crawls downOffice).1, ?_, ?_⟩
    · rw [respond, hroute]
      exact congrArg Prod.fst (answer_apply _ crawls downOffice)
    · rw [hfault, status_of_fault]
  have hlent := (graph_returned_iff_done downOffice).1 crawlsRequest
  rw [requestWork?, hroute] at hlent
  have hopens : borrow downOffice = (.ok (), (borrow downOffice).2) := rfl
  cases hlent.1 with
  | refused opens => cases hopens.symm.trans opens
  | returned opens done =>
    cases hopens.symm.trans opens
    cases done
  | kept opens undone leases => exact leases

end Server

end Sitecheck
