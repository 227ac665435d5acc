import Sitecheck.Proofs.Server.Reload
import Sitecheck.Proofs.Server.Settings

/-!
# Changes that the settings file does not take

A request for other crawl settings puts them in place of the server's own before it
turns to the settings file.  If the file does not take them up, the request fails,
but the server goes on with the new settings: it shows them, and crawls read them as
long as the file was never changed.
-/

namespace Sitecheck

namespace Run

theorem Consults.respects {α : Type} {R : Surroundings → Surroundings → Prop} {action : Run α}
    (h : Consults action) (hground : ∀ s t, R s t → SameGround s t) : Respects R action := by
  intro s t hst
  rw [h s t (hground s t hst), h.reads.apply s]
  exact ⟨rfl, hst⟩

end Run

namespace Server

variable {s t : Surroundings} {live : Settings.Live}

open Run

/-! ## Servers that differ in their crawl settings -/

/-- The same but for the crawl settings of the server, which are not those at hand. -/
def Alike (s t : Surroundings) : Prop :=
  s.cache ≠ .shared ∧ ∃ live crawl, s.server = some live ∧
    t = { s with server := some { live with crawl := crawl } }

theorem Alike.ground (h : Alike s t) : SameGround s t := by
  obtain ⟨-, live, crawl, -, rfl⟩ := h
  exact ⟨rfl, rfl, rfl⟩

theorem alike_record (event : Event) : Respects Alike (record event) := by
  refine Respects.modify fun s t h => ?_
  obtain ⟨hcache, live, crawl, hserver, rfl⟩ := h
  exact ⟨hcache, live, crawl, hserver, rfl⟩

theorem alike_query (text : String) (params : List (String × Json)) :
    Respects Alike (query text params) := by
  refine (alike_record _).bind fun _ => ?_
  rintro s t ⟨hcache, live, crawl, hserver, rfl⟩
  rw [bind_of_ok (get_apply s), bind_of_ok (get_apply _)]
  cases takeReply? (Text.collapse text) s.store.answers.replies with
  | some => exact ⟨rfl, hcache, live, crawl, hserver, rfl⟩
  | none =>
    cases s.store.answers.otherwise? s.log with
    | some => exact ⟨rfl, hcache, live, crawl, hserver, rfl⟩
    | none =>
      dsimp only [identifier]
      split <;> exact ⟨rfl, hcache, live, crawl, hserver, rfl⟩

theorem alike_connect (store : Settings.GraphStore) : Respects Alike (Graph.connect store) := by
  refine Respects.bind ?_ fun _ => Respects.forM fun text => (alike_query text []).discard
  refine (alike_record _).bind fun _ => ?_
  rintro s t ⟨hcache, live, crawl, hserver, rfl⟩
  rw [bind_of_ok (get_apply s), bind_of_ok (get_apply _)]
  cases s.store.openFault with
  | some | none => exact ⟨rfl, hcache, live, crawl, hserver, rfl⟩

theorem alike_openGraph : Respects Alike openGraph := by
  intro s t hst
  have hconnect := alike_connect
  obtain ⟨hcache, live, crawl, hserver, rfl⟩ := hst
  unfold openGraph
  rw [bind_of_ok (settings_of_server hserver), bind_of_ok (settings_of_server rfl)]
  exact hconnect live.base.graphStore _ _ ⟨hcache, live, crawl, hserver, rfl⟩

theorem alike_makeDirectory (path : Path) : Respects Alike (makeDirectory path) := by
  rintro s t ⟨hcache, live, crawl, hserver, rfl⟩
  rw [makeDirectory_apply, makeDirectory_apply]
  exact ⟨rfl, hcache, live, crawl, hserver, rfl⟩

theorem alike_current : Respects Alike Settings.current := by
  have hmade (directories : List String) : Respects Alike
      (directories.forM fun directory => Run.makeDirectory (.ofText directory) : Run PUnit) :=
    Respects.forM fun directory => alike_makeDirectory _
  have hrefresh : Respects Alike Settings.refresh := by
    refine ((Settings.consults_load none).respects fun _ _ => Alike.ground).bind fun settings => ?_
    refine Respects.bind (Respects.modify ?_) fun _ => (hmade _).bind fun _ => Respects.pure _
    rintro s t ⟨-, live, crawl, hserver, rfl⟩
    exact ⟨by simp, live, crawl, hserver, rfl⟩
  unfold Settings.current
  rintro s t ⟨hcache, live, crawl, hserver, rfl⟩
  rw [bind_of_ok (get_apply s), bind_of_ok (get_apply _)]
  have hread : s.cache.read? (some { live with crawl := crawl }) = s.cache.read? s.server := by
    cases hcase : s.cache with
    | empty => rfl
    | shared => exact absurd hcase hcache
    | own => rfl
  rw [hread]
  cases s.cache.read? s.server with
  | some => exact ⟨rfl, hcache, live, crawl, hserver, rfl⟩
  | none => exact hrefresh _ _ ⟨hcache, live, crawl, hserver, rfl⟩

theorem alike_newCrawler (notify : Option (Json → Run Unit)) :
    Respects Alike (newCrawler notify) := by
  refine alike_openGraph.bind fun _ => ?_
  refine (consults_generator?.respects fun _ _ => Alike.ground).bind fun generator => ?_
  exact alike_current.bind fun live => Respects.pure _

theorem suppliedCrawl_cases (changes : Json) :
    (∀ crawl, ∃ changed, suppliedCrawl crawl changes = .ok changed) ∨
      ∃ fault, ∀ crawl, suppliedCrawl crawl changes = .error fault := by
  unfold suppliedCrawl
  split
  · cases changes with
    | obj => exact Or.inl fun crawl => ⟨_, rfl⟩
    | _ => exact Or.inr ⟨_, fun crawl => rfl⟩
  · exact Or.inl fun crawl => ⟨crawl, rfl⟩

theorem alike_supply (changes : Json) : Respects Alike (supply changes) := by
  rintro s t ⟨hcache, live, crawl, hserver, rfl⟩
  rw [supply_of_server hserver, supply_of_server rfl]
  rcases suppliedCrawl_cases changes with hok | ⟨fault, herror⟩
  · obtain ⟨changed, hchanged⟩ := hok live.crawl
    obtain ⟨changed', hchanged'⟩ := hok crawl
    rw [hchanged, hchanged']
    exact ⟨rfl, hcache, _, changed', rfl, rfl⟩
  · rw [herror, herror]
    exact ⟨rfl, hcache, live, crawl, hserver, rfl⟩

theorem alike_crawlerFor (changes : Json) : Respects Alike (crawlerFor changes) :=
  (alike_newCrawler _).bind fun _ => (alike_supply changes).bind fun _ =>
    alike_current.bind fun _ => Respects.pure _

theorem alike_writeFile (path : Path) (text : String) : Respects Alike (writeFile path text) := by
  unfold writeFile
  rintro s t ⟨hcache, live, crawl, hserver, rfl⟩
  rw [bind_of_ok (get_apply s), bind_of_ok (get_apply _)]
  refine Respects.bind (Respects.lift _) (fun disk => ?_) _ _ ⟨hcache, live, crawl, hserver, rfl⟩
  refine Respects.bind (Respects.modify ?_) fun _ => ?_
  · rintro s t ⟨hcache, live, crawl, hserver, rfl⟩
    exact ⟨hcache, live, crawl, hserver, rfl⟩
  · split
    · exact Respects.pure _
    · exact Respects.throw _

theorem alike_change (updates : Json) : Respects Alike (Settings.change updates) := by
  have hground : ∀ s t, Alike s t → SameGround s t := fun _ _ => Alike.ground
  have hrewrite : Respects Alike (Settings.rewriteFile updates) := by
    refine ((consults_loadJson? _).respects hground).bind fun found => ?_
    cases found with
    | none => exact Respects.throw _
    | some document =>
      refine (Respects.lift _).bind fun updates => (Respects.lift _).bind fun changed => ?_
      exact Respects.closed.writeJson (alike_writeFile _) _
  refine hrewrite.bind fun _ => Respects.modify ?_
  rintro s t ⟨-, live, crawl, hserver, rfl⟩
  exact ⟨by simp, live, crawl, hserver, rfl⟩

theorem alike_changeSettings (change : CrawlChange) : Respects Alike (changeSettings change) := by
  rintro s t ⟨hcache, live, crawl, hserver, rfl⟩
  unfold changeSettings
  rw [bind_of_ok (settings_of_server hserver), bind_of_ok (settings_of_server rfl),
    bind_of_ok (setCrawl_of_server hserver _), bind_of_ok (setCrawl_of_server rfl _)]
  refine Respects.bind (alike_change _) (fun _ => Respects.pure _) _ _ ?_
  exact ⟨hcache, _, requestedCrawl crawl change, rfl, rfl⟩

/-! ## What happens later -/

/-- Work that leaves the settings alone and does not look at the crawl settings of the
server. -/
structure Work where
  run : Surroundings → Surroundings
  same : ∀ s, SameSettings s (run s)
  blind : ∀ s live crawl, s.server = some live →
    run { s with server := some { live with crawl := crawl } } =
      { run s with server := some { live with crawl := crawl } }

/-- What can be done at a server: to ask for other settings, to begin a crawl without
or with a message, and to do other work. -/
inductive Deed where
  | request (change : CrawlChange)
  | crawl
  | watch (settings : Json)
  | work (task : Work)

/-- The settings of the crawl that a deed begins, if it begins any, and what the server
is like then. -/
def Deed.run (s : Surroundings) : Deed → Option Settings.Live × Surroundings
  | .request change => (none, (changeSettings change s).2)
  | .crawl => ((newCrawler none s).1.toOption.map Crawl.Crawler.settings, (newCrawler none s).2)
  | .watch settings =>
    ((crawlerFor settings s).1.toOption.map Crawl.Crawler.settings, (crawlerFor settings s).2)
  | .work task => (none, task.run s)

def laterCrawls (s : Surroundings) : List Deed → List (Option Settings.Live)
  | [] => []
  | deed :: deeds => (deed.run s).1 :: laterCrawls (deed.run s).2 deeds

theorem Alike.run (h : Alike s t) (deed : Deed) :
    (deed.run t).1 = (deed.run s).1 ∧ Alike (deed.run s).2 (deed.run t).2 := by
  cases deed with
  | request change => exact ⟨rfl, (alike_changeSettings change s t h).2⟩
  | crawl =>
    obtain ⟨hresult, hlater⟩ := alike_newCrawler none s t h
    exact ⟨by simp only [Deed.run, hresult], hlater⟩
  | watch settings =>
    obtain ⟨hresult, hlater⟩ := alike_crawlerFor settings s t h
    exact ⟨by simp only [Deed.run, hresult], hlater⟩
  | work task =>
    obtain ⟨hcache, live, crawl, hserver, rfl⟩ := h
    have hsame := task.same s
    refine ⟨rfl, ?_, live, crawl, hsame.server.trans hserver, task.blind s live crawl hserver⟩
    exact fun hshared => hcache (hsame.cache.symm.trans hshared)

theorem Alike.laterCrawls (h : Alike s t) (deeds : List Deed) :
    laterCrawls t deeds = laterCrawls s deeds := by
  induction deeds generalizing s t with
  | nil => rfl
  | cons deed deeds ih =>
    obtain ⟨hresult, hlater⟩ := h.run deed
    rw [Server.laterCrawls, Server.laterCrawls, hresult, ih hlater]

/-! ## A crawl that reads the server's settings -/

def mendStore : Work where
  run s := { s with store := Crawl.Crawler.obliging }
  same _ := ⟨rfl, rfl⟩
  blind _ _ _ _ := rfl

theorem laterCrawls_of_shared (hserver : s.server = some live) (hcache : s.cache = .shared) :
    laterCrawls s [.work mendStore, .crawl] = [none, some live] := by
  have hmended : (mendStore.run s).server = some live := hserver
  obtain ⟨t, hopen⟩ := openGraph_of_obliging hmended rfl
  have hread : t.cache.read? t.server = some live := by
    have hqueried := queried_openGraph hmended
    rw [hopen] at hqueried
    obtain ⟨store, log, rfl⟩ := hqueried
    have hshared : (mendStore.run s).cache = .shared := hcache
    rw [hshared, hmended]
    rfl
  obtain ⟨generator, hmade⟩ :=
    newCrawler_of_current hopen (Settings.current_of_read? hread) none
  simp only [laterCrawls, Deed.run, hmade]
  rfl

/-- The settings at hand are the server's own exactly if the settings file was never
changed. -/
theorem shared_iff_of_reached {first : Settings.Live} {o : Office} (h : Reached first o) :
    o.state.cache = .shared ↔ savesIn o.changes = 0 := by
  have hsource := (ordered_of_reached h).source
  cases hcache : o.state.cache with
  | shared =>
    rw [hcache] at hsource
    exact ⟨fun _ => hsource, fun _ => rfl⟩
  | empty =>
    rw [hcache] at hsource
    exact ⟨nofun, fun hzero => absurd hzero (Nat.ne_of_gt hsource)⟩
  | own =>
    rw [hcache] at hsource
    exact ⟨nofun, fun hzero => absurd hzero (Nat.ne_of_gt hsource.1)⟩

/-- Other crawl settings of the server make no difference to later crawls exactly if they
are not other, or if the settings file was changed before. -/
theorem laterCrawls_eq_iff {saves : Nat} (hshared : s.cache = .shared ↔ saves = 0)
    (hserver : s.server = some live) (crawl : Settings.LiveCrawl) :
    (∀ deeds, laterCrawls { s with server := some { live with crawl := crawl } } deeds =
        laterCrawls s deeds) ↔ crawl = live.crawl ∨ 0 < saves := by
  constructor
  · intro hsame
    by_contra hneither
    obtain ⟨hne, hzero⟩ := not_or.mp hneither
    have hcache : s.cache = .shared := hshared.mpr (by omega)
    have hother := laterCrawls_of_shared
      (s := { s with server := some { live with crawl := crawl } }) rfl hcache
    have hlater := hother.symm.trans ((hsame _).trans (laterCrawls_of_shared hserver hcache))
    simp only [List.cons.injEq, Option.some.injEq, true_and, and_true] at hlater
    exact hne (congrArg Settings.Live.crawl hlater)
  · rintro (rfl | hpos) deeds
    · have hstate : { s with server := some { live with crawl := live.crawl } } = s := by
        rw [← hserver]
      rw [hstate]
    · have hcache : s.cache ≠ .shared := fun h => by
        have := hshared.mp h
        omega
      exact Alike.laterCrawls ⟨hcache, live, crawl, hserver, rfl⟩ deeds

/-- A request for other crawl settings that is accepted fails exactly if the settings file
does not take it up.  The server's own settings are changed all the same: they are shown
as before only if the request asks for what was there, and later crawls have the same
settings as without the request only then, or if the file had been changed before. -/
theorem failed_change {first : Settings.Live} {o : Office} (h : Reached first o)
    {request : Request} {change : CrawlChange} (haccepted : Accepted request change) :
    ∃ live answer t, o.state.server = some live ∧ respond request o.state = (.ok answer, t) ∧
      (answer.status = 500 ↔ ∀ fields, ¬ Settings.Takes o.state.disk "crawler" fields) ∧
      (answer.status = 500 →
        t = { o.state with server := some { live with crawl := requestedCrawl live.crawl change } } ∧
        (∀ asked : Request, Routing.ofRequest asked.method asked.path = .found .settings →
          ((respond asked t).1 = (respond asked o.state).1 ↔
            requestedCrawl live.crawl change = live.crawl)) ∧
        ((∀ deeds, laterCrawls t deeds = laterCrawls o.state deeds) ↔
          requestedCrawl live.crawl change = live.crawl ∨ 0 < savesIn o.changes)) := by
  obtain ⟨live, hserver⟩ : ∃ live, o.state.server = some live := ⟨_, (ordered_of_reached h).server⟩
  have hstatus := (status_of_change hserver (writable_of_accepted haccepted)).1
  refine ⟨live, _, _, hserver, respond_of_accepted haccepted o.state, hstatus, fun hfailed => ?_⟩
  obtain ⟨fault, hchange⟩ := changeSettings_of_not_takes hserver (hstatus.mp hfailed) change
  rw [hchange]
  refine ⟨rfl, fun asked hroute => ?_, ?_⟩
  · rw [respond_of_settings hroute hserver, respond_of_settings hroute rfl]
    simpa using ofValue_eq_iff live.crawl change
  · exact laterCrawls_eq_iff (shared_iff_of_reached h) hserver (requestedCrawl live.crawl change)

/-- A server whose settings file is not where changes are put: the request fails, and both
what is shown and what the next crawl reads are other than before. -/
theorem failed_change_fivePages :
    ∃ o live answer t, Reached Crawl.Crawler.sampleSettings.live o ∧
      Accepted fivePagesRequest fivePages ∧ o.state.server = some live ∧
      respond fivePagesRequest o.state = (.ok answer, t) ∧ answer.status = 500 ∧
      (respond showRequest t).1 ≠ (respond showRequest o.state).1 ∧
      ∃ deeds, laterCrawls t deeds ≠ laterCrawls o.state deeds := by
  have hreached : Reached Crawl.Crawler.sampleSettings.live ⟨openOffice, [], []⟩ :=
    ⟨quietOffice, openOffice, rfl, rfl, .refl⟩
  obtain ⟨live, answer, t, hserver, hrespond, hstatus, hfailed⟩ :=
    failed_change hreached accepted_fivePages
  have hmissing : openOffice.disk.read Settings.filePath =
      .error (.disk .missing "config/config.json") := by with_unfolding_all rfl
  have hnot : ∀ fields, ¬ Settings.Takes openOffice.disk "crawler" fields := by
    rintro fields ⟨⟨text, hread, -⟩, -⟩
    rw [hmissing] at hread
    cases hread
  have hstatus := hstatus.mpr hnot
  obtain ⟨-, hshown, hlater⟩ := hfailed hstatus
  obtain rfl : Crawl.Crawler.sampleSettings.live = live := Option.some.inj hserver
  have hother : requestedCrawl Crawl.Crawler.sampleSettings.live.crawl fivePages ≠
      Crawl.Crawler.sampleSettings.live.crawl := by
    intro h
    have hpages := congrArg Settings.LiveCrawl.maxPages h
    simp [requestedCrawl, fivePages, Settings.live, Settings.Crawl.live,
      Crawl.Crawler.sampleSettings] at hpages
  refine ⟨_, _, answer, t, hreached, accepted_fivePages, hserver, hrespond, hstatus, ?_, ?_⟩
  · exact fun h => hother ((hshown showRequest (by with_unfolding_all rfl)).mp h)
  · by_contra hnone
    rcases hlater.mp (by simpa using hnone) with h | h
    · exact hother h
    · exact absurd h (by decide)

end Server

end Sitecheck
