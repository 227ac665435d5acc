import Sitecheck.Proofs.Crawl.Course
import Sitecheck.Proofs.Settings.Reading
import Sitecheck.Server.Conversation

/-!
# Crawlers for requests

The crawler of a request works with the settings that are at hand, or with those
in the settings file if none are.  The settings that come with a message are put
in place of the server's own, wherever the crawler has its settings from.
-/

namespace Sitecheck.Server

variable {notify : Option (Json → Run Unit)} {crawler : Crawl.Crawler} {changes : Json}
  {result : Except Fault Crawl.Crawler}

open Run

/-! ## What making a crawler reads -/

theorem consults_keyFrom (given : Option String) (name : String) :
    Consults (Embedding.Generator.keyFrom given name) :=
  (consults_environmentValue name).bind fun _ => Consults.pure _

theorem consults_openDigest (given : Option String) :
    Consults (Embedding.Generator.openDigest given) := by
  refine (consults_keyFrom _ _).bind fun key => ?_
  cases key with
  | some => exact Consults.pure _
  | none => exact Consults.throw _

theorem consults_openRemote (given : Option String) :
    Consults (Embedding.Generator.openRemote given) := by
  unfold Embedding.Generator.openRemote
  extract_lets rest
  have hrest : ∀ answer, Consults (rest answer) := by
    intro answer
    refine (consults_keyFrom _ _).bind fun key => ?_
    cases key with
    | some => exact Consults.pure _
    | none => exact Consults.throw _
  intro s t hground
  rw [bind_of_ok (get_apply t), bind_of_ok (get_apply s), hground.package]
  split
  · exact hrest () s t hground
  · exact (Consults.throw _).bind hrest s t hground

theorem consults_default : Consults Embedding.Generator.default := by
  unfold Embedding.Generator.default
  extract_lets fallback
  have hfallback : Consults fallback := by
    refine (consults_keyFrom _ _).bind fun key => ?_
    cases key with
    | some => exact consults_openDigest none
    | none => exact Consults.throw _
  refine (consults_keyFrom _ _).bind fun key => ?_
  cases key with
  | some => exact Consults.closed.orElse (consults_openRemote none) fun _ => hfallback
  | none => exact hfallback

theorem consults_generator? : Consults generator? := by
  refine consults_default.attempt.bind fun result => ?_
  cases result with
  | ok | error => exact Consults.pure _

/-! ## Nobody hears of it -/

theorem offstage_current : Keeps Offstage Settings.current :=
  fun s => ⟨[], Settings.log_current s, by simp⟩

theorem offstage_settings : Keeps Offstage settings := by
  refine Keeps.get.bind fun s => ?_
  cases s.server with
  | some => exact Keeps.pure _
  | none => exact offstage_current

theorem offstage_openGraph : Keeps Offstage openGraph := by
  refine offstage_settings.bind fun live => Keeps.bind ?_ fun _ => ?_
  · refine (offstage_record rfl).bind fun _ => Keeps.get.bind fun s => ?_
    cases s.store.openFault with
    | some => exact Keeps.throw _
    | none => exact Keeps.pure _
  · exact Keeps.forM fun text => (backstage_query text []).offstage.discard

theorem offstage_newCrawler (notify : Option (Json → Run Unit)) :
    Keeps Offstage (newCrawler notify) := by
  refine offstage_openGraph.bind fun _ => consults_generator?.reads.keeps.bind fun generator => ?_
  exact offstage_current.bind fun live => Keeps.pure _

theorem closed_supply {P : (α : Type) → Run α → Prop} (hP : Closed P)
    (hsettings : P Settings.Live settings) (hset : ∀ crawl, P Unit (setCrawl crawl)) (changes : Json) :
    P Unit (supply changes) := by
  unfold supply
  split
  · exact hP.bind hsettings fun live => hP.bind (hP.lift _) hset
  · exact hP.pure _

theorem offstage_supply (changes : Json) : Keeps Offstage (supply changes) :=
  closed_supply Keeps.closed offstage_settings (fun _ _ => ⟨[], rfl, by simp⟩) changes

theorem offstage_crawlerFor (changes : Json) : Keeps Offstage (crawlerFor changes) := by
  refine (offstage_newCrawler _).bind fun crawler => (offstage_supply changes).bind fun _ => ?_
  exact offstage_current.bind fun live => Keeps.pure _

variable {s t u : Surroundings} {live : Settings.Live}

theorem notify_of_newCrawler (h : newCrawler notify s = (.ok crawler, t)) :
    crawler.notify = notify := by
  obtain ⟨_, _, -, h⟩ := exists_of_bind_ok h
  obtain ⟨generator, _, -, h⟩ := exists_of_bind_ok h
  obtain ⟨live, _, -, h⟩ := exists_of_bind_ok h
  cases h
  rfl

theorem notify_of_crawlerFor (h : crawlerFor changes s = (.ok crawler, t)) :
    crawler.notify = some fun update => Run.record (.sent update) := by
  obtain ⟨made, _, hmade, h⟩ := exists_of_bind_ok h
  obtain ⟨_, _, -, h⟩ := exists_of_bind_ok h
  obtain ⟨live, _, -, h⟩ := exists_of_bind_ok h
  cases h
  have hnotify := notify_of_newCrawler hmade
  exact hnotify

/-! ## What becomes of the settings -/

def Queried (s t : Surroundings) : Prop := ∃ store log, t = { s with store := store, log := log }

instance : IsPreorder Surroundings Queried where
  refl s := ⟨s.store, s.log, rfl⟩
  trans s t u hst htu := by
    obtain ⟨store, log, rfl⟩ := hst
    obtain ⟨store', log', rfl⟩ := htu
    exact ⟨store', log', rfl⟩

theorem queried_record (event : Event) : Keeps Queried (record event) :=
  fun s => ⟨s.store, _, rfl⟩

theorem queried_query (text : String) (params : List (String × Json)) :
    Keeps Queried (query text params) := by
  refine (queried_record _).bind fun _ => ?_
  intro s
  rw [bind_of_ok (get_apply s)]
  rcases takeReply? (Text.collapse text) s.store.answers.replies with _ | ⟨answer, others⟩
  · cases s.store.answers.otherwise? s.log with
    | some => exact refl s
    | none =>
      simp only [identifier]
      split
      · exact ⟨_, _, rfl⟩
      · exact refl s
  · exact ⟨_, _, rfl⟩

theorem settings_of_server (h : s.server = some live) : settings s = (.ok live, s) := by
  unfold settings
  rw [bind_of_ok (get_apply s), h]
  rfl

theorem queried_connect (store : Settings.GraphStore) : Keeps Queried (Graph.connect store) := by
  refine Keeps.bind ?_ fun _ => Keeps.forM fun text => (queried_query text []).discard
  refine (queried_record _).bind fun _ => Keeps.get.bind fun s => ?_
  cases s.store.openFault with
  | some => exact Keeps.throw _
  | none => exact Keeps.pure _

theorem queried_openGraph (h : s.server = some live) : Queried s (openGraph s).2 := by
  unfold openGraph
  rw [bind_of_ok (settings_of_server h)]
  exact queried_connect _ s

/-- The settings that lie in the settings file at some time. -/
def OnFile (s : Surroundings) (filed : Settings.Live) : Prop :=
  ∃ w settings, w.disk = s.disk ∧ w.environment = s.environment ∧
    Settings.load none w = (.ok settings, w) ∧ filed = settings.live

/-- The settings are at hand as before, or were taken from the settings file. -/
structure Consulted (s t : Surroundings) : Prop where
  server : t.server = s.server
  cache : t.cache = s.cache ∨ s.cache = .empty ∧ ∃ filed, t.cache = .own filed ∧ OnFile s filed

theorem consulted_of_queried (h : Queried s t) : Consulted s t := by
  obtain ⟨store, log, rfl⟩ := h
  exact ⟨rfl, Or.inl rfl⟩

theorem empty_of_read? (hserver : s.server = some live) (h : s.cache.read? s.server = none) :
    s.cache = .empty := by
  cases hcache : s.cache with
  | empty => rfl
  | shared => simp [hcache, hserver, Settings.Cache.read?] at h
  | own => simp [hcache, Settings.Cache.read?] at h

theorem newCrawler_cases (hserver : s.server = some live) (h : newCrawler notify s = (result, t)) :
    Consulted s t ∧ ∀ crawler, result = .ok crawler →
      t.cache.read? t.server = some crawler.settings := by
  have hqueried := queried_openGraph hserver
  unfold newCrawler at h
  rcases hopen : openGraph s with ⟨fault | ⟨⟩, u⟩ <;> rw [hopen] at hqueried
  · rw [bind_of_error hopen] at h
    cases h
    exact ⟨consulted_of_queried hqueried, by simp⟩
  obtain ⟨store, log, rfl⟩ := hqueried
  rw [bind_of_ok hopen] at h
  have hreads := consults_generator?.reads.apply { s with store := store, log := log }
  cases hgenerator : (generator? { s with store := store, log := log }).1 with
  | error =>
    rw [hgenerator] at hreads
    rw [bind_of_error hreads] at h
    cases h
    exact ⟨⟨rfl, Or.inl rfl⟩, by simp⟩
  | ok =>
    rw [hgenerator] at hreads
    rw [bind_of_ok hreads] at h
    have hasked := Settings.asked_of_current { s with store := store, log := log }
    rw [bind_apply] at h
    generalize Settings.current { s with store := store, log := log } = outcome at h hasked
    cases hasked with
    | atHand known =>
      cases h
      exact ⟨⟨rfl, Or.inl rfl⟩, fun crawler hcrawler => by cases hcrawler; exact known⟩
    | unreadable =>
      cases h
      exact ⟨⟨rfl, Or.inl rfl⟩, by simp⟩
    | @loaded filed result' disk unknown loads gives =>
      have hfile : s.cache = .empty ∧
          ∃ live, Settings.Cache.own filed.live = .own live ∧ OnFile s live :=
        ⟨empty_of_read? hserver unknown, _, rfl, { s with store := store, log := log }, filed,
          rfl, rfl, loads, rfl⟩
      cases result' with
      | error =>
        cases h
        exact ⟨⟨rfl, Or.inr hfile⟩, by simp⟩
      | ok live' =>
        cases h
        refine ⟨⟨rfl, Or.inr hfile⟩, fun crawler hcrawler => ?_⟩
        cases hcrawler
        exact congrArg some (gives live' rfl).symm

def suppliedCrawl (crawl : Settings.LiveCrawl) (changes : Json) :
    Except Fault Settings.LiveCrawl :=
  if changes.isTruthy then changedCrawl crawl changes else .ok crawl

theorem setCrawl_of_server (h : s.server = some live) (crawl : Settings.LiveCrawl) :
    setCrawl crawl s = (.ok (), { s with server := some { live with crawl := crawl } }) := by
  rw [setCrawl, modify_apply, h]
  rfl

theorem supply_of_server (h : s.server = some live) (changes : Json) :
    supply changes s =
      match suppliedCrawl live.crawl changes with
      | .error fault => (.error fault, s)
      | .ok crawl => (.ok (), { s with server := some { live with crawl := crawl } }) := by
  unfold supply suppliedCrawl
  split
  · rw [bind_of_ok (settings_of_server h)]
    cases hchanged : changedCrawl live.crawl changes with
    | error => rfl
    | ok crawl =>
      exact setCrawl_of_server h crawl
  · simp [← h]

/-- The settings of a message go to the server, and the crawler has those that are
at hand then.  Nothing is changed if they cannot be put in place. -/
theorem crawlerFor_cases (hserver : s.server = some live) (h : crawlerFor changes s = (result, t)) :
    (∀ fault, result = .error fault → Consulted s t) ∧
      ∀ crawler, result = .ok crawler →
        t.cache.read? t.server = some crawler.settings ∧
        ∃ crawl, suppliedCrawl live.crawl changes = .ok crawl ∧
          Consulted { s with server := some { live with crawl := crawl } } t := by
  unfold crawlerFor at h
  rcases hmade : newCrawler (some fun update => Run.record (.sent update)) s with
    ⟨fault | crawler, u⟩
  · rw [bind_of_error hmade] at h
    cases h
    exact ⟨fun _ _ => (newCrawler_cases hserver hmade).1, by simp⟩
  obtain ⟨hconsulted, hcrawler⟩ := newCrawler_cases hserver hmade
  have hread := hcrawler crawler rfl
  rw [bind_of_ok hmade, bind_apply, supply_of_server (hconsulted.server.trans hserver)] at h
  cases hsupplied : suppliedCrawl live.crawl changes with
  | error =>
    rw [hsupplied] at h
    cases h
    exact ⟨fun _ _ => hconsulted, by simp⟩
  | ok crawl =>
    rw [hsupplied] at h
    obtain ⟨found, hfound⟩ : ∃ found,
        u.cache.read? (some { live with crawl := crawl }) = some found := by
      cases hcache : u.cache with
      | empty => simp [hcache, Settings.Cache.read?] at hread
      | shared => exact ⟨_, rfl⟩
      | own found => exact ⟨found, rfl⟩
    have hcurrent := Settings.current_of_read?
      (s := { u with server := some { live with crawl := crawl } }) hfound
    dsimp only at h
    rw [bind_of_ok hcurrent] at h
    cases h
    refine ⟨by simp, fun made hmade => ?_⟩
    cases hmade
    exact ⟨hfound, crawl, rfl, rfl, hconsulted.cache⟩

/-- A request to change the settings changes those of the server, and if the
settings file takes them up too, no settings are at hand any more. -/
theorem changeSettings_cases {request : CrawlChange} {result : Except Fault (Except Refusal Json)}
    (hserver : s.server = some live) (h : changeSettings request s = (result, t)) :
    t.server = some { live with crawl := requestedCrawl live.crawl request } ∧
      t.cache = if result.isOk then .empty else s.cache := by
  unfold changeSettings at h
  rw [bind_of_ok (settings_of_server hserver), bind_of_ok (setCrawl_of_server hserver _)] at h
  rcases hchange : Settings.change (.obj [("crawler", request.toJson)])
    { s with server := some { live with crawl := requestedCrawl live.crawl request } } with
    ⟨fault | ⟨⟩, u⟩
  · rw [bind_of_error hchange] at h
    cases h
    exact Settings.change_cases hchange
  · rw [bind_of_ok hchange] at h
    cases h
    exact Settings.change_cases hchange

end Sitecheck.Server
