import Sitecheck.Proofs.Server.Crawler
import Sitecheck.Server.Session

/-!
# Whose settings a crawl reads

Crawls run side by side, and while they do, clients start new ones and change the
settings.  A crawl that began before the settings file was ever changed reads the
server's own settings, and so it reads what any client has put there since.  A
crawl that began later reads what was in the file then, and nothing that a client
sends along is seen by it.
-/

namespace Sitecheck

open Run

/-! ## Visits leave the settings alone -/

structure SameSettings (s t : Surroundings) : Prop where
  server : t.server = s.server
  cache : t.cache = s.cache

instance : IsPreorder Surroundings SameSettings where
  refl _ := ⟨rfl, rfl⟩
  trans _ _ _ hst htu := ⟨htu.server.trans hst.server, htu.cache.trans hst.cache⟩

namespace Crawl.Crawler

variable {crawler : Crawler}

def HandsOff (crawler : Crawler) : Prop :=
  ∀ notify, crawler.notify = some notify → ∀ update, Keeps SameSettings (notify update)

theorem HandsOff.visit (h : crawler.HandsOff) (crawl : Json) (base : String)
    (visited : List String) (url : String) (depth : Nat) (s : Surroundings) :
    SameSettings s (crawler.visit crawl base visited url depth s).2 := by
  have hgoto : Keeps SameSettings
      (goto url crawler.settings.crawl.timeout (some "domcontentloaded")) := by
    intro s
    rw [goto_apply]
    exact ⟨rfl, rfl⟩
  exact keeps_visit (keeps_report h) hgoto (fun _ _ hst => ⟨hst.server, hst.cache⟩) crawl base
    visited depth s

end Crawl.Crawler

namespace Server

variable {crawling : Crawling} {crawler : Crawl.Crawler}

/-! ## Clients side by side -/

/-- What a client did to the settings: it sent some with a message, or it asked
for a change, and the settings file was changed too or not. -/
inductive Change where
  | supplied (settings : Json)
  | requested (request : CrawlChange) (saved : Bool)

namespace Change

def isSaved : Change → Bool
  | supplied _ => false
  | requested _ saved => saved

def apply (crawl : Settings.LiveCrawl) : Change → Settings.LiveCrawl
  | supplied settings =>
    match suppliedCrawl crawl settings with
    | .ok changed => changed
    | .error _ => crawl
  | requested request _ => requestedCrawl crawl request

end Change

def changedBy (crawl : Settings.LiveCrawl) : List Change → Settings.LiveCrawl
  | [] => crawl
  | change :: changes => change.apply (changedBy crawl changes)

def savesIn (changes : List Change) : Nat := changes.countP Change.isSaved

/-- A crawl at work: its crawler as it was made, where it has its settings from,
and the changes up to its begin. -/
structure Crawling where
  crawler : Crawl.Crawler
  source : Settings.Cache
  since : List Change

def Crawling.settings? (crawling : Crawling) (s : Surroundings) : Option Settings.Live :=
  crawling.source.read? s.server

/-- A server with its crawls at work and the changes so far, newest first. -/
structure Office where
  state : Surroundings
  crawls : List Crawling
  changes : List Change

/-- What can happen at a server: a client asks for other settings, or for a crawl
with or without a message, and anyone goes on with work that leaves the settings
alone. -/
inductive Step (o : Office) : Office → Prop
  | requests {request : CrawlChange} {result : Except Fault (Except Refusal Json)}
      {t : Surroundings} (runs : changeSettings request o.state = (result, t)) :
      Step o { o with state := t, changes := .requested request result.isOk :: o.changes }
  | watches {settings : Json} {crawler : Crawl.Crawler} {t : Surroundings}
      (runs : crawlerFor settings o.state = (.ok crawler, t)) :
      Step o { state := t
               crawls := ⟨crawler, t.cache, .supplied settings :: o.changes⟩ :: o.crawls
               changes := .supplied settings :: o.changes }
  | crawls {crawler : Crawl.Crawler} {t : Surroundings}
      (runs : newCrawler none o.state = (.ok crawler, t)) :
      Step o { o with state := t, crawls := ⟨crawler, t.cache, o.changes⟩ :: o.crawls }
  | watchFails {settings : Json} {fault : Fault} {t : Surroundings}
      (runs : crawlerFor settings o.state = (.error fault, t)) : Step o { o with state := t }
  | crawlFails {fault : Fault} {t : Surroundings}
      (runs : newCrawler none o.state = (.error fault, t)) : Step o { o with state := t }
  | works {t : Surroundings} (same : SameSettings o.state t) : Step o { o with state := t }

def Leads : Office → Office → Prop := Relation.ReflTransGen Step

def Reached (first : Settings.Live) (o : Office) : Prop :=
  ∃ s t, start s = (.ok (), t) ∧ t.server = some first ∧ Leads ⟨t, [], []⟩ o

/-- Settings that were in the settings file when it had been changed so often. -/
def FromFile (first : Settings.Live) (o : Office) (saves : Nat) (filed : Settings.Live) : Prop :=
  ∃ earlier, Reached first earlier ∧ Leads earlier o ∧ savesIn earlier.changes = saves ∧
    OnFile earlier.state filed

/-- Where settings come from when the settings file has been changed so often:
from the server at first, and from the file ever after. -/
def Explains (first : Settings.Live) (o : Office) (saves : Nat) : Settings.Cache → Prop
  | .shared => saves = 0
  | .empty => 0 < saves
  | .own filed => 0 < saves ∧ FromFile first o saves filed

variable {first : Settings.Live} {o next : Office}

theorem FromFile.step {saves : Nat} {filed : Settings.Live} (h : FromFile first o saves filed)
    (hstep : Step o next) : FromFile first next saves filed := by
  obtain ⟨earlier, hreached, hleads, hsaves, hfile⟩ := h
  exact ⟨earlier, hreached, hleads.tail hstep, hsaves, hfile⟩

theorem Explains.step {saves : Nat} {source : Settings.Cache} (h : Explains first o saves source)
    (hstep : Step o next) : Explains first next saves source := by
  cases source with
  | empty | shared => exact h
  | own => exact ⟨h.1, h.2.step hstep⟩

/-- What is known of a crawl at work. -/
structure Sound (first : Settings.Live) (o : Office) (crawling : Crawling) : Prop where
  atHand : crawling.source ≠ .empty
  source : Explains first o (savesIn crawling.since) crawling.source
  handsOff : crawling.crawler.HandsOff
  began : ∃ earlier, Leads earlier o ∧ crawling ∈ earlier.crawls ∧
    crawling.settings? earlier.state = some crawling.crawler.settings

theorem Sound.step (h : Sound first o crawling) (hstep : Step o next) :
    Sound first next crawling := by
  obtain ⟨earlier, hleads, hmem, hread⟩ := h.began
  exact ⟨h.atHand, h.source.step hstep, h.handsOff, earlier, hleads.tail hstep, hmem, hread⟩

/-- What holds of a server at all times. -/
structure Ordered (first : Settings.Live) (o : Office) : Prop where
  server : o.state.server = some { first with crawl := changedBy first.crawl o.changes }
  source : Explains first o (savesIn o.changes) o.state.cache
  crawls : ∀ crawling ∈ o.crawls, Sound first o crawling

/-! ## What a step keeps -/

theorem Explains.consulted (h : Explains first o (savesIn o.changes) o.state.cache)
    (hreached : Reached first o) (hstep : Step o next)
    (hcache : next.state.cache = o.state.cache ∨
      o.state.cache = .empty ∧ ∃ filed, next.state.cache = .own filed ∧ OnFile o.state filed) :
    Explains first next (savesIn o.changes) next.state.cache := by
  rcases hcache with hsame | ⟨hempty, filed, hown, hfile⟩
  · rw [hsame]
    exact h.step hstep
  · rw [hempty] at h
    rw [hown]
    exact ⟨h, o, hreached, .single hstep, rfl, hfile⟩

theorem handsOff_of_sent (h : crawler.notify = some fun update => Run.record (.sent update)) :
    crawler.HandsOff := by
  intro notify hnotify update
  rw [h] at hnotify
  cases hnotify
  exact fun s => ⟨rfl, rfl⟩

theorem handsOff_of_none (h : crawler.notify = none) : crawler.HandsOff := by
  intro notify hnotify
  rw [h] at hnotify
  cases hnotify

theorem sound_of_begun (hmem : crawling ∈ o.crawls) (hsource : crawling.source = o.state.cache)
    (hread : o.state.cache.read? o.state.server = some crawling.crawler.settings)
    (hexplains : Explains first o (savesIn crawling.since) o.state.cache)
    (hhands : crawling.crawler.HandsOff) : Sound first o crawling where
  atHand := by
    intro hempty
    rw [← hsource, hempty] at hread
    cases hread
  source := hsource ▸ hexplains
  handsOff := hhands
  began := ⟨o, .refl, hmem, by rw [Crawling.settings?, hsource, hread]⟩

theorem Ordered.step (h : Ordered first o) (hreached : Reached first o) (hstep : Step o next) :
    Ordered first next := by
  have hcrawls : ∀ crawling ∈ o.crawls, Sound first next crawling :=
    fun crawling hmem => (h.crawls crawling hmem).step hstep
  cases hstep with
  | @requests request result t runs =>
    obtain ⟨hserver, hcache⟩ := changeSettings_cases h.server runs
    refine ⟨hserver, ?_, hcrawls⟩
    rw [hcache]
    cases result with
    | error =>
      exact h.source.step (.requests runs)
    | ok =>
      change 0 < savesIn (.requested request true :: o.changes)
      simp [savesIn, Change.isSaved]
  | @watches settings crawler t runs =>
    obtain ⟨hread, crawl, hsupplied, hconsulted⟩ := (crawlerFor_cases h.server runs).2 crawler rfl
    have hsource := h.source.consulted hreached (.watches runs) hconsulted.cache
    refine ⟨?_, hsource, ?_⟩
    · rw [hconsulted.server]
      simp [changedBy, Change.apply, hsupplied]
    · intro crawling hmem
      rcases List.mem_cons.mp hmem with rfl | hold
      · exact sound_of_begun hmem rfl hread hsource (handsOff_of_sent (notify_of_crawlerFor runs))
      · exact hcrawls crawling hold
  | @crawls crawler t runs =>
    obtain ⟨hconsulted, hmade⟩ := newCrawler_cases h.server runs
    have hsource := h.source.consulted hreached (.crawls runs) hconsulted.cache
    refine ⟨hconsulted.server.trans h.server, hsource, ?_⟩
    intro crawling hmem
    rcases List.mem_cons.mp hmem with rfl | hold
    · exact sound_of_begun hmem rfl (hmade crawler rfl) hsource
        (handsOff_of_none (notify_of_newCrawler runs))
    · exact hcrawls crawling hold
  | watchFails runs =>
    have hconsulted := (crawlerFor_cases h.server runs).1 _ rfl
    exact ⟨hconsulted.server.trans h.server,
      h.source.consulted hreached (.watchFails runs) hconsulted.cache, hcrawls⟩
  | crawlFails runs =>
    have hconsulted := (newCrawler_cases h.server runs).1
    exact ⟨hconsulted.server.trans h.server,
      h.source.consulted hreached (.crawlFails runs) hconsulted.cache, hcrawls⟩
  | works same =>
    exact ⟨same.server.trans h.server,
      h.source.consulted hreached (.works same) (Or.inl same.cache), hcrawls⟩

/-! ## What a run keeps -/

theorem ordered_of_reached (h : Reached first o) : Ordered first o := by
  obtain ⟨s, t, hstart, hserver, hleads⟩ := h
  have hshared : t.cache = .shared := by
    obtain ⟨live, u, -, hset⟩ := exists_of_bind_ok hstart
    cases hset
    rfl
  induction hleads with
  | refl => exact ⟨hserver, by simp [hshared, Explains, savesIn], by simp⟩
  | tail hbefore hstep ih => exact ih.step ⟨s, t, hstart, hserver, hbefore⟩ hstep

/-- However clients and crawls take turns, a crawl that began before the settings
file was ever changed reads the server's first settings with all changes of all
clients up to now, and a crawl that began later reads what was in the file then.
What it does with these settings is a step again. -/
theorem settings_of_running_crawl (h : Reached first o) :
    ∀ crawling ∈ o.crawls, ∃ live, crawling.settings? o.state = some live ∧
      (savesIn crawling.since = 0 →
        live = { first with crawl := changedBy first.crawl o.changes }) ∧
      (0 < savesIn crawling.since → FromFile first o (savesIn crawling.since) live) ∧
      (∃ earlier, Leads earlier o ∧ crawling ∈ earlier.crawls ∧
        crawling.settings? earlier.state = some crawling.crawler.settings) ∧
      ∀ crawl base visited url depth,
        Step o { o with state := ({ crawling.crawler with settings := live }.visit crawl base
          visited url depth o.state).2 } := by
  intro crawling hmem
  have hordered := ordered_of_reached h
  have hsound := hordered.crawls crawling hmem
  have hvisit (live : Settings.Live) (crawl : Json) (base : String) (visited : List String)
      (url : String) (depth : Nat) :
      Step o { o with state := ({ crawling.crawler with settings := live }.visit crawl base
        visited url depth o.state).2 } := by
    have hhands : { crawling.crawler with settings := live }.HandsOff := hsound.handsOff
    exact .works (hhands.visit crawl base visited url depth o.state)
  have hsource := hsound.source
  unfold Crawling.settings?
  cases hcase : crawling.source with
  | empty => exact absurd hcase hsound.atHand
  | shared =>
    rw [hcase] at hsource
    simp only [Explains] at hsource
    exact ⟨_, hordered.server, fun _ => rfl, fun hpos => by omega, hcase ▸ hsound.began, hvisit _⟩
  | own filed =>
    rw [hcase] at hsource
    simp only [Explains] at hsource
    exact ⟨filed, rfl, fun hzero => by omega, fun _ => hsource.2, hcase ▸ hsound.began, hvisit _⟩

/-! ## A setting that gets around -/

def quietOffice : Surroundings :=
  { Crawl.Crawler.sampleSurroundings Crawl.Crawler.restlessWeb with
    store := Crawl.Crawler.obliging
    cache := .own Crawl.Crawler.sampleSettings.live }

def openOffice : Surroundings :=
  { quietOffice with server := some Crawl.Crawler.sampleSettings.live, cache := .shared }

def onePage : Json := .obj [("max_pages", .int 1)]

/-- One client sends a limit of one page along, and the crawl of the next client,
who sent nothing, reads it. -/
theorem settings_of_crawl_after_another :
    ∃ o crawling, Reached Crawl.Crawler.sampleSettings.live o ∧ crawling ∈ o.crawls ∧
      crawling.crawler.notify = none ∧
      ∃ live, crawling.settings? o.state = some live ∧ live.crawl.maxPages = .int 1 := by
  have hstart : start quietOffice = (.ok (), openOffice) := rfl
  obtain ⟨first, t, hfirst⟩ := exists_of_isOk
    (show (crawlerFor onePage openOffice).1.isOk = true by decide +kernel)
  have hnext : (newCrawler none (crawlerFor onePage openOffice).2).1.isOk = true := by
    decide +kernel
  rw [hfirst] at hnext
  obtain ⟨second, u, hsecond⟩ := exists_of_isOk hnext
  have hleads : Leads ⟨openOffice, [], []⟩ ⟨u, [⟨second, u.cache, [.supplied onePage]⟩,
      ⟨first, t.cache, [.supplied onePage]⟩], [.supplied onePage]⟩ :=
    .tail (.single (.watches hfirst)) (.crawls hsecond)
  have hreached : Reached Crawl.Crawler.sampleSettings.live _ :=
    ⟨quietOffice, openOffice, hstart, rfl, hleads⟩
  obtain ⟨live, hread, hown, -⟩ := settings_of_running_crawl hreached _ (List.mem_cons_self ..)
  refine ⟨_, _, hreached, List.mem_cons_self .., notify_of_newCrawler hsecond, live, hread, ?_⟩
  rw [hown rfl]
  rfl

end Server

end Sitecheck
