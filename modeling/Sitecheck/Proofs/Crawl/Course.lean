import Sitecheck.Proofs.Crawl.Visit

/-!
# The course of a crawl

A crawl is prepared, walks its frontier and is brought to an end.  Only the walk
sends the browser anywhere and reports progress: all else happens offstage.
-/

namespace Sitecheck

abbrev Run.Offstage : Surroundings → Surroundings → Prop :=
  Run.Logs fun event => event.isOffstage = true

abbrev Run.Backstage : Surroundings → Surroundings → Prop := Run.Logs Event.IsBackstage

namespace Run

variable {s t : Surroundings}

theorem Logs.offstage (h : Backstage s t) : Offstage s t :=
  Logs.mono h fun _ hevent => hevent.offstage

theorem Keeps.offstage {α : Type} {action : Run α} (h : Keeps Backstage action) :
    Keeps Offstage action :=
  h.mono fun _ _ hst => hst.offstage

theorem offstage_record {event : Event} (h : event.isOffstage = true) :
    Keeps Offstage (record event) :=
  logs_record h

theorem backstage_query (text : String) (params : List (String × Json)) :
    Keeps Backstage (query text params) := by
  have hsettled : Keeps (Settled Event.IsBackstage) (query text params) := settled_query ⟨rfl, rfl⟩
  exact hsettled.logs

theorem backstage_querySingle (text : String) (params : List (String × Json)) :
    Keeps Backstage (querySingle text params) :=
  (backstage_query text params).bind fun _ => Keeps.pure _

theorem Settled.backstage (h : Settled Event.IsHidden s t) : Backstage s t :=
  Logs.mono h.log fun _ hevent => hevent.toIsBackstage

theorem Settled.offstage (h : Settled Event.IsHidden s t) : Offstage s t :=
  h.backstage.offstage

theorem hidden_launchBrowser : Keeps (Settled Event.IsHidden) launchBrowser := by
  refine (settled_record ⟨⟨⟨rfl, rfl⟩, ⟨rfl, rfl⟩⟩, rfl⟩).bind fun _ => Keeps.get.bind fun s => ?_
  cases s.browser.launchFault with
  | some => exact Keeps.throw _
  | none => exact Keeps.pure _

end Run

open Run

theorem Crawl.hidden_linkHierarchy (pages : Stored) (base : String) :
    Keeps (Settled Event.IsHidden) (linkHierarchy pages base) := by
  refine Keeps.forM fun link => Keeps.discard (Keeps.attempt ?_)
  exact (settled_query (Graph.isHidden_query (by simp [Graph.otherQueries]) _)).discard

namespace Crawl.Crawler

variable {crawler : Crawler} {base : String} {before : List String} {s t u : Surroundings}
  {crawl : Json} {bounds : Bounds}

/-! ## Preparations -/

theorem hidden_prepare (crawler : Crawler) (base : String) (before : List String) :
    Keeps (Settled Event.IsHidden) (crawler.prepare base before) := by
  refine Keeps.bind ((Keeps.lift _).bind fun split => ?_) fun opened =>
    (Keeps.lift _).bind fun bounds => Keeps.pure _
  have hcreate : Keeps (Settled Event.IsHidden) (Graph.createCrawl (.str base) (.str split.host)) :=
    (settled_querySingle (Graph.isHidden_query (by simp [Graph.otherQueries]) _)).bind fun _ => Keeps.lift _
  refine hcreate.bind fun crawl => hidden_launchBrowser.bind fun _ => ?_
  refine (Keeps.lift _).bind fun viewport => Keeps.bind ?_ fun _ => ?_
  · exact settled_record ⟨⟨⟨rfl, rfl⟩, ⟨rfl, rfl⟩⟩, rfl⟩
  exact Keeps.get.bind fun s => Keeps.pure _

theorem split_of_prepare (h : crawler.prepare base before s = (.ok (crawl, bounds), t)) :
    ∃ split, Url.Split.ofText base = .ok split := by
  obtain ⟨opened, _, hopened, -⟩ := exists_of_bind_ok h
  obtain ⟨split, hsplit, -⟩ := exists_of_lift_ok hopened
  exact ⟨split, hsplit⟩

theorem bounds_of_prepare (h : crawler.prepare base before s = (.ok (crawl, bounds), t)) :
    ∃ all, crawler.bounds base before all = .ok bounds := by
  obtain ⟨⟨crawl', all⟩, _, -, h⟩ := exists_of_bind_ok h
  obtain ⟨bounds', hbounds, h⟩ := exists_of_lift_ok h
  cases h
  exact ⟨all, hbounds⟩

theorem limit_of_bounds {all : Nat} {maxPages : Int}
    (h : crawler.bounds base before all = .ok bounds)
    (hpages : crawler.settings.crawl.maxPages = .int maxPages) : bounds.limit = maxPages.toNat := by
  have hlimit (depth : Json.Magnitude) :
      (Bounds.ofMagnitudes all (.ratio maxPages 1) depth).limit = maxPages.toNat := by
    simp [Bounds.ofMagnitudes, pageLimit]
  simp only [Crawler.bounds, hpages, Json.magnitude?] at h
  split at h
  · contradiction
  · next hsome hdepth =>
    cases hsome
    cases h
    exact hlimit _
  · next hsome hdepth =>
    cases hsome
    split at h
    · contradiction
    · cases h
      exact hlimit _

/-! ## The whole crawl -/

/-- What a crawl leaves behind: it is given up while it is prepared, or it walks
its frontier to the end. -/
inductive Course (crawler : Crawler) (base : String) (before : List String)
    (s u : Surroundings) : Prop
  | halted {fault : Fault} (failed : crawler.prepare base before s = (.error fault, u))
  | walked {crawl : Json} {bounds : Bounds} {t : Surroundings}
      (prepared : crawler.prepare base before s = (.ok (crawl, bounds), t))
      (ends : Settled Event.IsHidden
        ((start base before t).walk bounds base (crawler.visit crawl base)).state u)

theorem course_of_crawl (crawler : Crawler) (url : String) (before : List String) :
    Keeps (crawler.Course (Text.trimEnd (· = '/') url) before.eraseDups)
      (crawler.crawl url before) := by
  intro s
  unfold Crawler.crawl
  rcases hprepare : crawler.prepare (Text.trimEnd (· = '/') url) before.eraseDups s with
    ⟨fault | ⟨crawl, bounds⟩, t⟩
  · rw [bind_of_error hprepare]
    exact .halted hprepare
  · rw [bind_of_ok hprepare]
    refine .walked hprepare ?_
    simp only
    rw [bind_of_ok (modifyGet_apply _ t)]
    -- what follows the walk can fail, but it stays hidden
    refine Keeps.bind (hidden_linkHierarchy _ _) (fun _ => ?_) _
    refine (settled_record ⟨⟨⟨rfl, rfl⟩, ⟨rfl, rfl⟩⟩, rfl⟩).bind fun _ => ?_
    refine Keeps.bind (Keeps.discard ?_) fun _ => Keeps.pure _
    exact settled_query (Graph.isHidden_query (by simp [Graph.otherQueries]) _)

variable {R : Surroundings → Surroundings → Prop} [IsPreorder Surroundings R]

theorem keeps_walk
    (hvisit : ∀ visited url depth s, R s (crawler.visit crawl base visited url depth s).2)
    (bounds : Bounds) (f : Frontier Surroundings) :
    R f.state (f.walk bounds base (crawler.visit crawl base)).state :=
  (Frontier.leads_walk bounds base (crawler.visit crawl base) f).related hvisit

theorem keeps_crawl
    (hvisit : ∀ crawl base visited url depth s, R s (crawler.visit crawl base visited url depth s).2)
    (hhidden : ∀ s t, Settled Event.IsHidden s t → R s t) (url : String) (before : List String) :
    Keeps R (crawler.crawl url before) := by
  intro s
  cases course_of_crawl crawler url before s with
  | halted failed => exact hhidden _ _ ((hidden_prepare crawler _ _).of_eq failed)
  | @walked crawl bounds t prepared ends =>
    have hbegins := hhidden _ _ ((hidden_prepare crawler _ _).of_eq prepared)
    have hwalk := keeps_walk (hvisit crawl (Text.trimEnd (· = '/') url)) bounds
      (start (Text.trimEnd (· = '/') url) before.eraseDups t)
    exact IsTrans.trans _ _ _ hbegins (IsTrans.trans _ _ _ hwalk (hhidden _ _ ends))

end Crawl.Crawler

end Sitecheck
