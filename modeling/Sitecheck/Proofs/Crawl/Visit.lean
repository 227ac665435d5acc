import Sitecheck.Proofs.Crawl.Frontier
import Sitecheck.Proofs.Crawl.Page

/-!
# Visits to pages

A visit stores a page and gives the internal links of the page that the browser
shows then, or it stores nothing.  Limits that are whole numbers bound the pages
and the depths of a crawl as numbers are compared.
-/

namespace Sitecheck.Crawl.Crawler

variable {id : Json} {R : Surroundings → Surroundings → Prop} {links : List String}
  {new : Graph.NewPage} {t u : Surroundings}

open Run

/-! ## Limits -/

/-- The settings of a crawler limit a new crawl by whole numbers, and these are
the bounds that they come to. -/
structure Limits (crawler : Crawler) (base : String) (maxPages maxDepth : Int) (bounds : Bounds) :
    Prop where
  pages : crawler.settings.crawl.maxPages = .int maxPages
  depth : crawler.settings.crawl.maxDepth = .int maxDepth
  bounds : ∃ all, crawler.bounds base [] all = .ok bounds

section Limits

variable {crawler : Crawler} {base : String} {maxPages maxDepth : Int} {bounds : Bounds}

theorem bounds_eq_of_int (hpages : crawler.settings.crawl.maxPages = .int maxPages)
    (hdepth : crawler.settings.crawl.maxDepth = .int maxDepth) (all : Nat) :
    crawler.bounds base [] all =
      .ok (.ofMagnitudes all (.ratio maxPages 1) (.ratio maxDepth 1)) := by
  simp [Crawler.bounds, hpages, hdepth, Json.magnitude?]

theorem limits_of_live {settings : Settings} (h : crawler.settings = settings.live)
    (base : String) :
    ∃ bounds, crawler.Limits base settings.crawl.maxPages settings.crawl.maxDepth bounds := by
  have hpages : crawler.settings.crawl.maxPages = .int settings.crawl.maxPages := by rw [h]; rfl
  have hdepth : crawler.settings.crawl.maxDepth = .int settings.crawl.maxDepth := by rw [h]; rfl
  exact ⟨_, hpages, hdepth, 0, bounds_eq_of_int hpages hdepth 0⟩

theorem Limits.exists_eq (h : crawler.Limits base maxPages maxDepth bounds) :
    ∃ all, bounds = .ofMagnitudes all (.ratio maxPages 1) (.ratio maxDepth 1) := by
  obtain ⟨all, hbounds⟩ := h.bounds
  rw [bounds_eq_of_int h.pages h.depth] at hbounds
  cases hbounds
  exact ⟨all, rfl⟩

theorem Limits.limit_eq (h : crawler.Limits base maxPages maxDepth bounds) :
    bounds.limit = maxPages.toNat := by
  obtain ⟨all, rfl⟩ := h.exists_eq
  simp [Bounds.ofMagnitudes, pageLimit]

theorem Limits.tooDeep_iff (h : crawler.Limits base maxPages maxDepth bounds) (depth : Nat) :
    bounds.tooDeep depth = true ↔ maxDepth < depth := by
  obtain ⟨all, rfl⟩ := h.exists_eq
  simp [Bounds.ofMagnitudes, Json.Magnitude.isBelow]

theorem Limits.admits_iff (h : crawler.Limits base maxPages maxDepth bounds) (depth : Nat) :
    bounds.admits depth = true ↔ (depth : Int) ≤ maxDepth := by
  obtain ⟨all, rfl⟩ := h.exists_eq
  simp only [Bounds.ofMagnitudes, Json.Magnitude.exceeds, Json.Magnitude.is, Bool.or_eq_true,
    decide_eq_true_eq, beq_iff_eq]
  omega

theorem Limits.expands_iff (h : crawler.Limits base maxPages maxDepth bounds) (depth : Nat) :
    crawler.expands depth = true ↔ (depth : Int) < maxDepth := by
  simp [expands, h.depth, Json.magnitude?, Json.Magnitude.exceeds]

end Limits

/-! ## The links of a visit -/

variable {crawler : Crawler} {crawl : Json} {base url : String} {visited : List String}
  {depth : Nat} {s t : Surroundings}

def linkTexts (page : WebPage) : List String :=
  match hrefTexts page with
  | .ok hrefs => hrefs
  | .error _ => []

def followed (crawler : Crawler) (depth : Nat) (page : WebPage) : List String :=
  if crawler.expands depth then linkTexts page else []

@[simp] theorem internalLinks_nil (base : String) (visited : List String) :
    internalLinks base visited [] = [] := by
  simp [internalLinks, distinctSorted]

theorem linksOf_apply (base : String) (visited : List String) (s : Surroundings) :
    linksOf base visited s =
      ((hrefTexts s.browser.current).map (internalLinks base visited), s) := by
  unfold linksOf
  have hpage : Run.currentPage s = (.ok s.browser.current, s) := rfl
  rw [bind_of_ok hpage]
  cases hrefs : hrefTexts s.browser.current <;> rfl

theorem followLinks_apply (crawler : Crawler) (base : String) (visited : List String) (depth : Nat)
    (s : Surroundings) :
    ∃ result t, crawler.followLinks base visited depth s = (result, t) ∧
      Settled Event.IsHidden s t ∧
      (match result with
        | .ok links => links
        | .error _ => []) = internalLinks base visited (crawler.followed depth s.browser.current) := by
  have hpause (links : List String) :
      (do let _ ← Run.attempt crawler.pause; return links : Run (List String)) s =
        (.ok links, (crawler.pause s).2) := rfl
  unfold followLinks followed linkTexts
  cases hexpands : crawler.expands depth with
  | false =>
    refine ⟨_, _, hpause [], settled_pause crawler s, ?_⟩
    simp
  | true =>
    have hlinks := linksOf_apply base visited s
    cases hrefs : hrefTexts s.browser.current with
    | error fault =>
      rw [hrefs] at hlinks
      exact ⟨.error fault, s, bind_of_error hlinks, refl s, by simp⟩
    | ok =>
      rw [hrefs] at hlinks
      exact ⟨_, _, (bind_of_ok hlinks).trans (hpause _), settled_pause crawler s, rfl⟩

theorem visit_of_error {fault : Fault}
    (h : crawler.storePage crawl url (.ofNat depth) visited.length s = (.error fault, t)) :
    crawler.visit crawl base visited url depth s = (none, t) := by
  have hpage : crawler.visitPage crawl base visited url depth s = (.ok none, t) := by
    unfold visitPage
    rw [bind_of_ok (attempt_apply _ _), h]
    rfl
  rw [visit, hpage]

theorem visit_of_ok (base : String)
    (h : crawler.storePage crawl url (.ofNat depth) visited.length s = (.ok id, t)) :
    ∃ u, crawler.visit crawl base visited url depth s =
        (some (id, internalLinks base (visited ++ [url])
          (crawler.followed depth t.browser.current)), u) ∧
      Settled Event.IsHidden t u := by
  obtain ⟨result, u, hfollow, hstays, hlinks⟩ :=
    followLinks_apply crawler base (visited ++ [url]) depth t
  refine ⟨u, ?_, hstays⟩
  have hpage : crawler.visitPage crawl base visited url depth s =
      (.ok (some (id, internalLinks base (visited ++ [url])
        (crawler.followed depth t.browser.current))), u) := by
    unfold visitPage
    rw [bind_of_ok (attempt_apply _ _), h]
    simp only
    rw [bind_of_ok (attempt_apply _ _), hfollow, ← hlinks]
    cases result <;> rfl
  rw [visit, hpage]

theorem visit_keeps (hstore : R s (crawler.storePage crawl url (.ofNat depth) visited.length s).2)
    (hinner : ∀ t u, R s t → Settled Event.IsHidden t u → R s u) :
    R s (crawler.visit crawl base visited url depth s).2 := by
  rcases hresult : crawler.storePage crawl url (.ofNat depth) visited.length s with ⟨fault | id, t⟩
  · rw [hresult] at hstore
    rw [visit_of_error hresult]
    exact hstore
  · rw [hresult] at hstore
    obtain ⟨u, hvisit, hstays⟩ := visit_of_ok base hresult
    rw [hvisit]
    exact hinner t u hstore hstays

theorem keeps_report [IsPreorder Surroundings R]
    (h : ∀ notify, crawler.notify = some notify → ∀ update, Keeps R (notify update))
    (update : List (String × Json)) : Keeps R (crawler.report update) := by
  unfold report
  cases hnotify : crawler.notify with
  | none => exact Keeps.pure _
  | some notify => exact h notify hnotify _

theorem keeps_visit [IsPreorder Surroundings R]
    (hreport : ∀ update, Keeps R (crawler.report update))
    (hgoto : Keeps R (goto url crawler.settings.crawl.timeout (some "domcontentloaded")))
    (hbackstage : ∀ s t, Settled Event.IsBackstage s t → R s t) (crawl : Json) (base : String)
    (visited : List String) (depth : Nat) (s : Surroundings) :
    R s (crawler.visit crawl base visited url depth s).2 := by
  have hinner (s t : Surroundings) (hst : Settled Event.IsInner s t) : R s t :=
    hbackstage s t (hst.mono fun _ hevent => hevent.toIsBackstage)
  have hload (depth : Json) (count : Nat) : Keeps R (crawler.loadPage url depth count) := by
    refine (hreport _).bind fun _ => hgoto.attempt.bind fun result => ?_
    cases result with
    | ok => exact Keeps.pure _
    | error => exact (hreport _).bind fun _ => Keeps.throw _
  have hstore (depth : Json) (count : Nat) : Keeps R (crawler.storePage crawl url depth count) := by
    refine (hload depth count).bind fun _ => ?_
    refine ((settled_readPage crawler crawl url depth).mono hinner).bind fun read => ?_
    refine ((Graph.settled_addPage read.1).mono hbackstage).bind fun page => ?_
    refine (hreport _).bind fun _ => ?_
    exact ((settled_storeElements crawler page).inner.mono hinner).attempt.bind fun _ => Keeps.pure _
  exact visit_keeps (hstore _ _ s) fun t u hst htu => IsTrans.trans _ _ _ hst (hinner t u htu.inner)

theorem links_of_visit (h : crawler.visit crawl base visited url depth s = (some (id, links), t)) :
    ∃ hrefs, links = internalLinks base (visited ++ [url]) hrefs := by
  rcases hstore : crawler.storePage crawl url (.ofNat depth) visited.length s with ⟨fault | id', u⟩
  · rw [visit_of_error hstore] at h
    cases h
  · obtain ⟨v, hvisit, -⟩ := visit_of_ok base hstore
    rw [hvisit] at h
    cases h
    exact ⟨_, rfl⟩

theorem isClean_of_visit
    (h : crawler.visit crawl base visited url depth s = (some (id, links), t)) :
    ∀ link ∈ links, IsClean link := by
  obtain ⟨hrefs, rfl⟩ := links_of_visit h
  intro link hlink
  exact isClean_of_mem_internalLinks hlink

/-! ## Pages that the graph takes up -/

def Polite (crawler : Crawler) : Prop :=
  ∀ notify, crawler.notify = some notify → ∀ update s, (notify update s).1 = .ok ()

theorem Polite.report_apply (h : crawler.Polite) (update : List (String × Json))
    (s : Surroundings) : crawler.report update s = (.ok (), (crawler.report update s).2) := by
  refine Prod.ext ?_ rfl
  unfold Crawler.report
  cases hnotify : crawler.notify with
  | none => rfl
  | some notify => exact h notify hnotify _ s

/-- The page that the graph is asked to take up, and the surroundings then. -/
def asked? (crawler : Crawler) (crawl : Json) (url : String) (depth count : Nat)
    (s : Surroundings) : Option (Graph.NewPage × Surroundings) :=
  match (do
    crawler.loadPage url (.ofNat depth) count
    crawler.readPage crawl url (.ofNat depth) : Run (Graph.NewPage × Nat)) s with
  | (.ok (new, _), t) => some (new, t)
  | (.error _, _) => none

theorem asked?_of_ok {count length : Nat}
    (hload : crawler.loadPage url (.ofNat depth) count s = (.ok (), t))
    (hread : crawler.readPage crawl url (.ofNat depth) t = (.ok (new, length), u)) :
    crawler.asked? crawl url depth count s = some (new, u) := by
  simp [asked?, bind_of_ok hload, hread]

/-- What follows when a page has been taken up cannot undo it. -/
theorem storePage_of_asked {count : Nat} (hpolite : crawler.Polite)
    (hasked : crawler.asked? crawl url depth count s = some (new, t))
    (hadd : Graph.addPage new t = (.ok id, u)) :
    ∃ update, crawler.storePage crawl url (.ofNat depth) count s =
      (.ok id, ((if crawler.isSimple then addLinks id else addElements id)
        (crawler.report update u).2).2) := by
  unfold asked? at hasked
  rcases hload : crawler.loadPage url (.ofNat depth) count s with ⟨fault | ⟨⟩, v⟩
  · rw [bind_of_error hload] at hasked
    cases hasked
  rw [bind_of_ok hload] at hasked
  rcases hread : crawler.readPage crawl url (.ofNat depth) v with ⟨fault | ⟨new', length⟩, w⟩
  · rw [hread] at hasked
    cases hasked
  rw [hread] at hasked
  cases hasked
  unfold storePage
  rw [bind_of_ok hload, bind_of_ok hread]
  simp only
  rw [bind_of_ok hadd, bind_of_ok (hpolite.report_apply _ _), bind_of_ok (attempt_apply _ _)]
  exact ⟨_, rfl⟩

/-! ## A sample -/

def sampleSettings : Settings :=
  { assistant := ⟨"anthropic", "claude", "key", 4096, .zero false⟩
    crawl :=
      { maxDepth := 3, maxPages := 50, timeout := 30000, screenshot := false, viewport := []
        pageDelay := 300, skipEmbeddings := true }
    runner := ⟨"chromium", true, true, true, "only-on-failure"⟩
    storage := ⟨"artifacts", "maps", "specs", "reports"⟩
    graphStore := ⟨"neo4j://localhost:7687", "neo4j", "secret"⟩
    server := ⟨"0.0.0.0", 8000, []⟩ }

def sample : Crawler :=
  { settings := sampleSettings.live
    generator := none
    notify := some fun update => Run.record (.progress update) }

theorem sample_limits (base : String) :
    ∃ bounds, sample.Limits base 50 ((3 : Nat) : Int) bounds := by
  have hsettings : sample.settings = sampleSettings.live := rfl
  exact limits_of_live hsettings base

theorem sample_polite : sample.Polite := by
  intro notify hnotify update s
  cases hnotify
  rfl

def sampleSurroundings (web : Web) : Surroundings :=
  { disk := ⟨[], .directory []⟩, environment := [], now := ⟨0, ""⟩, tick := 1, uuids := []
    loopTimes := [], replies := [], embeddingReplies := [], embeddingPackage := false
    store := ⟨none, .ofReplies [], 0⟩, programs := [], browser := ⟨none, web, .blank⟩
    server := none, cache := .empty, silence := .settings, tools := "", log := [] }

def framedSettings : Settings :=
  { sampleSettings with
    crawl := { sampleSettings.crawl with viewport := [("width", 1280), ("height", 720)] } }

def obliging : Store :=
  ⟨none, ⟨[], fun _ => some (.ok [.obj [("crawl_id", .str "crawl"), ("page_id", .str "page")]])⟩, 0⟩

def restlessWeb : Web where
  page? log url :=
    if log.length % 2 = 0 then none
    else some { WebPage.blank with hrefs := .arr [.str (url ++ "/" ++ toString log.length)] }
  size := 0

end Sitecheck.Crawl.Crawler
