import Mathlib.Data.List.Perm.Subperm
import Sitecheck.Proofs.Crawl.Invariant
import Sitecheck.Proofs.Crawl.Static

/-!
# A crawl stores what can be reached

On a site that does not change, and with a graph that takes up every page, a
crawl that ends before its limit has stored exactly the pages that can be
reached from the base through pages that can be loaded.
-/

namespace Sitecheck.Crawl

open Run

/-- For each address that can be loaded, the links of its page. -/
abbrev Site := String → Option (List String)

/-! ## What can be reached -/

/-- A page within the depth links to an address below the base. -/
def Successor (site : Site) (base : String) (maxDepth : Nat) (url next : String) : Prop :=
  depth url base < maxDepth ∧ ∃ hrefs, site url = some hrefs ∧ ∃ href ∈ hrefs,
    href ≠ base ∧ base.toList <+: href.toList ∧ next = clean href ∧ next ≠ base ∧
      depth next base ≤ maxDepth

/-- The addresses that can be loaded after a chain of others that can. -/
inductive Reachable (site : Site) (base : String) (maxDepth : Nat) : String → Prop
  | base (loads : (site base).isSome) : Reachable site base maxDepth base
  | link {url next : String} (reached : Reachable site base maxDepth url)
      (leads : Successor site base maxDepth url next) (loads : (site next).isSome) :
      Reachable site base maxDepth next

/-! ## One round on a site that does not change -/

/-- A new crawl of a site that does not change.  Whenever the crawl asks the
graph to store a page, the graph does. -/
structure Crawler.OnStaticSite (crawler : Crawler) (crawl : Json) (base : String)
    (maxPages : Int) (maxDepth : Nat) (bounds : Bounds) (site : Site) (s : Surroundings) :
    Prop where
  limits : crawler.Limits base maxPages maxDepth bounds
  quiet : crawler.Quiet
  shows : ∀ log url, s.browser.web.links? log url = site url
  accepted : ∀ f url queue new t,
    Frontier.Leads bounds base (crawler.visit crawl base) (Crawler.start base [] s) f →
    f.queue = url :: queue →
    crawler.asked? crawl url (depth url base) f.visited.length f.state = some (new, t) →
    ∃ id, (Graph.addPage new t).1 = .ok id

def followedLinks (base : String) (maxDepth : Nat) (visited : List String) (url : String)
    (hrefs : List String) : List String :=
  internalLinks base visited (if depth url base < maxDepth then hrefs else [])

/-- What one round does on such a site. -/
inductive Frontier.Explores (site : Site) (base : String) (maxDepth : Nat) (bounds : Bounds)
    (f g : Frontier Surroundings) : Prop
  | missing {url : String} {queue : List String} (waits : f.queue = url :: queue)
      (lost : site url = none) (queue_eq : g.queue = queue) (visited_eq : g.visited = f.visited)
      (pages_eq : pagesAddedIn g.state.log = pagesAddedIn f.state.log)
  | found {url : String} {queue hrefs : List String} (waits : f.queue = url :: queue)
      (loads : site url = some hrefs)
      (queue_eq : g.queue = enqueue bounds base (f.visited ++ [url]) queue
        (followedLinks base maxDepth (f.visited ++ [url]) url hrefs))
      (visited_eq : g.visited = f.visited ++ [url])
      (pages_eq : pagesAddedIn g.state.log = url :: pagesAddedIn f.state.log)

section

variable {crawler : Crawler} {crawl : Json} {base : String} {maxPages : Int} {maxDepth : Nat}
  {bounds : Bounds} {site : Site} {s : Surroundings}
variable {url : String} {visited hrefs : List String}

theorem Crawler.OnStaticSite.explores
    (h : crawler.OnStaticSite crawl base maxPages maxDepth bounds site s)
    {f g : Frontier Surroundings}
    (hleads : Frontier.Leads bounds base (crawler.visit crawl base) (Crawler.start base [] s) f)
    (hround : Frontier.Round bounds base (crawler.visit crawl base) f g) :
    f.Explores site base maxDepth bounds g := by
  have hgrows := h.quiet.grows_of_leads hleads
  have hshows (log : List Event) (url : String) :
      f.state.browser.web.links? log url = site url := by
    rw [hgrows.web]
    exact h.shows log url
  have hmissing (url : String) (hlost : site url = none) :=
    h.quiet.visit_of_missing crawl base f.visited (depth url base)
      (fun log => (hshows log url).trans hlost)
  have hfound (url : String) (queue hrefs : List String) (hwaits : f.queue = url :: queue)
      (hloads : site url = some hrefs) :=
    h.quiet.visit_of_found crawl base f.visited (depth url base)
      (fun log => (hshows log url).trans hloads)
      (fun new t => h.accepted f url queue new t hleads hwaits)
  have hexpands (depth : Nat) : crawler.expands depth = true ↔ depth < maxDepth := by
    rw [h.limits.expands_iff]
    omega
  -- a visit is settled by what the site has, so the other outcomes of a round are ruled out
  cases hround with
  | @skipped url queue waits room skips =>
    have horderly := Crawler.orderly_of_leads h.limits hleads
    rw [h.limits.skips_eq_false horderly (by simp [waits])] at skips
    contradiction
  | @failed url queue t waits room skips visits =>
    cases hsite : site url with
    | none =>
      obtain ⟨u, hvisit, hpasses⟩ := hmissing url hsite
      rw [hvisit] at visits
      cases visits
      exact .missing waits hsite rfl rfl (pagesAddedIn_of_grows hpasses)
    | some hrefs =>
      obtain ⟨id, u, hvisit, -⟩ := hfound url queue hrefs waits hsite
      rw [hvisit] at visits
      cases visits
  | @stored url queue id links t waits room skips visits =>
    cases hsite : site url with
    | none =>
      obtain ⟨u, hvisit, -⟩ := hmissing url hsite
      rw [hvisit] at visits
      cases visits
    | some hrefs =>
      obtain ⟨id', u, hvisit, hpages⟩ := hfound url queue hrefs waits hsite
      rw [hvisit] at visits
      cases visits
      refine .found waits hsite ?_ rfl hpages
      simp only [followedLinks, hexpands]

/-! ## Links and successors -/

theorem Reachable.loads (h : Reachable site base maxDepth url) : (site url).isSome := by
  cases h with
  | base loads => exact loads
  | link reached leads loads => exact loads

theorem successor_of_mem_followedLinks {link : String}
    (htrimmed : Text.trimEnd (· = '/') base = base) (hbegan : base ∈ visited)
    (hloads : site url = some hrefs) (hlink : link ∈ followedLinks base maxDepth visited url hrefs)
    (hdepth : depth link base ≤ maxDepth) : Successor site base maxDepth url link := by
  obtain ⟨href, hhref, hstarts, hnew, rfl, hne⟩ := (mem_internalLinks _ _ _ _).mp hlink
  split at hhref
  · next hwithin =>
    rw [htrimmed] at hne
    refine ⟨hwithin, hrefs, hloads, href, hhref, ?_, (Text.startsWith_iff _ _).mp hstarts, rfl,
      hne, hdepth⟩
    rintro rfl
    exact hnew hbegan
  · simp at hhref

theorem mem_followedLinks_of_successor {next : String}
    (htrimmed : Text.trimEnd (· = '/') base = base)
    (hclean : ∀ known ∈ visited, known ≠ base → IsClean known) (hloads : site url = some hrefs)
    (hnext : Successor site base maxDepth url next) :
    next ∈ visited ∨ next ∈ followedLinks base maxDepth visited url hrefs := by
  obtain ⟨hwithin, hrefs', hloads', href, hhref, hhrefNe, hstarts, rfl, hne, -⟩ := hnext
  rw [hloads] at hloads'
  cases hloads'
  by_cases hknown : href ∈ visited
  · left
    rwa [clean_eq_self_of_isClean (hclean href hknown hhrefNe)]
  · right
    rw [followedLinks, if_pos hwithin, mem_internalLinks, htrimmed]
    exact ⟨href, hhref, (Text.startsWith_iff _ _).mpr hstarts, hknown, rfl, hne⟩

/-! ## The invariant -/

/-- What was visited can be reached, and what can be reached from there was
visited, waits, or cannot be loaded. -/
structure Frontier.Explored (site : Site) (base : String) (maxDepth : Nat)
    (before : List String) (f : Frontier Surroundings) : Prop where
  visitedReachable : ∀ url ∈ f.visited, Reachable site base maxDepth url
  queueFound : ∀ url ∈ f.queue,
    url = base ∨ ∃ known ∈ f.visited, Successor site base maxDepth known url
  began : base ∈ f.visited ∨
    f.visited = [] ∧ (∀ url ∈ f.queue, url = base) ∧ (base ∈ f.queue ∨ site base = none)
  closed : ∀ url ∈ f.visited, ∀ next, Successor site base maxDepth url next →
    next ∈ f.visited ∨ next ∈ f.queue ∨ site next = none
  pages : pagesAddedIn f.state.log = f.visited.reverse ++ before

theorem Crawler.explored_start (site : Site) (base : String) (maxDepth : Nat) (s : Surroundings) :
    (Crawler.start base [] s).Explored site base maxDepth (pagesAddedIn s.log) where
  visitedReachable := by simp [start]
  queueFound := by simp [start]
  began := by simp [start]
  closed := by simp [start]
  pages := by simp [start]

namespace Frontier.Explored

variable {before : List String} {f g : Frontier Surroundings}
variable {url : String} {queue : List String}

theorem missing (h : f.Explored site base maxDepth before) (hwaits : f.queue = url :: queue)
    (hlost : site url = none) (hqueue : g.queue = queue) (hvisited : g.visited = f.visited)
    (hpages : pagesAddedIn g.state.log = pagesAddedIn f.state.log) :
    g.Explored site base maxDepth before := by
  have hsub : ∀ other ∈ queue, other ∈ f.queue := by
    intro other hother
    simp [hwaits, hother]
  -- an address that is taken off the queue here cannot be loaded
  have hleft : ∀ other ∈ f.queue, other ∈ queue ∨ site other = none := by
    intro other hother
    rw [hwaits] at hother
    rcases List.mem_cons.mp hother with rfl | hother
    · exact Or.inr hlost
    · exact Or.inl hother
  refine ⟨?_, ?_, ?_, ?_, ?_⟩
  · rw [hvisited]
    exact h.visitedReachable
  · rw [hvisited, hqueue]
    exact fun other hother => h.queueFound other (hsub other hother)
  · rw [hvisited, hqueue]
    rcases h.began with hbegan | ⟨hnone, honly, hbase⟩
    · exact Or.inl hbegan
    · refine Or.inr ⟨hnone, fun other hother => honly other (hsub other hother), ?_⟩
      rcases hbase with hbase | hbase
      · exact hleft base hbase
      · exact Or.inr hbase
  · rw [hvisited, hqueue]
    intro known hknown next hnext
    rcases h.closed known hknown next hnext with hdone | hwait | hnone
    · exact Or.inl hdone
    · exact Or.inr (hleft next hwait)
    · exact Or.inr (Or.inr hnone)
  · rw [hpages, hvisited]
    exact h.pages

theorem reachable_of_waiting (h : f.Explored site base maxDepth before) (hurl : url ∈ f.queue)
    (hloads : (site url).isSome) : Reachable site base maxDepth url := by
  rcases h.queueFound url hurl with rfl | ⟨known, hknown, hleads⟩
  · exact .base hloads
  · exact .link (h.visitedReachable known hknown) hleads hloads

theorem began_with (h : f.Explored site base maxDepth before) (hurl : url ∈ f.queue) :
    base ∈ f.visited ++ [url] := by
  rcases h.began with hbegan | ⟨-, honly, -⟩
  · exact List.mem_append_left _ hbegan
  · simp [honly url hurl]

theorem found {hrefs : List String} (h : f.Explored site base maxDepth before)
    (horderly : f.Orderly bounds base) (htrimmed : Text.trimEnd (· = '/') base = base)
    (hadmits : ∀ depth, bounds.admits depth = true ↔ depth ≤ maxDepth)
    (hwaits : f.queue = url :: queue) (hloads : site url = some hrefs)
    (hqueue : g.queue = enqueue bounds base (f.visited ++ [url]) queue
      (followedLinks base maxDepth (f.visited ++ [url]) url hrefs))
    (hvisited : g.visited = f.visited ++ [url])
    (hpages : pagesAddedIn g.state.log = url :: pagesAddedIn f.state.log) :
    g.Explored site base maxDepth before := by
  have hurl : url ∈ f.queue := by simp [hwaits]
  have hsome : (site url).isSome := by simp [hloads]
  have hreached := h.reachable_of_waiting hurl hsome
  have hbegan := h.began_with hurl
  have hclean : ∀ known ∈ f.visited ++ [url], known ≠ base → IsClean known := by
    intro known hknown hne
    rcases List.mem_append.mp hknown with hknown | hknown
    · exact horderly.visitedClean known hknown hne
    · rw [List.mem_singleton] at hknown
      exact horderly.queueClean known (hknown ▸ hurl) hne
  obtain ⟨added, heq, -, hadded⟩ := enqueue_eq_append bounds base (f.visited ++ [url]) queue
    (followedLinks base maxDepth (f.visited ++ [url]) url hrefs)
  refine ⟨?_, ?_, ?_, ?_, ?_⟩
  · intro known hknown
    rw [hvisited] at hknown
    rcases List.mem_append.mp hknown with hknown | hknown
    · exact h.visitedReachable known hknown
    · rw [List.mem_singleton] at hknown
      rwa [hknown]
  · intro other hother
    rw [hqueue, heq] at hother
    rw [hvisited]
    rcases List.mem_append.mp hother with hother | hother
    · rcases h.queueFound other (by simp [hwaits, hother]) with hbase | ⟨known, hknown, hleads⟩
      · exact Or.inl hbase
      · exact Or.inr ⟨known, List.mem_append_left _ hknown, hleads⟩
    · obtain ⟨hlink, -, -, hdepth⟩ := hadded other hother
      exact Or.inr ⟨url, by simp, successor_of_mem_followedLinks htrimmed hbegan hloads hlink
        ((hadmits _).mp hdepth)⟩
  · rw [hvisited]
    exact Or.inl hbegan
  · intro known hknown next hnext
    rw [hvisited, hqueue]
    rw [hvisited] at hknown
    rcases List.mem_append.mp hknown with hknown | hknown
    · rcases h.closed known hknown next hnext with hdone | hwait | hnone
      · exact Or.inl (List.mem_append_left _ hdone)
      · rw [hwaits] at hwait
        rcases List.mem_cons.mp hwait with rfl | hwait
        · exact Or.inl (by simp)
        · exact Or.inr (Or.inl (heq ▸ List.mem_append_left _ hwait))
      · exact Or.inr (Or.inr hnone)
    · rw [List.mem_singleton] at hknown
      subst hknown
      -- a successor of the new page that is not known waits now, as it is not too deep
      by_cases hdone : next ∈ f.visited ++ [known]
      · exact Or.inl hdone
      · have hlink := (mem_followedLinks_of_successor htrimmed hclean hloads hnext).resolve_left hdone
        obtain ⟨-, -, -, -, -, -, -, -, -, hdepth⟩ := hnext
        exact Or.inr (Or.inl (mem_enqueue_of_admits hlink hdone ((hadmits _).mpr hdepth)))
  · rw [hpages, hvisited, h.pages]
    simp

theorem explores (h : f.Explored site base maxDepth before) (horderly : f.Orderly bounds base)
    (htrimmed : Text.trimEnd (· = '/') base = base)
    (hadmits : ∀ depth, bounds.admits depth = true ↔ depth ≤ maxDepth)
    (hround : f.Explores site base maxDepth bounds g) : g.Explored site base maxDepth before := by
  cases hround with
  | missing waits lost queue_eq visited_eq pages_eq =>
    exact h.missing waits lost queue_eq visited_eq pages_eq
  | found waits loads queue_eq visited_eq pages_eq =>
    exact h.found horderly htrimmed hadmits waits loads queue_eq visited_eq pages_eq

theorem mem_visited_of_reachable (h : f.Explored site base maxDepth before) (hqueue : f.queue = [])
    (hurl : Reachable site base maxDepth url) : url ∈ f.visited := by
  induction hurl with
  | base loads =>
    rcases h.began with hbegan | ⟨-, -, hwaits | hlost⟩
    · exact hbegan
    · simp [hqueue] at hwaits
    · simp [hlost] at loads
  | link reached leads loads ih =>
    rcases h.closed _ ih _ leads with hdone | hwaits | hlost
    · exact hdone
    · simp [hqueue] at hwaits
    · simp [hlost] at loads

theorem length_visited_le {addresses : List String} (h : f.Explored site base maxDepth before)
    (hnodup : f.visited.Nodup) (haddresses : ∀ url, (site url).isSome → url ∈ addresses) :
    f.visited.length ≤ addresses.length := by
  refine (List.subperm_of_subset hnodup fun url hurl => ?_).length_le
  exact haddresses url (h.visitedReachable url hurl).loads

end Frontier.Explored

/-! ## The whole crawl -/

namespace Crawler

theorem OnStaticSite.admits_iff
    (h : crawler.OnStaticSite crawl base maxPages maxDepth bounds site s) (depth : Nat) :
    bounds.admits depth = true ↔ depth ≤ maxDepth :=
  (h.limits.admits_iff depth).trans Int.ofNat_le

theorem OnStaticSite.explored
    (h : crawler.OnStaticSite crawl base maxPages maxDepth bounds site s)
    (htrimmed : Text.trimEnd (· = '/') base = base) {f : Frontier Surroundings}
    (hleads : Frontier.Leads bounds base (crawler.visit crawl base) (start base [] s) f) :
    f.Explored site base maxDepth (pagesAddedIn s.log) := by
  induction hleads with
  | refl => exact explored_start site base maxDepth s
  | tail hbefore hnext ih =>
    have hexplores := h.explores hbefore (Frontier.next_eq_some_iff.mp hnext)
    exact ih.explores (orderly_of_leads h.limits hbefore) htrimmed h.admits_iff hexplores

/-- When a new crawl ends before its limit, the graph was asked to store exactly
the pages that can be reached from the base. -/
theorem pagesAddedIn_walk_iff_reachable {address : String}
    (hbase : base = Text.trimEnd (· = '/') address)
    (h : crawler.OnStaticSite crawl base maxPages maxDepth bounds site s)
    {done : Frontier Surroundings}
    (hdone : done = (start base [] s).walk bounds base (crawler.visit crawl base))
    (hroom : (done.visited.length : Int) < maxPages) :
    ∃ new, pagesAddedIn done.state.log = new ++ pagesAddedIn s.log ∧
      ∀ url, url ∈ new ↔ Reachable site base maxDepth url := by
  have htrimmed : Text.trimEnd (· = '/') base = base := by
    rw [hbase, Text.trimEnd_trimEnd]
  obtain ⟨count, added, hrounds, hend⟩ :=
    Frontier.rounds_walk bounds base (crawler.visit crawl base) (start base [] s)
  rw [← hdone] at hrounds hend
  have hexplored := h.explored htrimmed hrounds.leads
  have hqueue : done.queue = [] := by
    rcases Frontier.next_eq_none_iff.mp hend with hqueue | hlimit
    · exact hqueue
    · rw [h.limits.limit_eq] at hlimit
      omega
  refine ⟨done.visited.reverse, hexplored.pages, fun url => ?_⟩
  rw [List.mem_reverse]
  exact ⟨hexplored.visitedReachable url, hexplored.mem_visited_of_reachable hqueue⟩

/-! ## A small site -/

/-- A site with a fragment, a query, a page that is lost, one whose links cannot
be read, one that is too deep, and a link to another site. -/
def smallSite : List (String × WebPage) :=
  [("https://a.b", { WebPage.blank with hrefs := .texts ["https://a.b", "https://a.b/c#top",
      "https://a.b/lost", "https://x.y/"] }),
    ("https://a.b/c", { WebPage.blank with hrefs := .texts ["https://a.b/d/?page=2",
      "https://a.b/c/e/f/g", "https://a.b/c/"] }),
    ("https://a.b/d", { WebPage.blank with faults := [("hrefs", "gone")] }),
    ("https://a.b/c/e/f/g", .blank)]

theorem sample_quiet : sample.Quiet where
  polite := sample_polite
  stays := by
    intro notify hnotify update
    cases hnotify
    exact stays_record ⟨rfl, rfl⟩

theorem sample_onStaticSite :
    ∃ bounds, sample.OnStaticSite (.str "crawl") "https://a.b" 50 3 bounds
      ((Web.ofTable smallSite).links? []) (sampleSurroundings smallSite) := by
  obtain ⟨bounds, limits⟩ := sample_limits "https://a.b"
  refine ⟨bounds, limits, sample_quiet, fun _ _ => rfl, ?_⟩
  intro f url queue new t hleads _ hasked
  obtain ⟨-, hcontent, hpasses⟩ := sample_quiet.of_asked? hasked
  have hgrows := sample_quiet.grows_of_leads hleads
  have hreplies : t.store.answers.replies = [] :=
    List.sublist_nil.mp (hpasses.replies.trans hgrows.replies)
  have hother (log : List Event) : t.store.answers.otherwise? log = none := by
    rw [hpasses.otherwise, hgrows.otherwise]
    rfl
  obtain ⟨content, hread⟩ : ∃ content, Graph.Content.ofJson new.content = .ok content := by
    rw [hcontent rfl]
    exact ⟨_, rfl⟩
  exact Graph.addPage_of_unprepared hread hreplies hother

theorem smallSite_reachable :
    Reachable ((Web.ofTable smallSite).links? []) "https://a.b" 3 "https://a.b/d" := by
  have hfirst : Successor ((Web.ofTable smallSite).links? []) "https://a.b" 3 "https://a.b"
      "https://a.b/c" :=
    ⟨by decide +kernel, _, rfl, "https://a.b/c#top", by decide +kernel⟩
  have hsecond : Successor ((Web.ofTable smallSite).links? []) "https://a.b" 3 "https://a.b/c"
      "https://a.b/d" :=
    ⟨by decide +kernel, _, rfl, "https://a.b/d/?page=2", by decide +kernel⟩
  exact .link (.link (.base (by decide +kernel)) hfirst (by decide +kernel)) hsecond
    (by decide +kernel)

theorem pagesAddedIn_walk_smallSite :
    ∃ bounds, sample.OnStaticSite (.str "crawl") "https://a.b" 50 3 bounds
        ((Web.ofTable smallSite).links? []) (sampleSurroundings smallSite) ∧
      ∃ new, pagesAddedIn ((start "https://a.b" [] (sampleSurroundings smallSite)).walk bounds
          "https://a.b" (sample.visit (.str "crawl") "https://a.b")).state.log = new ++ [] ∧
        (∀ url, url ∈ new ↔ Reachable ((Web.ofTable smallSite).links? []) "https://a.b" 3 url) ∧
        "https://a.b/d" ∈ new := by
  obtain ⟨bounds, h⟩ := sample_onStaticSite
  have hbase : "https://a.b" = Text.trimEnd (· = '/') "https://a.b/" := by decide +kernel
  have hleads := Frontier.leads_walk bounds "https://a.b"
    (sample.visit (.str "crawl") "https://a.b")
    (start "https://a.b" [] (sampleSurroundings smallSite))
  have hfew := (h.explored (by decide +kernel) hleads).length_visited_le
    (hleads.nodup_visited List.nodup_nil) fun url hurl => Web.mem_of_links?_ofTable hurl
  have hsize : (smallSite.map Prod.fst).length = 4 := rfl
  obtain ⟨new, hpages, hnew⟩ := pagesAddedIn_walk_iff_reachable hbase h rfl (by omega)
  exact ⟨bounds, h, new, hpages, hnew, (hnew _).mpr smallSite_reachable⟩

end Crawler

end

end Sitecheck.Crawl
