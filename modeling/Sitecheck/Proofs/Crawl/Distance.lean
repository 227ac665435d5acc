import Mathlib.Order.Lattice.Nat
import Sitecheck.Proofs.Crawl.Reach

/-!
# Near pages first

On a site that does not change, a crawl stores pages in the order of their
distance from the base, which counts the links on the way.  An address whose page
cannot be loaded may wait more than once and anywhere in the queue, so what is in
order are the addresses that were visited and, behind them, those that wait and
can be loaded.
-/

namespace Sitecheck.Crawl

variable {site : Site} {base : String} {maxDepth : Nat}
variable {url next : String}

/-! ## Distance -/

/-- The addresses that can be loaded after so many links. -/
inductive ReachedIn (site : Site) (base : String) (maxDepth : Nat) : (count : Nat) → String → Prop
  | base (loads : (site base).isSome) : ReachedIn site base maxDepth 0 base
  | link {count : Nat} {url next : String} (reached : ReachedIn site base maxDepth count url)
      (leads : Successor site base maxDepth url next) (loads : (site next).isSome) :
      ReachedIn site base maxDepth (count + 1) next

theorem ReachedIn.reachable {count : Nat} (h : ReachedIn site base maxDepth count url) :
    Reachable site base maxDepth url := by
  induction h with
  | base loads => exact .base loads
  | link reached leads loads ih => exact .link ih leads loads

theorem Reachable.exists_reachedIn (h : Reachable site base maxDepth url) :
    ∃ count, ReachedIn site base maxDepth count url := by
  induction h with
  | base loads => exact ⟨0, .base loads⟩
  | link reached leads loads ih =>
    obtain ⟨count, hcount⟩ := ih
    exact ⟨count + 1, .link hcount leads loads⟩

noncomputable def distance (site : Site) (base : String) (maxDepth : Nat) (url : String) : Nat :=
  sInf {count | ReachedIn site base maxDepth count url}

theorem distance_le {count : Nat} (h : ReachedIn site base maxDepth count url) :
    distance site base maxDepth url ≤ count :=
  Nat.sInf_le h

theorem Reachable.reachedIn_distance (h : Reachable site base maxDepth url) :
    ReachedIn site base maxDepth (distance site base maxDepth url) url :=
  Nat.sInf_mem h.exists_reachedIn

theorem distance_le_of_successor (h : Reachable site base maxDepth url)
    (hleads : Successor site base maxDepth url next) (hloads : (site next).isSome) :
    distance site base maxDepth next ≤ distance site base maxDepth url + 1 :=
  distance_le (.link h.reachedIn_distance hleads hloads)

theorem Reachable.exists_nearer (h : Reachable site base maxDepth next) (hne : next ≠ base) :
    ∃ url, Reachable site base maxDepth url ∧ Successor site base maxDepth url next ∧
      distance site base maxDepth url < distance site base maxDepth next := by
  have hreached := h.reachedIn_distance
  generalize hcount : distance site base maxDepth next = count at hreached
  cases hreached with
  | base => exact absurd rfl hne
  | link reached leads =>
    exact ⟨_, reached.reachable, leads, Nat.lt_succ_of_le (distance_le reached)⟩

/-! ## What a round keeps -/

namespace Frontier

variable {before : List String} {bounds : Bounds} {f g : Frontier Surroundings}
variable {url waiting : String} {queue : List String}

def inSight (site : Site) (f : Frontier Surroundings) : List String :=
  f.visited ++ f.queue.filter fun url => (site url).isSome

def ByDistance (site : Site) (base : String) (maxDepth : Nat) (f : Frontier Surroundings) : Prop :=
  (f.inSight site).Pairwise fun first second =>
    distance site base maxDepth first ≤ distance site base maxDepth second

theorem Explored.visited_or_waits (h : f.Explored site base maxDepth before) {count : Nat}
    (hurl : ReachedIn site base maxDepth count url) :
    url ∈ f.visited ∨ ∃ waiting ∈ f.queue, (site waiting).isSome ∧
      distance site base maxDepth waiting ≤ count := by
  induction hurl with
  | base loads =>
    rcases h.began with hbegan | ⟨-, -, hwaits | hlost⟩
    · exact Or.inl hbegan
    · exact Or.inr ⟨base, hwaits, loads, distance_le (.base loads)⟩
    · simp [hlost] at loads
  | @link count url next reached leads loads ih =>
    rcases ih with hvisited | ⟨waiting, hwaits, hloads, hle⟩
    · rcases h.closed url hvisited next leads with hdone | hwaits | hlost
      · exact Or.inl hdone
      · exact Or.inr ⟨next, hwaits, loads, distance_le (.link reached leads loads)⟩
      · simp [hlost] at loads
    · exact Or.inr ⟨waiting, hwaits, hloads, Nat.le_succ_of_le hle⟩

theorem ByDistance.visited_le (h : f.ByDistance site base maxDepth) {known : String}
    (hknown : known ∈ f.visited) (hwaits : waiting ∈ f.queue) (hloads : (site waiting).isSome) :
    distance site base maxDepth known ≤ distance site base maxDepth waiting :=
  (List.pairwise_append.mp h).2.2 known hknown waiting (List.mem_filter.mpr ⟨hwaits, hloads⟩)

theorem ByDistance.first_le (h : f.ByDistance site base maxDepth) (hfirst : f.queue = url :: queue)
    (hurl : (site url).isSome) (hwaits : waiting ∈ f.queue) (hloads : (site waiting).isSome) :
    distance site base maxDepth url ≤ distance site base maxDepth waiting := by
  have hqueue := (List.pairwise_append.mp h).2.1
  rw [hfirst] at hwaits
  simp only [hfirst, List.filter_cons, hurl, if_true] at hqueue
  rcases List.mem_cons.mp hwaits with rfl | hwaits
  · exact le_refl _
  · exact (List.pairwise_cons.mp hqueue).1 waiting (List.mem_filter.mpr ⟨hwaits, hloads⟩)

theorem Explored.waiting_le (h : f.Explored site base maxDepth before) {bound : Nat}
    (hbound : ∀ known ∈ f.visited, distance site base maxDepth known ≤ bound)
    (hwaits : waiting ∈ f.queue) (hloads : (site waiting).isSome) :
    distance site base maxDepth waiting ≤ bound + 1 := by
  rcases h.queueFound waiting hwaits with rfl | ⟨known, hknown, hleads⟩
  · exact (distance_le (.base hloads)).trans (Nat.zero_le _)
  · have hle := distance_le_of_successor (h.visitedReachable known hknown) hleads hloads
    have hknown := hbound known hknown
    omega

/-- A link that is new is exactly one link farther than the page it was found on:
had it been nearer, the page that made it so would have been visited before. -/
theorem Explored.distance_of_new (h : f.Explored site base maxDepth before)
    (hsorted : f.ByDistance site base maxDepth) {next : String} (hwaits : f.queue = url :: queue)
    (hreached : Reachable site base maxDepth url) (hleads : Successor site base maxDepth url next)
    (hloads : (site next).isSome) (hvisited : next ∉ f.visited) (hqueue : next ∉ f.queue) :
    distance site base maxDepth next = distance site base maxDepth url + 1 := by
  refine le_antisymm (distance_le_of_successor hreached hleads hloads) ?_
  by_contra hnear
  have hne : next ≠ base := by
    obtain ⟨-, -, -, -, -, -, -, -, hne, -⟩ := hleads
    exact hne
  obtain ⟨nearer, hreachable, hnearerLeads, hlt⟩ :=
    (Reachable.link hreached hleads hloads).exists_nearer hne
  rcases h.visited_or_waits hreachable.reachedIn_distance with hdone | ⟨waiting, hwaiting, hload, hle⟩
  · rcases h.closed nearer hdone next hnearerLeads with hold | hold | hlost
    · exact hvisited hold
    · exact hqueue hold
    · simp [hlost] at hloads
  · have hfirst := hsorted.first_le hwaits hreached.loads hwaiting hload
    omega

theorem ByDistance.found {hrefs : List String} (h : f.ByDistance site base maxDepth)
    (hexplored : f.Explored site base maxDepth before)
    (htrimmed : Text.trimEnd (· = '/') base = base)
    (hadmits : ∀ depth, bounds.admits depth = true ↔ depth ≤ maxDepth)
    (hwaits : f.queue = url :: queue) (hloads : site url = some hrefs)
    (hqueue : g.queue = enqueue bounds base (f.visited ++ [url]) queue
      (followedLinks base maxDepth (f.visited ++ [url]) url hrefs))
    (hvisited : g.visited = f.visited ++ [url]) : g.ByDistance site base maxDepth := by
  have hsome : (site url).isSome := by simp [hloads]
  obtain ⟨added, heq, -, hadded⟩ := enqueue_eq_append bounds base (f.visited ++ [url]) queue
    (followedLinks base maxDepth (f.visited ++ [url]) url hrefs)
  -- the new links come last, and all of them are one link farther than the page
  have hsight : g.inSight site =
      f.inSight site ++ added.filter fun link => (site link).isSome := by
    simp [inSight, hvisited, hqueue, heq, hwaits, hsome]
  have hurl : url ∈ f.queue := by simp [hwaits]
  have hreached := hexplored.reachable_of_waiting hurl hsome
  have hnew : ∀ link ∈ added.filter fun link => (site link).isSome,
      distance site base maxDepth link = distance site base maxDepth url + 1 := by
    intro link hlink
    obtain ⟨hmem, hlinkLoads⟩ := List.mem_filter.mp hlink
    obtain ⟨hfollowed, hunknown, hnotQueued, hdepth⟩ := hadded link hmem
    simp only [List.mem_append, List.mem_singleton, not_or] at hunknown
    have hleads := successor_of_mem_followedLinks htrimmed (hexplored.began_with hurl) hloads
      hfollowed ((hadmits _).mp hdepth)
    refine hexplored.distance_of_new h hwaits hreached hleads hlinkLoads hunknown.1 ?_
    simpa [hwaits] using ⟨hunknown.2, hnotQueued⟩
  have hvisitedLe : ∀ known ∈ f.visited,
      distance site base maxDepth known ≤ distance site base maxDepth url :=
    fun known hknown => h.visited_le hknown hurl hsome
  rw [ByDistance, hsight]
  refine List.pairwise_append.mpr ⟨h, ?_, ?_⟩
  · refine List.pairwise_of_forall_mem_list fun first hfirst second hsecond => ?_
    rw [hnew first hfirst, hnew second hsecond]
  · intro known hknown link hlink
    rw [hnew link hlink]
    rcases List.mem_append.mp hknown with hknown | hknown
    · exact Nat.le_succ_of_le (hvisitedLe known hknown)
    · obtain ⟨hwaiting, hload⟩ := List.mem_filter.mp hknown
      exact hexplored.waiting_le hvisitedLe hwaiting hload

theorem ByDistance.missing (h : f.ByDistance site base maxDepth) (hwaits : f.queue = url :: queue)
    (hlost : site url = none) (hqueue : g.queue = queue) (hvisited : g.visited = f.visited) :
    g.ByDistance site base maxDepth := by
  have hsight : g.inSight site = f.inSight site := by
    simp [inSight, hvisited, hqueue, hwaits, hlost]
  rw [ByDistance, hsight]
  exact h

end Frontier

/-! ## The whole crawl -/

namespace Crawler

variable {crawler : Crawler} {crawl : Json} {maxPages : Int} {bounds : Bounds} {s : Surroundings}

theorem OnStaticSite.byDistance
    (h : crawler.OnStaticSite crawl base maxPages maxDepth bounds site s)
    (htrimmed : Text.trimEnd (· = '/') base = base) {f : Frontier Surroundings}
    (hleads : Frontier.Leads bounds base (crawler.visit crawl base) (start base [] s) f) :
    f.ByDistance site base maxDepth := by
  induction hleads with
  | refl =>
    exact (List.pairwise_singleton _ base).sublist List.filter_sublist
  | tail hbefore hnext ih =>
    have hexplored := h.explored htrimmed hbefore
    cases h.explores hbefore (Frontier.next_eq_some_iff.mp hnext) with
    | missing waits lost queue_eq visited_eq =>
      exact ih.missing waits lost queue_eq visited_eq
    | found waits loads queue_eq visited_eq =>
      exact ih.found hexplored htrimmed h.admits_iff waits loads queue_eq visited_eq

/-- However soon a new crawl ends, the graph was asked to store pages that can be
reached, in the order of their distance from the base, and no page was left out that
is nearer than one of them. -/
theorem distances_of_walk {address : String} (hbase : base = Text.trimEnd (· = '/') address)
    (h : crawler.OnStaticSite crawl base maxPages maxDepth bounds site s)
    {done : Frontier Surroundings}
    (hdone : done = (start base [] s).walk bounds base (crawler.visit crawl base)) :
    ∃ new, pagesAddedIn done.state.log = new ++ pagesAddedIn s.log ∧
      (∀ url ∈ new, Reachable site base maxDepth url) ∧
      (new.reverse.Pairwise fun earlier later =>
        distance site base maxDepth earlier ≤ distance site base maxDepth later) ∧
      ∀ url ∈ new, ∀ other, Reachable site base maxDepth other →
        distance site base maxDepth other < distance site base maxDepth url → other ∈ new := by
  have htrimmed : Text.trimEnd (· = '/') base = base := by
    rw [hbase, Text.trimEnd_trimEnd]
  have hleads := Frontier.leads_walk bounds base (crawler.visit crawl base) (start base [] s)
  rw [← hdone] at hleads
  have hexplored := h.explored htrimmed hleads
  have hsorted := h.byDistance htrimmed hleads
  refine ⟨done.visited.reverse, hexplored.pages, ?_, ?_, ?_⟩
  · intro url hurl
    exact hexplored.visitedReachable url (List.mem_reverse.mp hurl)
  · rw [List.reverse_reverse]
    exact (List.pairwise_append.mp hsorted).1
  · intro url hurl other hother hnear
    rw [List.mem_reverse] at hurl ⊢
    rcases hexplored.visited_or_waits hother.reachedIn_distance with hdone | ⟨waiting, hwaits, hloads, hle⟩
    · exact hdone
    · have hfar := hsorted.visited_le hurl hwaits hloads
      omega

theorem distances_of_walk_smallSite :
    ∃ bounds, sample.OnStaticSite (.str "crawl") "https://a.b" 50 3 bounds
        ((Web.ofTable smallSite).links? []) (sampleSurroundings smallSite) ∧
      ∃ new, pagesAddedIn ((start "https://a.b" [] (sampleSurroundings smallSite)).walk bounds
          "https://a.b" (sample.visit (.str "crawl") "https://a.b")).state.log = new ++ [] ∧
        (new.reverse.Pairwise fun earlier later =>
          distance ((Web.ofTable smallSite).links? []) "https://a.b" 3 earlier ≤
            distance ((Web.ofTable smallSite).links? []) "https://a.b" 3 later) ∧
        ∀ url ∈ new, distance ((Web.ofTable smallSite).links? []) "https://a.b" 3 "https://a.b/d" <
          distance ((Web.ofTable smallSite).links? []) "https://a.b" 3 url →
          "https://a.b/d" ∈ new := by
  obtain ⟨bounds, h⟩ := sample_onStaticSite
  have hbase : "https://a.b" = Text.trimEnd (· = '/') "https://a.b/" := by decide +kernel
  obtain ⟨new, hpages, -, hsorted, hnear⟩ := distances_of_walk hbase h rfl
  exact ⟨bounds, h, new, hpages, hsorted, fun url hurl => hnear url hurl _ smallSite_reachable⟩

end Crawler

end Sitecheck.Crawl
