import Sitecheck.Proofs.Crawl.Visit

/-!
# The invariant of the frontier

At the head of every round the queue holds different addresses that are new,
clean and not too deep, and a page is known by its identifier exactly if its
address was visited.  So no address is passed over, and no page is stored twice.
-/

namespace Sitecheck.Crawl

variable {σ : Type} {bounds : Bounds} {base : String} {visit : Visit σ}

/-! ## What a round keeps -/

structure Frontier.Orderly (bounds : Bounds) (base : String) (f : Frontier σ) : Prop where
  queueNodup : f.queue.Nodup
  queueNew : ∀ url ∈ f.queue, url ∉ f.visited
  queueAdmitted : ∀ url ∈ f.queue, bounds.admits (depth url base) = true
  queueClean : ∀ url ∈ f.queue, url ≠ base → IsClean url
  visitedClean : ∀ url ∈ f.visited, url ≠ base → IsClean url
  pagesVisited : f.pages.map Prod.fst = f.visited

def Visit.GivesClean (visit : Visit σ) : Prop :=
  ∀ visited url depth s id links t,
    visit visited url depth s = (some (id, links), t) → ∀ link ∈ links, IsClean link

namespace Frontier.Orderly

variable {f : Frontier σ} {url : String} {queue : List String}

theorem tail (h : f.Orderly bounds base) (hwaits : f.queue = url :: queue) (s : σ) :
    Orderly bounds base { f with queue := queue, state := s } := by
  have hsub : ∀ other ∈ queue, other ∈ f.queue := by
    intro other hother
    rw [hwaits]
    exact List.mem_cons_of_mem _ hother
  have hnodup := h.queueNodup
  rw [hwaits] at hnodup
  exact {
    queueNodup := (List.nodup_cons.mp hnodup).2
    queueNew := fun other hother => h.queueNew other (hsub other hother)
    queueAdmitted := fun other hother => h.queueAdmitted other (hsub other hother)
    queueClean := fun other hother => h.queueClean other (hsub other hother)
    visitedClean := h.visitedClean
    pagesVisited := h.pagesVisited }

/-- Storing the page at the first address keeps the frontier in order: that
address waits only once, so it does not wait any more. -/
theorem store {links : List String} {id : Json} (h : f.Orderly bounds base)
    (hwaits : f.queue = url :: queue) (hlinks : ∀ link ∈ links, IsClean link) (s : σ) :
    Orderly bounds base
      { queue := enqueue bounds base (f.visited ++ [url]) queue links
        visited := f.visited ++ [url]
        pages := Fields.set url id f.pages
        state := s } := by
  obtain ⟨added, heq, haddedNodup, hadded⟩ :=
    enqueue_eq_append bounds base (f.visited ++ [url]) queue links
  have hurl : url ∈ f.queue := by simp [hwaits]
  have hnew : url ∉ f.visited := h.queueNew url hurl
  have hrest := h.tail hwaits s
  have honce : url ∉ queue := by
    have hnodup := h.queueNodup
    rw [hwaits] at hnodup
    exact (List.nodup_cons.mp hnodup).1
  refine ⟨?_, ?_, ?_, ?_, ?_, ?_⟩
  -- in each case an address either waited before or is one of the links that were put in
  · rw [heq]
    refine List.nodup_append.mpr ⟨hrest.queueNodup, haddedNodup, ?_⟩
    rintro other hother link hlink rfl
    exact (hadded other hlink).2.2.1 hother
  · intro other hother
    rw [heq] at hother
    rcases List.mem_append.mp hother with hother | hother
    · simp only [List.mem_append, List.mem_singleton, not_or]
      exact ⟨hrest.queueNew other hother, fun heq => honce (heq ▸ hother)⟩
    · exact (hadded other hother).2.1
  · intro other hother
    rw [heq] at hother
    rcases List.mem_append.mp hother with hother | hother
    · exact hrest.queueAdmitted other hother
    · exact (hadded other hother).2.2.2
  · intro other hother hbase
    rw [heq] at hother
    rcases List.mem_append.mp hother with hother | hother
    · exact hrest.queueClean other hother hbase
    · exact hlinks other (hadded other hother).1
  · intro other hother hbase
    rcases List.mem_append.mp hother with hother | hother
    · exact h.visitedClean other hother hbase
    · rw [List.mem_singleton] at hother
      subst hother
      exact h.queueClean other hurl hbase
  · have hkey : url ∉ f.pages.map Prod.fst := by rwa [h.pagesVisited]
    rw [Fields.set_of_not_mem hkey, List.map_append, h.pagesVisited]
    rfl

theorem round {g : Frontier σ} (hclean : visit.GivesClean) (h : f.Orderly bounds base)
    (hround : Round bounds base visit f g) : g.Orderly bounds base := by
  cases hround with
  | skipped waits => exact h.tail waits f.state
  | failed waits => exact h.tail waits _
  | stored waits room skips visits => exact h.store waits (hclean _ _ _ _ _ _ _ visits) _

theorem skips_eq_false (h : f.Orderly bounds base) (hurl : url ∈ f.queue)
    (hdepth : bounds.tooDeep (depth url base) = false) :
    f.skips bounds base url = false := by
  simp [skips, hdepth, h.queueNew url hurl]

end Frontier.Orderly

theorem Crawler.orderly_start (hbase : bounds.admits 0 = true) (s : Surroundings) :
    (Crawler.start base [] s).Orderly bounds base where
  queueNodup := by simp [start]
  queueNew := by simp [start]
  queueAdmitted := by simpa [start] using hbase
  queueClean := by simp [start]
  visitedClean := by simp [start]
  pagesVisited := rfl

/-! ## Pages are stored once -/

namespace Crawler

variable {crawler : Crawler} {crawl : Json}
variable {f : Frontier Surroundings} {url : String} {maxPages : Int} {maxDepth : Nat}

/-- The next round of a crawl stores a page: the address is first in the queue,
its turn comes, and the graph takes its page up. -/
def Stores (crawler : Crawler) (crawl : Json) (base : String) (bounds : Bounds)
    (f : Frontier Surroundings) (url : String) : Prop :=
  ∃ queue new t id, f.queue = url :: queue ∧ f.visited.length < bounds.limit ∧
    f.skips bounds base url = false ∧
    crawler.asked? crawl url (depth url base) f.visited.length f.state = some (new, t) ∧
    (Graph.addPage new t).1 = .ok id

theorem mem_visited_of_stores {g : Frontier Surroundings} (hpolite : crawler.Polite)
    (h : crawler.Stores crawl base bounds f url)
    (hnext : f.next bounds base (crawler.visit crawl base) = some g) : url ∈ g.visited := by
  obtain ⟨queue, new, t, id, hqueue, hroom, hskips, hasked, hadd⟩ := h
  obtain ⟨update, hstore⟩ := storePage_of_asked hpolite hasked (Prod.ext hadd rfl)
  obtain ⟨u, hvisit, -⟩ := visit_of_ok base hstore
  have hround := Frontier.next_eq_some_iff.mpr (Frontier.Round.stored hqueue hroom hskips hvisit)
  rw [hround] at hnext
  cases hnext
  simp

theorem not_mem_visited_of_stores (h : crawler.Stores crawl base bounds f url) :
    url ∉ f.visited := by
  obtain ⟨queue, new, t, id, -, -, hskips, -, -⟩ := h
  intro hmem
  simp [Frontier.skips, hmem] at hskips

theorem orderly_of_leads {s : Surroundings} (limits : crawler.Limits base maxPages maxDepth bounds)
    (hleads : Frontier.Leads bounds base (crawler.visit crawl base) (start base [] s) f) :
    f.Orderly bounds base := by
  have hclean : (crawler.visit crawl base).GivesClean :=
    fun _ _ _ _ _ _ _ hvisit => isClean_of_visit hvisit
  have hbase : bounds.admits 0 = true := (limits.admits_iff 0).mpr (by omega)
  exact hleads.keeps (fun _ _ hf hround => hf.round hclean hround) (orderly_start hbase s)

theorem Limits.skips_eq_false (limits : crawler.Limits base maxPages maxDepth bounds)
    (horderly : f.Orderly bounds base) (hurl : url ∈ f.queue) :
    f.skips bounds base url = false := by
  refine horderly.skips_eq_false hurl (Bool.eq_false_iff.mpr fun hdeep => ?_)
  have hbelow := (limits.tooDeep_iff _).mp hdeep
  have hadmitted := (limits.admits_iff _).mp (horderly.queueAdmitted url hurl)
  omega

/-- At the head of every round of a new crawl the queue holds each address once,
all of them new, within the depth and, the base apart, clean; the pages known by
identifier are those that were visited.  So no address is passed over, and a
page that the graph has taken up is not stored again. -/
theorem queue_and_visited_of_leads {maxPages : Int} {maxDepth : Nat} {s : Surroundings}
    {f : Frontier Surroundings} (limits : crawler.Limits base maxPages maxDepth bounds)
    (hpolite : crawler.Polite)
    (hleads : Frontier.Leads bounds base (crawler.visit crawl base) (start base [] s) f) :
    f.queue.Nodup ∧
      (∀ url ∈ f.queue, url ∉ f.visited ∧ depth url base ≤ maxDepth ∧
        (url ≠ base → clean url = url ∧ '#' ∉ url.toList ∧ '?' ∉ url.toList ∧
          url.toList.getLast? ≠ some '/')) ∧
      f.pages.map Prod.fst = f.visited ∧
      (∀ url ∈ f.queue, f.skips bounds base url = false) ∧
      ∀ g h url, f.next bounds base (crawler.visit crawl base) = some g →
        Frontier.Leads bounds base (crawler.visit crawl base) g h →
        crawler.Stores crawl base bounds f url → ¬ crawler.Stores crawl base bounds h url := by
  have horderly := orderly_of_leads limits hleads
  refine ⟨horderly.queueNodup, ?_, horderly.pagesVisited,
    fun url hurl => limits.skips_eq_false horderly hurl, ?_⟩
  · intro url hurl
    have hdepth : depth url base ≤ maxDepth := by
      exact_mod_cast (limits.admits_iff _).mp (horderly.queueAdmitted url hurl)
    refine ⟨horderly.queueNew url hurl, hdepth, fun hbase => ?_⟩
    have hclean := horderly.queueClean url hurl hbase
    exact ⟨clean_eq_self_of_isClean hclean, hclean.noFragment, hclean.noQuery, hclean.noSlash⟩
  · intro g h url hnext hlater hstores hagain
    have hvisited := mem_visited_of_stores hpolite hstores hnext
    exact not_mem_visited_of_stores hagain (hlater.visited_subset hvisited)

theorem queue_and_visited_of_restless_crawl :
    ∃ bounds f, sample.Limits "https://a.b" 50 3 bounds ∧ sample.Polite ∧
      Frontier.Leads bounds "https://a.b" (sample.visit (.str "crawl") "https://a.b")
        (start "https://a.b" [] (sampleSurroundings restlessWeb)) f ∧
      f.queue.Nodup ∧ f.pages.map Prod.fst = f.visited ∧
      ∀ url ∈ f.queue, f.skips bounds "https://a.b" url = false := by
  obtain ⟨bounds, limits⟩ := sample_limits "https://a.b"
  have hleads := Frontier.leads_walk bounds "https://a.b"
    (sample.visit (.str "crawl") "https://a.b")
    (start "https://a.b" [] (sampleSurroundings restlessWeb))
  obtain ⟨hnodup, -, hpages, hskips, -⟩ :=
    queue_and_visited_of_leads limits sample_polite hleads
  exact ⟨bounds, _, limits, sample_polite, hleads, hnodup, hpages, hskips⟩

end Crawler

end Sitecheck.Crawl
