import Sitecheck.Proofs.Crawl.Hierarchy
import Sitecheck.Proofs.Crawl.Visit

/-!
# The hierarchy is a forest

A parent is spelled out from pieces of the address of its child and need not be
a front of it.  But it is always shorter: the base is cut out of the address at
least once before it is put in front again, and the last name is left out.  So
no page is above itself.
-/

namespace Sitecheck.Crawl

variable {link : ChildLink}

/-! ## What a crawl collects -/

def Collectable (base url : String) : Prop :=
  url = base ∨ ∃ href : String, base.toList <+: href.toList ∧ url = clean href

structure Collected (base : String) (pages : Stored) : Prop where
  once : (pages.map Prod.fst).Nodup
  collectable : ∀ url ∈ pages.map Prod.fst, Collectable base url

theorem Collectable.starts {base url : String} (h : Collectable base url) :
    (clean base).toList <+: (clean url).toList := by
  rcases h with rfl | ⟨href, hstarts, rfl⟩
  · exact List.prefix_refl _
  · rw [clean_clean]
    exact clean_mono hstarts

/-- What waits can be collected, and what was stored has been; nothing is stored
before the base. -/
structure Frontier.Gathers {σ : Type} (base : String) (f : Frontier σ) : Prop where
  waiting : ∀ url ∈ f.queue, Collectable base url
  stored : ∀ url ∈ f.pages.map Prod.fst, url ∈ f.visited
  pages : Collected base f.pages
  rooted : base ∈ f.pages.map Prod.fst ∨ f.pages = [] ∧ ∀ url ∈ f.queue, url = base

namespace Crawler

variable {crawler : Crawler} {crawl : Json} {base : String} {bounds : Bounds}
variable {url : String} {s : Surroundings} {f : Frontier Surroundings}

def harvest (crawler : Crawler) (crawl : Json) (base : String) (bounds : Bounds)
    (before : List String) (s : Surroundings) : Stored :=
  ((start base before s).walk bounds base (crawler.visit crawl base)).pages

theorem gathers_start (base : String) (before : List String) (s : Surroundings) :
    (start base before s).Gathers base where
  waiting := by simp [start, Collectable]
  stored := by simp [start]
  pages := ⟨by simp [start], by simp [start]⟩
  rooted := Or.inr ⟨rfl, by simp [start]⟩

theorem collectable_of_visit {visited : List String} {depth : Nat} {t : Surroundings} {id : Json}
    {links : List String}
    (h : crawler.visit crawl base visited url depth s = (some (id, links), t)) :
    ∀ link ∈ links, Collectable base link := by
  intro link hlink
  obtain ⟨hrefs, rfl⟩ := links_of_visit h
  obtain ⟨href, -, hstarts, -, rfl, -⟩ := (mem_internalLinks _ _ _ _).mp hlink
  exact Or.inr ⟨href, (Text.startsWith_iff _ _).mp hstarts, rfl⟩

theorem gathers_tail {queue : List String} (h : f.Gathers base) (hwaits : f.queue = url :: queue)
    (s : Surroundings) :
    Frontier.Gathers base { f with queue := queue, state := s } := by
  have hsub : ∀ other ∈ queue, other ∈ f.queue := by
    intro other hother
    rw [hwaits]
    exact List.mem_cons_of_mem _ hother
  exact {
    waiting := fun other hother => h.waiting other (hsub other hother)
    stored := h.stored
    pages := h.pages
    rooted := h.rooted.imp_right fun hempty =>
      ⟨hempty.1, fun other hother => hempty.2 other (hsub other hother)⟩ }

theorem gathers_round {g : Frontier Surroundings} (h : f.Gathers base)
    (hround : Frontier.Round bounds base (crawler.visit crawl base) f g) : g.Gathers base := by
  cases hround with
  | skipped waits => exact gathers_tail h waits f.state
  | failed waits => exact gathers_tail h waits _
  | @stored url queue id links s waits room skips visits =>
    have hurl : Collectable base url := h.waiting url (by simp [waits])
    have hnew : url ∉ f.pages.map Prod.fst := by
      intro hmem
      simp [Frontier.skips, h.stored url hmem] at skips
    have hkeys : (Fields.set url id f.pages).map Prod.fst = f.pages.map Prod.fst ++ [url] := by
      simp [Fields.set_of_not_mem hnew]
    refine ⟨?_, ?_, ⟨?_, ?_⟩, ?_⟩
    · intro other hother
      obtain ⟨added, heq, -, hadded⟩ :=
        enqueue_eq_append bounds base (f.visited ++ [url]) queue links
      rw [heq, List.mem_append] at hother
      rcases hother with hother | hother
      · exact h.waiting other (by simp [waits, hother])
      · exact collectable_of_visit visits other (hadded other hother).1
    · intro other hother
      rw [hkeys, List.mem_append] at hother
      exact List.mem_append.mpr (hother.imp_left (h.stored other))
    · rw [hkeys, ← List.concat_eq_append]
      exact h.pages.once.concat hnew
    · intro other hother
      rw [hkeys, List.mem_append, List.mem_singleton] at hother
      rcases hother with hother | rfl
      · exact h.pages.collectable other hother
      · exact hurl
    · -- the first page to be stored is the base, as nothing else waits before
      left
      rw [hkeys]
      rcases h.rooted with hbase | ⟨-, hqueue⟩
      · exact List.mem_append_left _ hbase
      · rw [← hqueue url (by simp [waits])]
        simp

theorem gathers_walk (crawler : Crawler) (crawl : Json) (base : String) (bounds : Bounds)
    (before : List String) (s : Surroundings) :
    ((start base before s).walk bounds base (crawler.visit crawl base)).Gathers base :=
  (Frontier.leads_walk bounds base (crawler.visit crawl base) (start base before s)).keeps
    (fun _ _ hf hround => gathers_round hf hround) (gathers_start base before s)

theorem collected_harvest (crawler : Crawler) (crawl : Json) (base : String) (bounds : Bounds)
    (before : List String) (s : Surroundings) :
    Collected base (crawler.harvest crawl base bounds before s) :=
  (crawler.gathers_walk crawl base bounds before s).pages

theorem base_mem_harvest {before : List String}
    (h : url ∈ (crawler.harvest crawl base bounds before s).map Prod.fst) :
    base ∈ (crawler.harvest crawl base bounds before s).map Prod.fst := by
  refine (crawler.gathers_walk crawl base bounds before s).rooted.resolve_right fun hempty => ?_
  simp [harvest, hempty.1] at h

end Crawler

/-! ## Parents and children -/

def LinkedFrom (links : List ChildLink) (source target : Json) : Prop :=
  ∃ link ∈ links, link.source = source ∧ link.target = target

/-- Links between some pages that give every page at most one parent and put no
page above itself. -/
structure IsForest (ids : List Json) (links : List ChildLink) : Prop where
  ends : ∀ link ∈ links, link.source ∈ ids ∧ link.target ∈ ids
  oneParent : (links.map ChildLink.target).Nodup
  acyclic : ∀ id, ¬ Relation.TransGen (LinkedFrom links) id id

def Shorter (pages : Stored) (source target : Json) : Prop :=
  ∃ above ∈ pages, ∃ below ∈ pages, above.2 = source ∧ below.2 = target ∧
    above.1.length < below.1.length

variable {base : String} {pages : Stored}

theorem exists_page_of_mem_hierarchy (h : link ∈ hierarchy pages base) :
    ∃ page ∈ pages, clean page.1 ≠ clean base ∧ page.2 = link.target ∧
      (parent pages base (segments base page.1), link.source) ∈ pages := by
  obtain ⟨page, hpage, hlink⟩ := List.mem_filterMap.mp h
  obtain ⟨hne, name, source, -, hsource, rfl⟩ := (childLink?_eq_some_iff _ _ _ _).mp hlink
  exact ⟨page, hpage, hne, rfl, Fields.mem_of_get? hsource⟩

theorem shorter_of_mem_hierarchy (hcollected : Collected base pages)
    (h : link ∈ hierarchy pages base) : Shorter pages link.source link.target := by
  obtain ⟨page, hpage, hne, htarget, hsource⟩ := exists_page_of_mem_hierarchy h
  have hstarts := (hcollected.collectable page.1 (List.mem_map_of_mem hpage)).starts
  refine ⟨_, hsource, page, hpage, rfl, htarget, ?_⟩
  calc (parent pages base (segments base page.1)).length
      < (clean page.1).length := length_parent_lt pages hstarts hne
    _ ≤ page.1.length := by
      exact (clean_prefix_self page.1).length_le

theorem Shorter.trans (hids : (pages.map Prod.snd).Nodup) {first second third : Json}
    (h : Shorter pages first second) (h' : Shorter pages second third) :
    Shorter pages first third := by
  obtain ⟨top, htop, middle, hmiddle, rfl, rfl, hlt⟩ := h
  obtain ⟨middle', hmiddle', bottom, hbottom, hsame, rfl, hlt'⟩ := h'
  cases List.inj_on_of_nodup_map hids hmiddle' hmiddle hsame
  exact ⟨top, htop, bottom, hbottom, rfl, rfl, hlt.trans hlt'⟩

theorem Shorter.irrefl (hids : (pages.map Prod.snd).Nodup) (id : Json) : ¬ Shorter pages id id := by
  rintro ⟨above, habove, below, hbelow, rfl, hsame, hlt⟩
  cases List.inj_on_of_nodup_map hids hbelow habove hsame
  exact Nat.lt_irrefl _ hlt

theorem shorter_of_transGen (hcollected : Collected base pages) (hids : (pages.map Prod.snd).Nodup)
    {source target : Json} (h : Relation.TransGen (LinkedFrom (hierarchy pages base)) source target) :
    Shorter pages source target := by
  have hlink {source target : Json} (h : LinkedFrom (hierarchy pages base) source target) :
      Shorter pages source target := by
    obtain ⟨link, hmem, rfl, rfl⟩ := h
    exact shorter_of_mem_hierarchy hcollected hmem
  induction h with
  | single h => exact hlink h
  | tail _ h ih => exact ih.trans hids (hlink h)

theorem targets_sublist (pages pages' : Stored) (base : String) :
    ((pages.filterMap (childLink? pages' base)).map ChildLink.target).Sublist
      (pages.map Prod.snd) := by
  induction pages with
  | nil => simp
  | cons page pages ih =>
    cases hlink : childLink? pages' base page with
    | none =>
      rw [List.filterMap_cons_none hlink]
      exact ih.cons _
    | some =>
      obtain ⟨-, name, source, -, -, rfl⟩ := (childLink?_eq_some_iff _ _ _ _).mp hlink
      rw [List.filterMap_cons_some hlink]
      exact ih.cons_cons _

/-! ## The forest -/

/-- Whatever a crawl collects under different identifiers, the links that are
sent make a forest, and nothing is above the base. -/
theorem forest_of_collected (base : String) :
    (∀ (crawler : Crawler) (crawl : Json) (bounds : Bounds) (before : List String)
      (s : Surroundings), Collected base (crawler.harvest crawl base bounds before s)) ∧
    ∀ pages, Collected base pages → (pages.map Prod.snd).Nodup →
      (∀ s, (linkHierarchy pages base s).2.log =
        ((hierarchy pages base).map ChildLink.event).reverse ++ s.log) ∧
      IsForest (pages.map Prod.snd) (hierarchy pages base) ∧
      ∀ link ∈ hierarchy pages base, ∀ page ∈ pages,
        clean page.1 = clean base → link.target ≠ page.2 := by
  constructor
  · intro crawler crawl bounds before s
    exact crawler.collected_harvest crawl base bounds before s
  intro pages hcollected hids
  refine ⟨log_linkHierarchy pages base, ⟨?_, ?_, ?_⟩, ?_⟩
  · intro link hlink
    obtain ⟨page, hpage, -, htarget, hsource⟩ := exists_page_of_mem_hierarchy hlink
    constructor
    · exact List.mem_map_of_mem hsource
    · rw [← htarget]
      exact List.mem_map_of_mem hpage
  · exact hids.sublist (targets_sublist pages pages base)
  · intro id hcycle
    exact Shorter.irrefl hids id (shorter_of_transGen hcollected hids hcycle)
  · intro link hlink page hpage hbase htarget
    obtain ⟨other, hother, hne, hsame, -⟩ := exists_page_of_mem_hierarchy hlink
    cases List.inj_on_of_nodup_map hids hother hpage (hsame.trans htarget)
    exact hne hbase

def tangledPages : Stored :=
  [("https://shop.com", .str "home"), ("https://shop.com/a//b", .str "b"),
    ("https://shop.com/a", .str "a"), ("https://shop.com.au/a", .str "elsewhere"),
    ("https://shop.com/a/https://shop.com/c", .str "c"), ("https://shop.com/.au", .str "au")]

theorem tangledPages_collected : Collected "https://shop.com" tangledPages := by
  have hlinks : ∀ url ∈ tangledPages.map Prod.fst, url = "https://shop.com" ∨
      Text.startsWith "https://shop.com" url = true ∧ url = clean url := by decide +kernel
  refine ⟨by decide +kernel, fun url hurl => ?_⟩
  rcases hlinks url hurl with heq | ⟨hstarts, hclean⟩
  · exact Or.inl heq
  · exact Or.inr ⟨url, (Text.startsWith_iff _ _).mp hstarts, hclean⟩

theorem forest_of_tangledPages :
    Collected "https://shop.com" tangledPages ∧ (tangledPages.map Prod.snd).Nodup ∧
      (hierarchy tangledPages "https://shop.com").map ChildLink.text = ["b", "a", "a", "c", ".au"] ∧
      IsForest (tangledPages.map Prod.snd) (hierarchy tangledPages "https://shop.com") := by
  have hids : (tangledPages.map Prod.snd).Nodup := by simp [tangledPages]
  exact ⟨tangledPages_collected, hids, by decide +kernel,
    ((forest_of_collected "https://shop.com").2 tangledPages tangledPages_collected hids).2.1⟩

end Sitecheck.Crawl
