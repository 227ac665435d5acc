import Mathlib.Data.List.Nodup
import Sitecheck.Proofs.Crawl.Visit
import Sitecheck.Proofs.Json.Plain

/-!
# The links of a page

Texts are ordered by their code points, and two texts that stand at or before each other
are the same text.  So the links that are followed from a page are told by their set: they
do not depend on the order in which the page names them, or on how often it does.
-/

namespace Sitecheck

namespace Text

variable {point other text rest : List Char} {d : Char} {first second : String}

/-! ## The order of texts -/

theorem charsOf_marked (h : isMarked d = true) : charsOf (code [mark, d]) = [mark, d] := by
  unfold code
  by_cases hmark : d = mark
  · rw [hmark]
    exact charsOf_mark
  · have hrange : 0xe000 ≤ d.toNat ∧ d.toNat ≤ 0xe7ff := by
      simpa [isMarked, hmark, half?] using h
    have hhalf : isHalf (d.toNat - 0x800) = true := by
      simp only [isHalf, Bool.and_eq_true, decide_eq_true_eq]
      omega
    have hback : d.toNat - 0x800 + 0x800 = d.toNat := by omega
    simp [half?, hrange, charsOf, hhalf, hback]

theorem charsOf_code (h : point ∈ points text) (hne : point ≠ [mark]) :
    charsOf (code point) = point := by
  obtain ⟨c, rfl⟩ | ⟨d, hd, rfl⟩ := Json.mem_points_cases h
  · exact charsOf_toNat fun hc => hne (by rw [hc])
  · exact charsOf_marked hd

theorem eq_of_rank (hpoint : point ∈ points text) (hother : other ∈ points rest)
    (h : rank point = rank other) : point = other := by
  have hlt := Json.code_lt point
  have hlt' := Json.code_lt other
  unfold rank at h
  split_ifs at h with hmark hmark' hmark'
  · rw [hmark, hmark']
  · omega
  · omega
  · rw [← charsOf_code hpoint hmark, h, charsOf_code hother hmark']

theorem ranks_injective : Function.Injective ranks := by
  intro first second h
  have hpoints (front rest : List (List Char)) (hfront : ∀ point ∈ front, point ∈ points first.toList)
      (hrest : ∀ point ∈ rest, point ∈ points second.toList) (h : front.map rank = rest.map rank) :
      front = rest := by
    induction front generalizing rest with
    | nil => simpa using h.symm
    | cons point front ih =>
      cases rest with
      | nil => simp at h
      | cons other rest =>
        simp only [List.map_cons, List.cons.injEq, List.forall_mem_cons] at h hfront hrest
        rw [eq_of_rank hfront.1 hrest.1 h.1, ih rest hfront.2 hrest.2 h.2]
  rw [← String.toList_inj, ← flatten_points first.toList, ← flatten_points second.toList,
    hpoints _ _ (fun _ h => h) (fun _ h => h) h]

theorem atOrBefore_iff (first second : String) :
    atOrBefore first second = true ↔ ¬ List.Lex (· < ·) (ranks second) (ranks first) := by
  simp [atOrBefore, ← Bool.not_eq_true, List.lex_eq_true_iff_lex]

theorem atOrBefore_antisymm (h : atOrBefore first second = true)
    (h' : atOrBefore second first = true) : first = second := by
  rw [atOrBefore_iff] at h h'
  exact ranks_injective (List.le_antisymm h h')

theorem pairwise_mergeSort (texts : List String) :
    (texts.mergeSort fun x y => atOrBefore x y).Pairwise fun x y => atOrBefore x y = true := by
  apply List.pairwise_mergeSort
  · intro first second third h h'
    rw [atOrBefore_iff] at h h' ⊢
    exact List.le_trans h h'
  · intro first second
    rw [Bool.or_eq_true, atOrBefore_iff, atOrBefore_iff]
    exact List.le_total _ _

end Text

namespace Crawl

variable {base : String} {links others hrefs hrefs' visited visited' : List String}

/-! ## Sorted links -/

theorem pairwise_eraseDups {R : String → String → Prop} :
    ∀ {links : List String}, links.Pairwise R → links.eraseDups.Pairwise fun x y => R x y ∧ x ≠ y
  | [], _ => by simp
  | link :: links, h => by
    obtain ⟨hfirst, hrest⟩ := List.pairwise_cons.mp h
    rw [List.eraseDups_cons, List.pairwise_cons]
    refine ⟨?_, pairwise_eraseDups (hrest.filter _)⟩
    intro later hlater
    rw [List.mem_eraseDups, List.mem_filter] at hlater
    exact ⟨hfirst later hlater.1, fun heq => by simp [heq] at hlater⟩
termination_by links => links.length
decreasing_by exact Nat.lt_succ_of_le (List.length_filter_le _ _)

theorem pairwise_distinctSorted (links : List String) :
    (distinctSorted links).Pairwise fun x y => Text.atOrBefore x y = true ∧ x ≠ y :=
  pairwise_eraseDups (Text.pairwise_mergeSort links)

theorem sorted_distinctSorted (links : List String) :
    (distinctSorted links).Pairwise fun x y => Text.atOrBefore x y = true :=
  (pairwise_distinctSorted links).imp And.left

theorem nodup_distinctSorted (links : List String) : (distinctSorted links).Nodup :=
  (pairwise_distinctSorted links).imp And.right

theorem distinctSorted_congr (h : ∀ link, link ∈ links ↔ link ∈ others) :
    distinctSorted links = distinctSorted others := by
  apply List.Perm.eq_of_pairwise (fun _ _ _ _ => Text.atOrBefore_antisymm)
    (sorted_distinctSorted links) (sorted_distinctSorted others)
  rw [List.perm_ext_iff_of_nodup (nodup_distinctSorted links) (nodup_distinctSorted others)]
  intro link
  rw [mem_distinctSorted, mem_distinctSorted, h]

/-! ## Internal links -/

open Crawler

theorem internalLinks_eq (base : String) (visited hrefs : List String) :
    internalLinks base visited hrefs =
      distinctSorted ((hrefs.filterMap (internal? base visited)).filter (depth · base ≤ topDepth)) ++
        distinctSorted
          ((hrefs.filterMap (internal? base visited)).filter (¬ depth · base ≤ topDepth)) := by
  simp only [internalLinks, List.partition_eq_filter_filter, Function.comp_def, decide_not]

theorem exists_groups (base : String) (visited hrefs : List String) :
    ∃ top deeper, internalLinks base visited hrefs = top ++ deeper ∧
      (∀ link ∈ top, depth link base ≤ 2) ∧ (∀ link ∈ deeper, 2 < depth link base) ∧
      (top.Nodup ∧ deeper.Nodup) ∧ top.Pairwise (Text.atOrBefore · ·) ∧
      deeper.Pairwise (Text.atOrBefore · ·) := by
  refine ⟨_, _, internalLinks_eq base visited hrefs, ?_, ?_,
    ⟨nodup_distinctSorted _, nodup_distinctSorted _⟩, sorted_distinctSorted _,
    sorted_distinctSorted _⟩
  · intro link hlink
    rw [mem_distinctSorted, List.mem_filter] at hlink
    exact of_decide_eq_true hlink.2
  · intro link hlink
    rw [mem_distinctSorted, List.mem_filter] at hlink
    exact not_le.mp (of_decide_eq_true hlink.2)

theorem internalLinks_congr (hvisited : ∀ url, url ∈ visited ↔ url ∈ visited')
    (hhrefs : ∀ href, href ∈ hrefs ↔ href ∈ hrefs') (base : String) :
    internalLinks base visited hrefs = internalLinks base visited' hrefs' := by
  have hlinks (link : String) : link ∈ hrefs.filterMap (internal? base visited) ↔
      link ∈ hrefs'.filterMap (internal? base visited') := by
    simp only [List.mem_filterMap, internal?_eq_some_iff, hvisited, hhrefs]
  rw [internalLinks_eq, internalLinks_eq]
  congr 1 <;> exact distinctSorted_congr fun link => by simp [List.mem_filter, hlinks]

theorem linksOf_of_texts {s : Surroundings} (h : s.browser.current.getHrefs = .ok (.texts hrefs))
    (base : String) (visited : List String) :
    linksOf base visited s = (.ok (internalLinks base visited hrefs), s) := by
  have htexts : (hrefs.map Json.str).mapM (Json.textFor "startswith") = .ok hrefs := by
    clear h
    induction hrefs with
    | nil => rfl
    | cons href hrefs ih =>
      rw [List.map_cons, List.mapM_cons, ih]
      rfl
  have hread : hrefTexts s.browser.current = .ok hrefs := by
    rw [hrefTexts, h]
    exact htexts
  rw [linksOf_apply, hread]
  rfl

/-- The links of a page are the internal ones, each once and cleaned, the upper pages before
the deeper ones and sorted.  Their order on the page and repetitions change nothing. -/
theorem linksOf_exact {s : Surroundings} (hbase : base.toList.getLast? ≠ some '/')
    (h : s.browser.current.getHrefs = .ok (.texts hrefs)) (visited : List String) :
    ∃ links, linksOf base visited s = (.ok links, s) ∧ links.Nodup ∧
      (∀ link, link ∈ links ↔ ∃ href ∈ hrefs, Text.startsWith base href = true ∧
        href ∉ visited ∧ clean href = link ∧ link ≠ base) ∧
      (∀ link ∈ links, clean link = link) ∧
      (∃ top deeper, links = top ++ deeper ∧
        (∀ link ∈ top, depth link base ≤ 2) ∧ (∀ link ∈ deeper, 2 < depth link base) ∧
        top.Pairwise (Text.atOrBefore · ·) ∧ deeper.Pairwise (Text.atOrBefore · ·)) ∧
      ∀ visited' hrefs' t, (∀ url, url ∈ visited' ↔ url ∈ visited) →
        (∀ href, href ∈ hrefs' ↔ href ∈ hrefs) →
        t.browser.current.getHrefs = .ok (.texts hrefs') →
        linksOf base visited' t = (.ok links, t) := by
  have htrim : Text.trimEnd (· = '/') base = base := by
    rw [← String.toList_inj, Text.toList_trimEnd, rdropWhile_slash_of_getLast? hbase]
  obtain ⟨top, deeper, hlinks, htop, hdeeper, ⟨hnodup, hnodup'⟩, hsorted⟩ :=
    exists_groups base visited hrefs
  refine ⟨_, linksOf_of_texts h base visited, ?_, ?_, ?_,
    ⟨top, deeper, hlinks, htop, hdeeper, hsorted⟩, ?_⟩
  · rw [hlinks, List.nodup_append]
    refine ⟨hnodup, hnodup', ?_⟩
    rintro link hlink other hother rfl
    exact absurd (htop link hlink) (not_le.mpr (hdeeper link hother))
  · intro link
    rw [mem_internalLinks, htrim]
  · exact fun link hlink => clean_eq_self_of_isClean (isClean_of_mem_internalLinks hlink)
  · intro visited' hrefs' t hvisited hsame h'
    rw [linksOf_of_texts h', internalLinks_congr hvisited hsame]

def shopWindow (hrefs : List String) : Surroundings :=
  { sampleSurroundings restlessWeb with
    browser := ⟨none, restlessWeb, { WebPage.blank with hrefs := .texts hrefs }⟩ }

/-- Of a fragment, a repetition and a page that was visited, one link is left. -/
theorem linksOf_shopWindow :
    ∃ links, linksOf "https://a.co" ["https://a.co/old"]
        (shopWindow ["https://a.co/tea#top", "https://a.co/old", "https://b.co"]) =
          (.ok links, shopWindow ["https://a.co/tea#top", "https://a.co/old", "https://b.co"]) ∧
      links.Nodup ∧ (∀ link, link ∈ links ↔ link = "https://a.co/tea") ∧
      linksOf "https://a.co" ["https://a.co/old"]
        (shopWindow ["https://b.co", "https://a.co/old", "https://a.co/tea#top", "https://b.co"]) =
          (.ok links, shopWindow
            ["https://b.co", "https://a.co/old", "https://a.co/tea#top", "https://b.co"]) := by
  have hbase : "https://a.co".toList.getLast? ≠ some '/' := by decide
  obtain ⟨links, hlinks, hnodup, hmem, -, -, hsame⟩ :=
    linksOf_exact (s := shopWindow ["https://a.co/tea#top", "https://a.co/old", "https://b.co"])
      hbase rfl ["https://a.co/old"]
  refine ⟨links, hlinks, hnodup, fun link => ?_,
    hsame _ _ _ (fun _ => Iff.rfl) (fun href => ?_) rfl⟩
  · have hclean : clean "https://a.co/tea#top" = "https://a.co/tea" := by decide
    have hstarts : Text.startsWith "https://a.co" "https://a.co/tea#top" = true := by decide
    have hother : Text.startsWith "https://a.co" "https://b.co" = false := by decide
    rw [hmem]
    simp only [List.mem_cons, List.not_mem_nil]
    grind
  · grind

end Crawl

end Sitecheck
