import Sitecheck.Crawl.Frontier
import Sitecheck.Crawl.Hierarchy
import Sitecheck.Proofs.Crawl.Names
import Sitecheck.Proofs.Run

/-!
# Ancestors and parents

The ancestors of a page are spelled out from its names, so they grow with the
names that they keep.  The parent of a page is the longest of them that was
crawled, or else the base.
-/

namespace Sitecheck

namespace Crawl

variable {names : List (List Char)} {base url : String}

/-! ## Ancestors -/

theorem toList_ancestor (base : String) (h : names ≠ []) :
    (ancestor base (names.map String.ofList)).toList = (clean base).toList ++ spelled names := by
  simp [ancestor, Text.join, spelled_eq_cons_join h, Function.comp_def]

private theorem mem_drop_range {count length : Nat} :
    count ∈ (List.range length).drop 1 ↔ 0 < count ∧ count < length := by
  rw [List.drop_one, List.tail_range, List.mem_range'_1]
  omega

private theorem toList_ancestor_take (base : String) {count : Nat}
    (h : count ∈ (List.range names.length).drop 1) :
    (ancestor base ((names.map String.ofList).take count)).toList =
      (clean base).toList ++ spelled (names.take count) := by
  have hne : names.take count ≠ [] := by
    rw [← List.length_pos_iff, List.length_take]
    have hcount := mem_drop_range.mp h
    omega
  rw [← List.map_take, toList_ancestor base hne]

theorem mem_ancestors_iff (base url : String) (names : List (List Char)) :
    url ∈ ancestors base (names.map String.ofList) ↔
      ∃ front rest, names = front ++ rest ∧ front ≠ [] ∧ rest ≠ [] ∧
        url.toList = (clean base).toList ++ spelled front := by
  simp only [ancestors, List.mem_map, List.mem_reverse, List.length_map]
  constructor
  · rintro ⟨count, hcount, rfl⟩
    obtain ⟨hpos, hlt⟩ := mem_drop_range.mp hcount
    refine ⟨names.take count, names.drop count, by simp, ?_, by simpa using hlt,
      toList_ancestor_take base hcount⟩
    rw [← List.length_pos_iff, List.length_take]
    omega
  · rintro ⟨front, rest, rfl, hfront, hrest, hurl⟩
    have hcount : front.length ∈ (List.range (front ++ rest).length).drop 1 := by
      rw [mem_drop_range, List.length_append]
      have hpos := List.length_pos_iff.mpr hfront
      have hmore := List.length_pos_iff.mpr hrest
      omega
    refine ⟨front.length, hcount, ?_⟩
    rw [← String.toList_inj, hurl, toList_ancestor_take base hcount, List.take_left]

theorem pairwise_ancestors (base : String) (names : List (List Char)) :
    (ancestors base (names.map String.ofList)).Pairwise fun near far => far.length ≤ near.length := by
  rw [ancestors, List.pairwise_map, List.pairwise_reverse, List.length_map]
  refine List.pairwise_lt_range.drop.imp_of_mem fun {few many} hfew hmany hlt => ?_
  have htake : names.take few <+: names.take many :=
    List.take_prefix_take_left (Nat.le_of_lt hlt)
  rw [← String.length_toList, ← String.length_toList, toList_ancestor_take base hfew,
    toList_ancestor_take base hmany, List.length_append, List.length_append]
  exact Nat.add_le_add_left (htake.sublist.flatMap _).length_le _

/-! ## Parents -/

theorem parent_eq_or_mem (pages : Stored) (base : String) (names : List String) :
    parent pages base names = clean base ∨
      parent pages base names ∈ ancestors base names ∧
        parent pages base names ∈ pages.map Prod.fst := by
  rw [parent]
  cases hfind : (ancestors base names).find? (Fields.has · pages) with
  | none => exact Or.inl rfl
  | some found =>
    have hstored : Fields.has found pages = true := by simpa using List.find?_some hfind
    exact Or.inr ⟨List.mem_of_find?_eq_some hfind, Fields.has_iff.mp hstored⟩

theorem length_le_length_parent {pages : Stored}
    (hurl : url ∈ ancestors base (names.map String.ofList)) (hstored : url ∈ pages.map Prod.fst) :
    url.length ≤ (parent pages base (names.map String.ofList)).length := by
  rw [← Fields.has_iff] at hstored
  rw [parent]
  cases hfind : (ancestors base (names.map String.ofList)).find? (Fields.has · pages) with
  | none => simpa [hstored] using List.find?_eq_none.mp hfind url hurl
  | some found =>
    obtain ⟨-, near, far, hsplit, hnear⟩ := List.find?_eq_some_iff_append.mp hfind
    have hpairwise := pairwise_ancestors base names
    rw [hsplit] at hurl hpairwise
    rcases List.mem_append.mp hurl with hurl | hurl
    · -- an ancestor nearer than the one that was found was not crawled
      simpa [hstored] using hnear url hurl
    · rcases List.mem_cons.mp hurl with rfl | hurl
      · exact Nat.le_refl _
      · exact List.rel_of_pairwise_cons (List.pairwise_append.mp hpairwise).2.1 hurl

theorem length_parent_lt (pages : Stored) (hstarts : (clean base).toList <+: (clean url).toList)
    (hne : clean url ≠ clean base) :
    (parent pages base (segments base url)).length < (clean url).length := by
  obtain ⟨rest, hrest⟩ := hstarts
  have hlength : (clean url).length = (clean base).length + rest.length := by
    rw [← String.length_toList, ← hrest, List.length_append, String.length_toList]
  rcases parent_eq_or_mem pages base (segments base url) with heq | ⟨hmem, -⟩
  · have hrestNe : rest ≠ [] := by
      rintro rfl
      exact hne (String.toList_inj.mp (by simpa using hrest.symm))
    have hpos := List.length_pos_iff.mpr hrestNe
    rw [heq]
    omega
  · rw [segments_eq, mem_ancestors_iff] at hmem
    obtain ⟨front, more, hsplit, -, hmore, hparent⟩ := hmem
    -- the names that the parent leaves out outweigh the slash that it may add
    have hspelled := (spelled_names_sublist
      (Chars.replace (clean base).toList [] (clean url).toList)).length_le
    have hpath : (Chars.replace (clean base).toList [] (clean url).toList).length ≤ rest.length := by
      rw [← hrest]
      exact (Chars.replace_append_sublist _ rest).length_le
    have hleft : 2 ≤ (spelled more).length := by
      refine two_le_length_spelled hmore fun name hname => ?_
      exact ne_nil_of_mem_names (hsplit ▸ List.mem_append_right front hname)
    rw [hsplit, spelled_append, List.length_append, List.length_cons] at hspelled
    rw [segments_eq, ← String.length_toList, hparent, List.length_append, String.length_toList]
    omega

/-! ## Links -/

theorem childLink?_eq_some_iff (pages : Stored) (base : String) (page : String × Json)
    (link : ChildLink) :
    childLink? pages base page = some link ↔
      clean page.1 ≠ clean base ∧ ∃ name source, (segments base page.1).getLast? = some name ∧
        Fields.get? (parent pages base (segments base page.1)) pages = some source ∧
          link = ⟨source, page.2, name⟩ := by
  unfold childLink?
  by_cases hclean : clean page.1 = clean base
  · simp [hclean]
  · cases hname : (segments base page.1).getLast? with
    | none => simp [hclean, hname]
    | some name =>
      simp only [beq_iff_eq, hclean, if_false, hname, Option.map_eq_some_iff]
      constructor
      · rintro ⟨source, hsource, rfl⟩
        exact ⟨hclean, name, source, rfl, hsource, rfl⟩
      · rintro ⟨-, name', source, hname', hsource, rfl⟩
        cases hname'
        exact ⟨source, hsource, rfl⟩

def ChildLink.event (link : ChildLink) : Event :=
  .query (Text.collapse Graph.linkPagesQuery)
    [("from_page_id", link.source), ("to_page_id", link.target), ("link_text", .str link.text)]

theorem log_linkHierarchy (pages : Stored) (base : String) (s : Surroundings) :
    (linkHierarchy pages base s).2.log =
      ((hierarchy pages base).map ChildLink.event).reverse ++ s.log := by
  have hsend (link : ChildLink) (s : Surroundings) : ∃ t,
      (discard (Run.attempt (Graph.linkPages link.source link.target (.str link.text))) : Run Unit) s =
        (.ok (), t) ∧ t.log = link.event :: s.log := by
    refine ⟨(Graph.linkPages link.source link.target (.str link.text) s).2, rfl, ?_⟩
    rw [Graph.linkPages, Run.discard_apply]
    exact Run.query_log _ _ s
  unfold linkHierarchy
  induction hierarchy pages base generalizing s with
  | nil => simp
  | cons link links ih =>
    obtain ⟨t, ht, hlog⟩ := hsend link s
    rw [List.forM_eq_forM, List.forM_cons, Run.bind_of_ok ht, ← List.forM_eq_forM, ih, hlog]
    simp

end Crawl

end Sitecheck
