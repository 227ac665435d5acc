import Sitecheck.Crawl.Address
import Sitecheck.Proofs.Text

/-!
# Cleaned addresses and the links that a crawl follows

Cleaning an address a second time changes nothing, and the addresses that
cleaning leaves alone are those without fragment, query and trailing slash.
The links followed from a page are its internal links, each cleaned.
-/

namespace Sitecheck.Crawl

variable {text : List Char} {base : String}

/-! ## Cleaning -/

theorem toList_clean (url : String) :
    (clean url).toList =
      ((url.toList.takeWhile (· ≠ '#')).takeWhile (· ≠ '?')).rdropWhile (· = '/') := by
  simp [clean]

/-- An address without fragment, query and trailing slash. -/
structure IsClean (url : String) : Prop where
  noFragment : '#' ∉ url.toList
  noQuery : '?' ∉ url.toList
  noSlash : url.toList.getLast? ≠ some '/'

private theorem takeWhile_ne_of_not_mem {mark : Char} (h : mark ∉ text) :
    text.takeWhile (· ≠ mark) = text := by
  rw [List.takeWhile_eq_self_iff]
  intro c hc
  simp only [ne_eq, decide_not, Bool.not_eq_eq_eq_not, Bool.not_true, decide_eq_false_iff_not]
  rintro rfl
  exact h hc

theorem rdropWhile_slash_of_getLast? (h : text.getLast? ≠ some '/') :
    text.rdropWhile (· = '/') = text := by
  rw [List.rdropWhile_eq_self_iff]
  intro hne hlast
  apply h
  rw [List.getLast?_eq_some_getLast hne]
  simpa using hlast

theorem clean_eq_self_of_isClean {url : String} (h : IsClean url) : clean url = url := by
  rw [← String.toList_inj, toList_clean, takeWhile_ne_of_not_mem h.noFragment,
    takeWhile_ne_of_not_mem h.noQuery, rdropWhile_slash_of_getLast? h.noSlash]

theorem isClean_clean (url : String) : IsClean (clean url) := by
  have hsub : ∀ c ∈ (clean url).toList,
      c ∈ (url.toList.takeWhile (· ≠ '#')).takeWhile (· ≠ '?') := by
    rw [toList_clean]
    intro c hc
    exact (List.rdropWhile_prefix _ _).subset hc
  refine ⟨?_, ?_, ?_⟩
  · intro hmem
    have hfirst := (List.takeWhile_prefix _).subset (hsub _ hmem)
    simpa using List.mem_takeWhile_imp hfirst
  · intro hmem
    simpa using List.mem_takeWhile_imp (hsub _ hmem)
  · rw [toList_clean]
    intro hlast
    simpa using Chars.getLast?_rdropWhile (· = '/') _ _ hlast

theorem clean_eq_self_iff (url : String) : clean url = url ↔ IsClean url :=
  ⟨fun h => h ▸ isClean_clean url, clean_eq_self_of_isClean⟩

@[simp] theorem clean_clean (url : String) : clean (clean url) = clean url :=
  (clean_eq_self_iff (clean url)).mpr (isClean_clean url)

theorem clean_prefix_self (url : String) : (clean url).toList <+: url.toList := by
  rw [toList_clean]
  exact (List.rdropWhile_prefix _ _).trans
    ((List.takeWhile_prefix _).trans (List.takeWhile_prefix _))

theorem clean_mono {href : String} (h : base.toList <+: href.toList) :
    (clean base).toList <+: (clean href).toList := by
  rw [toList_clean, toList_clean]
  exact Chars.rdropWhile_mono (Chars.takeWhile_mono (Chars.takeWhile_mono h _) _) _

/-! ## Depth -/

@[simp] theorem depth_self (base : String) : depth base base = 0 := by
  have hnone : segments base base = [] := by
    simp only [segments, Text.replace, Text.splitOn]
    have hself : Chars.replace (clean base).toList "".toList (clean base).toList = [] := by
      simpa using Chars.replace_self (clean base).toList
    rw [hself]
    simp [Chars.splitOn_nil]
  simp [depth, hnone]

/-! ## Links -/

theorem mem_distinctSorted (link : String) (links : List String) :
    link ∈ distinctSorted links ↔ link ∈ links := by
  simp [distinctSorted]

theorem internal?_eq_some_iff (base : String) (visited : List String) (href link : String) :
    internal? base visited href = some link ↔
      Text.startsWith base href = true ∧ href ∉ visited ∧ clean href = link ∧
        link ≠ Text.trimEnd (· = '/') base := by
  simp only [internal?]
  split
  · next h =>
    simp only [Bool.and_eq_true, Bool.not_eq_eq_eq_not, Bool.not_true, bne_iff_ne, ne_eq] at h
    simp only [Option.some.injEq]
    constructor
    · rintro rfl
      exact ⟨h.1.1, by simpa using h.1.2, rfl, h.2⟩
    · exact fun hlink => hlink.2.2.1
  · next h =>
    simp only [reduceCtorEq, false_iff]
    rintro ⟨hstarts, hnew, rfl, hne⟩
    apply h
    simp [hstarts, hnew, hne]

theorem mem_internalLinks (base : String) (visited hrefs : List String) (link : String) :
    link ∈ internalLinks base visited hrefs ↔
      ∃ href ∈ hrefs, Text.startsWith base href = true ∧ href ∉ visited ∧ clean href = link ∧
        link ≠ Text.trimEnd (· = '/') base := by
  simp only [internalLinks, List.partition_eq_filter_filter, List.mem_append,
    mem_distinctSorted, List.mem_filter, List.mem_filterMap, internal?_eq_some_iff]
  constructor
  · rintro (⟨hlink, -⟩ | ⟨hlink, -⟩) <;> exact hlink
  · intro hlink
    by_cases hdepth : depth link base ≤ topDepth
    · exact Or.inl ⟨hlink, by simpa using hdepth⟩
    · exact Or.inr ⟨hlink, by simpa using hdepth⟩

theorem isClean_of_mem_internalLinks {visited hrefs : List String} {link : String}
    (h : link ∈ internalLinks base visited hrefs) : IsClean link := by
  obtain ⟨href, -, -, -, rfl, -⟩ := (mem_internalLinks base visited hrefs link).mp h
  exact isClean_clean href

end Sitecheck.Crawl
