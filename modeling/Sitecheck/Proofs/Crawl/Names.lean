import Mathlib.Data.List.Flatten
import Sitecheck.Proofs.Crawl.Address

/-!
# Names of a path

A path is cut into names at its slashes.  Names spell a path again unless a slash
is doubled in it: `spelled_names_eq_self`.  The stem of a path is what stands
before its last name.
-/

namespace Sitecheck.Crawl

variable {path name front : List Char}

/-! ## Names and spelling -/

def names (path : List Char) : List (List Char) := (Chars.splitOn ['/'] path).filter (· ≠ [])

def spelled (names : List (List Char)) : List Char := names.flatMap ('/' :: ·)

@[simp] theorem spelled_nil : spelled [] = [] := rfl

@[simp] theorem spelled_cons (name : List Char) (names : List (List Char)) :
    spelled (name :: names) = '/' :: name ++ spelled names := by
  simp [spelled]

@[simp] theorem spelled_append (front rest : List (List Char)) :
    spelled (front ++ rest) = spelled front ++ spelled rest := by
  simp [spelled]

theorem spelled_eq_cons_join {parts : List (List Char)} (h : parts ≠ []) :
    spelled parts = '/' :: Chars.join ['/'] parts := by
  induction parts with
  | nil => exact absurd rfl h
  | cons part parts ih =>
    cases parts with
    | nil => simp [Chars.join]
    | cons =>
      rw [spelled_cons, ih (by simp)]
      simp [Chars.join]

theorem spelled_splitOn (path : List Char) : spelled (Chars.splitOn ['/'] path) = '/' :: path := by
  rw [spelled_eq_cons_join (Chars.splitOn_ne_nil _ _), Chars.join_splitOn]

theorem ne_nil_of_mem_names (h : name ∈ names path) : name ≠ [] := by
  simpa using (List.mem_filter.mp h).2

theorem slash_not_mem_of_mem_names (h : name ∈ names path) : '/' ∉ name :=
  Chars.not_mem_of_mem_splitOn_singleton (List.mem_filter.mp h).1

@[simp] theorem names_nil : names [] = [] := by
  simp [names, Chars.splitOn_nil]

theorem names_append (front rest : List Char) :
    names (front ++ '/' :: rest) = names front ++ names rest := by
  simp [names, Chars.splitOn_singleton_append]

theorem spelled_names_sublist (path : List Char) : (spelled (names path)).Sublist ('/' :: path) := by
  rw [← spelled_splitOn path]
  exact List.filter_sublist.flatMap _

theorem two_le_length_spelled {names : List (List Char)} (hne : names ≠ [])
    (h : ∀ name ∈ names, name ≠ []) : 2 ≤ (spelled names).length := by
  obtain ⟨name, others, rfl⟩ := List.exists_cons_of_ne_nil hne
  have hpos := List.length_pos_iff.mpr (h name List.mem_cons_self)
  simp only [spelled_cons, List.cons_append, List.length_cons, List.length_append]
  omega

theorem segments_eq (base url : String) :
    segments base url =
      (names (Chars.replace (clean base).toList [] (clean url).toList)).map String.ofList := by
  have hempty (part : List Char) : (String.ofList part != "") = decide (part ≠ []) := by
    rw [Bool.eq_iff_iff]
    simp
  simp [segments, names, Text.splitOn, Text.replace, List.filter_map, Function.comp_def, hempty]

/-! ## Paths that their names spell -/

@[simp] theorem names_cons_slash (path : List Char) : names ('/' :: path) = names path := by
  simpa using names_append [] path

theorem names_of_slash_not_mem (hne : name ≠ []) (h : '/' ∉ name) : names name = [name] := by
  have hcut : Chars.cut? ['/'] name = none := by
    rcases Chars.cut?_singleton_cases '/' name with ⟨hnone, -⟩ | ⟨front, rest, -, rfl, -⟩
    · exact hnone
    · simp at h
  simp [names, Chars.splitOn_of_cut?_none hcut, hne]

theorem count_spelled {names : List (List Char)} (h : ∀ name ∈ names, '/' ∉ name) :
    (spelled names).count '/' = names.length := by
  induction names with
  | nil => rfl
  | cons name names ih =>
    have hname := List.count_eq_zero.mpr (h name List.mem_cons_self)
    have hnames := ih fun other hother => h other (List.mem_cons_of_mem _ hother)
    simp [List.count_append, hname, hnames]

theorem length_names_le_count (path : List Char) : (names path).length ≤ path.count '/' + 1 := by
  have hparts : ∀ part ∈ Chars.splitOn ['/'] path, '/' ∉ part :=
    fun part hpart => Chars.not_mem_of_mem_splitOn_singleton hpart
  have hcount := count_spelled hparts
  rw [spelled_splitOn, List.count_cons_self] at hcount
  rw [hcount]
  exact List.length_filter_le _ _

private theorem infix_of_infix_append {c : Char} {pattern text : List Char} (hfront : c ∉ front)
    (h : c :: pattern <:+: front ++ text) : c :: pattern <:+: text := by
  induction front with
  | nil => exact h
  | cons d front ih =>
    simp only [List.mem_cons, not_or] at hfront
    rcases List.infix_cons_iff.mp h with hstarts | hlater
    · exact absurd (List.cons_prefix_cons.mp hstarts).1 hfront.1
    · exact ih hfront.2 hlater

theorem not_infix_spelled {names : List (List Char)} (h : ∀ name ∈ names, name ≠ [] ∧ '/' ∉ name) :
    ¬ ['/', '/'] <:+: spelled names := by
  induction names with
  | nil => simp
  | cons name names ih =>
    obtain ⟨hne, hslash⟩ := h name List.mem_cons_self
    rw [spelled_cons, List.cons_append, List.infix_cons_iff, not_or]
    constructor
    · obtain ⟨c, rest, rfl⟩ := List.exists_cons_of_ne_nil hne
      intro hstarts
      have hc : '/' = c := by simpa using hstarts
      exact hslash (hc ▸ List.mem_cons_self)
    · intro hlater
      exact ih (fun other hother => h other (List.mem_cons_of_mem _ hother))
        (infix_of_infix_append hslash hlater)

theorem spelled_names_eq_self (hfirst : ∀ c ∈ path.head?, c = '/')
    (hlast : path.getLast? ≠ some '/') (hsingle : ¬ ['/', '/'] <:+: path) :
    spelled (names path) = path := by
  cases path with
  | nil => simp
  | cons c path =>
    obtain rfl : c = '/' := hfirst c rfl
    have hparts : ∀ part ∈ Chars.splitOn ['/'] path, part ≠ [] := by
      rintro part hpart rfl
      -- an empty part stands between two slashes or behind the last one
      obtain ⟨front, rest, hsplit⟩ := List.append_of_mem hpart
      have hpath := spelled_splitOn path
      rw [hsplit, spelled_append, spelled_cons] at hpath
      cases rest with
      | nil =>
        apply hlast
        rw [← hpath]
        simp
      | cons next rest =>
        apply hsingle
        rw [← hpath]
        exact ⟨spelled front, next ++ spelled rest, by simp⟩
    rw [names_cons_slash, names, List.filter_eq_self.mpr (by simpa using hparts), spelled_splitOn]

/-! ## The last name of a path -/

def stem (path : List Char) : List Char := (path.rdropWhile (· ≠ '/')).rdropWhile (· = '/')

def lastName (path : List Char) : List Char := path.rtakeWhile (· ≠ '/')

theorem slash_not_mem_lastName (path : List Char) : '/' ∉ lastName path := by
  intro hmem
  simpa using List.mem_rtakeWhile_imp hmem

theorem lastName_append {rest : List Char} (h : '/' ∈ rest) (front : List Char) :
    lastName (front ++ rest) = lastName rest := by
  have hstops : (rest.reverse.takeWhile (· ≠ '/')).length ≠ rest.reverse.length := by
    intro hlength
    have hall := (List.takeWhile_prefix (· ≠ '/')).eq_of_length hlength
    simpa using List.takeWhile_eq_self_iff.mp hall '/' (by simpa using h)
  simp only [lastName, List.rtakeWhile, List.reverse_append]
  rw [List.takeWhile_append, if_neg hstops]

theorem getLast?_stem (path : List Char) : (stem path).getLast? ≠ some '/' := by
  intro hlast
  simpa using Chars.getLast?_rdropWhile (· = '/') _ _ hlast

theorem eq_stem_append (h : '/' ∈ path) :
    ∃ slashes, path = stem path ++ '/' :: (slashes ++ lastName path) ∧ ∀ c ∈ slashes, c = '/' := by
  have hpath : path.rdropWhile (· ≠ '/') ++ lastName path = path :=
    List.rdropWhile_append_rtakeWhile
  have hfront : stem path ++ (path.rdropWhile (· ≠ '/')).rtakeWhile (· = '/') =
      path.rdropWhile (· ≠ '/') :=
    List.rdropWhile_append_rtakeWhile
  have hslashes : ∀ c ∈ (path.rdropWhile (· ≠ '/')).rtakeWhile (· = '/'), c = '/' := by
    intro c hc
    simpa using List.mem_rtakeWhile_imp hc
  cases hrun : (path.rdropWhile (· ≠ '/')).rtakeWhile (· = '/') with
  | nil =>
    -- what is left before the last name ends with a slash
    have hne : path.rdropWhile (· ≠ '/') ≠ [] := by
      rw [Ne, List.rdropWhile_eq_nil_iff]
      intro hall
      simpa using hall '/' h
    have hends := List.rdropWhile_last_not _ _ hne
    exact absurd (List.rtakeWhile_eq_nil_iff.mp hrun hne) (by simpa using hends)
  | cons c slashes =>
    rw [hrun] at hfront hslashes
    obtain rfl : c = '/' := hslashes c List.mem_cons_self
    refine ⟨slashes, ?_, fun d hd => hslashes d (List.mem_cons_of_mem _ hd)⟩
    rw [← List.cons_append, ← List.append_assoc, hfront, hpath]

theorem stem_slash_prefix_self (h : '/' ∈ path) : stem path ++ ['/'] <+: path := by
  obtain ⟨slashes, hpath, -⟩ := eq_stem_append h
  exact ⟨slashes ++ lastName path, by rw [List.append_assoc]; exact hpath.symm⟩

theorem prefix_stem (h : front ++ ['/'] <+: path) (hlast : front.getLast? ≠ some '/') :
    front <+: stem path := by
  have hname := Chars.rdropWhile_mono h (· ≠ '/')
  rw [List.rdropWhile_concat_neg _ _ _ (by simp)] at hname
  have hslashes := Chars.rdropWhile_mono hname (· = '/')
  rw [List.rdropWhile_concat_pos _ _ _ (by simp)] at hslashes
  rwa [rdropWhile_slash_of_getLast? hlast] at hslashes

theorem names_append_slashes {slashes : List Char} (h : ∀ c ∈ slashes, c = '/') (path : List Char) :
    names (slashes ++ path) = names path := by
  induction slashes with
  | nil => rfl
  | cons c slashes ih =>
    obtain rfl : c = '/' := h c List.mem_cons_self
    rw [List.cons_append, names_cons_slash, ih fun d hd => h d (List.mem_cons_of_mem _ hd)]

theorem names_eq_concat (h : '/' ∈ path) (hlast : path.getLast? ≠ some '/') :
    names path = names (stem path) ++ [lastName path] := by
  obtain ⟨slashes, hpath, hslashes⟩ := eq_stem_append h
  have hne : lastName path ≠ [] := by
    intro hnil
    have hpathNe := List.ne_nil_of_mem h
    have hends := List.rtakeWhile_eq_nil_iff.mp hnil hpathNe
    apply hlast
    rw [List.getLast?_eq_some_getLast hpathNe]
    simpa using hends
  calc names path
      = names (stem path ++ '/' :: (slashes ++ lastName path)) := congrArg names hpath
    _ = names (stem path) ++ names (lastName path) := by
      rw [names_append, names_append_slashes hslashes]
    _ = names (stem path) ++ [lastName path] := by
      rw [names_of_slash_not_mem hne (slash_not_mem_lastName path)]

end Sitecheck.Crawl
