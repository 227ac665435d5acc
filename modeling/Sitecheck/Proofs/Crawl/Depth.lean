import Sitecheck.Proofs.Crawl.Names

/-!
# Depths of addresses

The depth of an address below a base is the number of names in its path.  The slashes
behind the path and all that its query and its fragment say make no difference.
-/

namespace Sitecheck.Crawl

variable {base : String} {names : List String} {parts : List (List Char)} {front : List Char}

/-! ## Addresses below a base -/

/-- A name between the slashes of a path. -/
structure IsSegment (name : String) : Prop where
  nonempty : name ≠ ""
  noSlash : '/' ∉ name.toList
  noFragment : '#' ∉ name.toList
  noQuery : '?' ∉ name.toList

theorem forall_toList_of_isSegment (h : ∀ name ∈ names, IsSegment name) :
    ∀ part ∈ names.map String.toList, part ≠ [] ∧ '/' ∉ part := by
  intro part hpart
  obtain ⟨name, hname, rfl⟩ := List.mem_map.mp hpart
  exact ⟨by simpa using (h name hname).nonempty, (h name hname).noSlash⟩

def marked (mark : String) : Option String → String
  | none => ""
  | some text => mark ++ text

def addressBelow (base : String) (names : List String) (slashes : Nat)
    (query fragment : Option String) : String :=
  base ++ "/" ++ Text.join "/" names ++ Text.repeated slashes '/' ++
    marked "?" query ++ marked "#" fragment

theorem toList_addressBelow (base : String) (names : List String) (slashes : Nat)
    (query fragment : Option String) :
    ∃ ending, (addressBelow base names slashes query fragment).toList =
        base.toList ++ spelled (names.map String.toList) ++ ending ++
          (marked "?" query ++ marked "#" fragment).toList ∧
      ∀ c ∈ ending, c = '/' := by
  by_cases hnames : names = []
  · -- the slash behind the base counts among those at the end
    refine ⟨List.replicate (slashes + 1) '/', ?_, fun c hc => List.eq_of_mem_replicate hc⟩
    simp [hnames, addressBelow, Text.join, Chars.join, Text.repeated, List.replicate_succ]
  · refine ⟨List.replicate slashes '/', ?_, fun c hc => List.eq_of_mem_replicate hc⟩
    rw [spelled_eq_cons_join (by simpa using hnames)]
    simp [addressBelow, Text.join, Text.repeated]

/-! ## Cleaning and cutting them -/

theorem names_spelled (h : ∀ part ∈ parts, part ≠ [] ∧ '/' ∉ part) :
    Crawl.names (spelled parts) = parts := by
  induction parts using List.reverseRecOn with
  | nil => simp [spelled]
  | append_singleton parts part ih =>
    obtain ⟨hne, hslash⟩ := h part (by simp)
    have hlast : spelled [part] = '/' :: part := by simp [spelled]
    rw [spelled_append, hlast, names_append, names_of_slash_not_mem hne hslash,
      ih fun other hother => h other (List.mem_append_left _ hother)]

theorem getLast?_append_spelled (hfront : front.getLast? ≠ some '/')
    (h : ∀ part ∈ parts, part ≠ [] ∧ '/' ∉ part) :
    ∀ c ∈ (front ++ spelled parts).getLast?, c ≠ '/' := by
  rintro c hc rfl
  rcases List.eq_nil_or_concat' parts with rfl | ⟨others, part, rfl⟩
  · exact hfront (by simpa [spelled] using hc)
  · obtain ⟨hne, hslash⟩ := h part (by simp)
    have hends : front ++ spelled (others ++ [part]) = front ++ spelled others ++ ['/'] ++ part := by
      simp [spelled]
    rw [hends, List.getLast?_append_of_ne_nil _ hne] at hc
    exact hslash (List.mem_of_getLast? hc)

theorem toList_clean_addressBelow (hbase : IsClean base) (h : ∀ name ∈ names, IsSegment name)
    (slashes : Nat) (query fragment : Option String) :
    (clean (addressBelow base names slashes query fragment)).toList =
      base.toList ++ spelled (names.map String.toList) := by
  obtain ⟨ending, haddress, hending⟩ := toList_addressBelow base names slashes query fragment
  have hpath : ∀ c ∈ base.toList ++ spelled (names.map String.toList) ++ ending,
      c ≠ '#' ∧ c ≠ '?' := by
    intro c hc
    simp only [List.mem_append, spelled, List.mem_flatMap, List.mem_map, List.mem_cons] at hc
    obtain (hc | ⟨_, ⟨name, hname, rfl⟩, rfl | hc⟩) | hc := hc
    · exact ⟨fun heq => hbase.noFragment (heq ▸ hc), fun heq => hbase.noQuery (heq ▸ hc)⟩
    · decide
    · exact ⟨fun heq => (h name hname).noFragment (heq ▸ hc),
        fun heq => (h name hname).noQuery (heq ▸ hc)⟩
    · rw [hending c hc]
      decide
  have hcut : ((marked "?" query ++ marked "#" fragment).toList.takeWhile (· ≠ '#')).takeWhile
      (· ≠ '?') = [] := by
    cases query with
    | none => cases fragment <;> simp [marked]
    | some => simp [marked]
  have hlast : ∀ c ∈ (base.toList ++ spelled (names.map String.toList)).getLast?,
      decide (c = '/') = false := fun c hc =>
    decide_eq_false (getLast?_append_spelled hbase.noSlash (forall_toList_of_isSegment h) c hc)
  rw [toList_clean, haddress,
    List.takeWhile_append_of_pos fun c hc => decide_eq_true (hpath c hc).1,
    List.takeWhile_append_of_pos fun c hc => decide_eq_true (hpath c hc).2, hcut, List.append_nil,
    Chars.rdropWhile_append hlast, List.rdropWhile_eq_nil_iff.mpr (by simpa using hending),
    List.append_nil]

/-- The depth of an address is the number of names between its base and its query. -/
theorem depth_addressBelow (hroot : ['/', '/'] <:+: base.toList) (hbase : IsClean base)
    (h : ∀ name ∈ names, IsSegment name) (slashes : Nat) (query fragment : Option String) :
    depth (addressBelow base names slashes query fragment) base = names.length := by
  have hparts := forall_toList_of_isSegment h
  have hclean := toList_clean_addressBelow hbase h slashes query fragment
  have hne : base.toList ≠ [] := by
    rintro hnil
    simp [hnil] at hroot
  -- the base stands nowhere in the path, since no two slashes meet there
  have honce : ¬ base.toList <:+: spelled (names.map String.toList) :=
    fun hinfix => not_infix_spelled hparts (hroot.trans hinfix)
  have hstarts : Text.startsWith (clean base)
      (clean (addressBelow base names slashes query fragment)) = true := by
    rw [Text.startsWith_iff, clean_eq_self_of_isClean hbase, hclean]
    exact List.prefix_append _ _
  rw [depth, if_pos hstarts, segments_eq, clean_eq_self_of_isClean hbase, hclean,
    Chars.replace_of_cut? hne (Chars.cut?_append hne _), Chars.replace_of_not_infix honce]
  simp [names_spelled hparts]

/-- A query with the base in it and the slashes before it add nothing. -/
theorem depth_addressBelow_shop :
    depth "https://a.co/shop/tea/bags///?next=https://a.co/x/y#/top" "https://a.co" = 3 := by
  have hname (name : String) (hname : name ∈ ["shop", "tea", "bags"]) : IsSegment name := by
    simp only [List.mem_cons, List.not_mem_nil, or_false] at hname
    rcases hname with rfl | rfl | rfl <;> exact ⟨by decide, by decide, by decide, by decide⟩
  exact depth_addressBelow ⟨"https:".toList, "a.co".toList, by decide⟩
    ⟨by decide, by decide, by decide⟩ hname 3 (some "next=https://a.co/x/y") (some "/top")

end Sitecheck.Crawl
