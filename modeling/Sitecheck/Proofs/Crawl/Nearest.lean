import Sitecheck.Proofs.Crawl.Forest
import Sitecheck.Proofs.Crawl.Scope

/-!
# Pages hang on their nearest ancestors

The nearest ancestor of a page is the longest address with a page that the
address of the page goes on from with a slash.  Ancestors are searched for by
names, so a page hangs on its nearest ancestor as long as its names spell its
address: the base stands in it once, and no slash is doubled before the last
name.
-/

namespace Sitecheck.Crawl

variable {page : String × Json}

/-! ## Addresses below the base -/

def IsBelow (above url : String) : Prop := above.toList ++ ['/'] <+: url.toList

/-- The base stands in an address once, and no slash is doubled before its last name. -/
structure Straight (base url : String) : Prop where
  once : ¬ base.toList <:+: url.toList.drop base.length
  single : ¬ ['/', '/'] <:+: stem (url.toList.drop base.length)

structure HasPath (base url : String) (path : List Char) : Prop where
  clean : IsClean url
  text : url.toList = base.toList ++ path
  slash : path.head? = some '/'

variable {base url child : String} {path : List Char} {pages : Stored}

theorem IsBelow.length_lt (h : IsBelow base url) : base.length < url.length := by
  have hlength := h.length_le
  rw [List.length_append, String.length_toList, String.length_toList] at hlength
  exact hlength

theorem exists_hasPath (hclean : IsClean url) (h : IsBelow base url) :
    ∃ path, HasPath base url path := by
  obtain ⟨rest, hrest⟩ := h
  exact ⟨'/' :: rest, hclean, by simpa using hrest.symm, rfl⟩

namespace HasPath

variable {front : List Char}

theorem isBelow (h : HasPath base url path) : IsBelow base url := by
  obtain ⟨rest, rfl⟩ := List.head?_eq_some_iff.mp h.slash
  exact ⟨rest, by simp [h.text]⟩

theorem drop_eq (h : HasPath base url path) : url.toList.drop base.length = path := by
  rw [h.text, ← String.length_toList, List.drop_left]

theorem slash_mem (h : HasPath base url path) : '/' ∈ path := List.mem_of_head? h.slash

theorem getLast?_ne (h : HasPath base url path) : path.getLast? ≠ some '/' := by
  intro hlast
  apply h.clean.noSlash
  rw [h.text, List.getLast?_append, hlast]
  rfl

theorem head?_of_prefix (h : HasPath base url path) (hfront : front <+: path) :
    ∀ c ∈ front.head?, c = '/' := by
  obtain ⟨rest, rfl⟩ := hfront
  intro c hc
  have hslash := h.slash
  rw [List.head?_append, hc] at hslash
  exact Option.some.inj hslash

theorem spelled_names_prefix (h : HasPath base url path) (hsingle : ¬ ['/', '/'] <:+: stem path)
    (hfront : front <+: stem path) (hlast : front.getLast? ≠ some '/') :
    spelled (names front) = front := by
  refine spelled_names_eq_self (h.head?_of_prefix ?_) hlast fun hdouble => ?_
  · exact hfront.trans ((List.prefix_append _ _).trans (stem_slash_prefix_self h.slash_mem))
  · exact hsingle (hdouble.trans hfront.isInfix)

end HasPath

theorem segments_of_once (hbase : IsClean base) (h : HasPath base url path)
    (honce : ¬ base.toList <:+: path) : segments base url = (names path).map String.ofList := by
  have hne : base.toList ≠ [] := by
    intro hnil
    exact honce (hnil ▸ List.nil_infix)
  rw [segments_eq, clean_eq_self_of_isClean hbase, clean_eq_self_of_isClean h.clean, h.text,
    Chars.replace_of_cut? hne (Chars.cut?_append hne path), Chars.replace_of_not_infix honce]
  rfl

theorem isBelow_of_mem_ancestors (hbase : IsClean base) (h : HasPath base child path)
    (hsingle : ¬ ['/', '/'] <:+: stem path)
    (hurl : url ∈ ancestors base ((names path).map String.ofList)) : IsBelow url child := by
  rw [mem_ancestors_iff, clean_eq_self_of_isClean hbase] at hurl
  obtain ⟨front, rest, hsplit, -, hrest, htext⟩ := hurl
  have hfront : names (stem path) = front ++ rest.dropLast := by
    have hdrop := congrArg List.dropLast hsplit
    rwa [names_eq_concat h.slash_mem h.getLast?_ne, List.dropLast_concat,
      List.dropLast_append_of_ne_nil hrest] at hdrop
  have hslash : spelled front ++ ['/'] <+: stem path ++ ['/'] := by
    rw [← h.spelled_names_prefix hsingle (List.prefix_refl _) (getLast?_stem path), hfront,
      spelled_append, List.append_assoc, List.prefix_append_right_inj]
    cases rest.dropLast with
    | nil => exact List.prefix_refl _
    | cons => simp
  rw [IsBelow, h.text, htext, List.append_assoc, List.prefix_append_right_inj]
  exact hslash.trans (stem_slash_prefix_self h.slash_mem)

theorem mem_ancestors_of_isBelow (hbase : IsClean base) (h : HasPath base child path)
    (hsingle : ¬ ['/', '/'] <:+: stem path) (hurl : Crawler.Extends base url) (hne : url ≠ base)
    (hbelow : IsBelow url child) : url ∈ ancestors base ((names path).map String.ofList) := by
  obtain ⟨hclean, front, hfront⟩ := hurl
  rw [IsBelow, h.text, ← hfront, List.append_assoc, List.prefix_append_right_inj] at hbelow
  have hlast : front.getLast? ≠ some '/' := by
    intro hlast
    apply hclean.noSlash
    rw [← hfront, List.getLast?_append, hlast]
    rfl
  have hpart := prefix_stem hbelow hlast
  have hspelled := h.spelled_names_prefix hsingle hpart hlast
  obtain ⟨rest, hrest⟩ := hbelow
  have hsplit : names path = names front ++ names rest := by
    rw [← hrest, List.append_assoc]
    exact names_append front rest
  rw [mem_ancestors_iff, clean_eq_self_of_isClean hbase]
  refine ⟨names front, names rest, hsplit, ?_, ?_, by rw [hspelled, hfront]⟩
  · intro hnil
    apply hne
    rw [← String.toList_inj, ← hfront, ← hspelled, hnil]
    simp
  · -- all names would spell more than the stem
    intro hnil
    have hlength := hpart.length_le
    rw [hnil, List.append_nil, names_eq_concat h.slash_mem h.getLast?_ne] at hsplit
    rw [← hspelled, ← hsplit, spelled_append,
      h.spelled_names_prefix hsingle (List.prefix_refl _) (getLast?_stem path)] at hlength
    simp only [spelled_cons, List.cons_append, List.length_append, List.length_cons] at hlength
    omega

/-! ## The nearest ancestor -/

structure IsNearest (pages : Stored) (url nearest : String) : Prop where
  crawled : nearest ∈ pages.map Prod.fst
  above : IsBelow nearest url
  longest : ∀ other ∈ pages.map Prod.fst, IsBelow other url → other.length ≤ nearest.length

def linksFor (pages : Stored) (base url : String) : List ChildLink :=
  (pages.filter (·.1 = url)).filterMap (childLink? pages base)

/-- A page is linked once, from its nearest ancestor and by its last name. -/
def LinkedFromNearest (pages : Stored) (base url : String) : Prop :=
  ∃ id nearest source, (url, id) ∈ pages ∧ IsNearest pages url nearest ∧
    (nearest, source) ∈ pages ∧
    linksFor pages base url = [⟨source, id, String.ofList (lastName url.toList)⟩]

theorem filter_fst_eq (hpages : (pages.map Prod.fst).Nodup) (h : page ∈ pages) :
    pages.filter (·.1 = page.1) = [page] := by
  induction pages with
  | nil => cases h
  | cons first pages ih =>
    obtain ⟨hfirst, hrest⟩ := List.nodup_cons.mp hpages
    rcases List.mem_cons.mp h with rfl | h
    · have hnone : pages.filter (·.1 = page.1) = [] := by
        rw [List.filter_eq_nil_iff]
        intro other hother hsame
        exact hfirst (of_decide_eq_true hsame ▸ List.mem_map_of_mem hother)
      rw [List.filter_cons_of_pos (by simp), hnone]
    · have hne : first.1 ≠ page.1 := fun heq => hfirst (heq ▸ List.mem_map_of_mem h)
      rw [List.filter_cons_of_neg (by simpa using hne), ih hrest h]

theorem linksFor_eq (hpages : (pages.map Prod.fst).Nodup) (base : String) (h : page ∈ pages) :
    linksFor pages base page.1 = (childLink? pages base page).toList := by
  rw [linksFor, filter_fst_eq hpages h]
  cases hlink : childLink? pages base page <;> simp [hlink]

theorem hierarchy_eq_flatMap (hpages : (pages.map Prod.fst).Nodup) (base : String) :
    hierarchy pages base = (pages.map Prod.fst).flatMap (linksFor pages base) := by
  rw [hierarchy, List.filterMap_eq_flatMap_toList, List.flatMap_map]
  exact List.flatMap_congr fun page hpage => (linksFor_eq hpages base hpage).symm

theorem Collectable.toExtends (hbase : IsClean base) (h : Collectable base url) :
    Crawler.Extends base url := by
  rcases h with rfl | ⟨href, hstarts, rfl⟩
  · exact ⟨hbase, List.prefix_refl _⟩
  · exact Crawler.extends_clean hbase hstarts

theorem isNearest_parent (hbase : IsClean base) (hcollected : Collected base pages)
    (hroot : base ∈ pages.map Prod.fst) (h : HasPath base child path)
    (hstraight : Straight base child) :
    IsNearest pages child (parent pages base (segments base child)) := by
  have hsingle := hstraight.single
  rw [h.drop_eq] at hsingle
  rw [segments_of_once hbase h (h.drop_eq ▸ hstraight.once)]
  have hparent := parent_eq_or_mem pages base ((names path).map String.ofList)
  rw [clean_eq_self_of_isClean hbase] at hparent
  have hcrawled : parent pages base ((names path).map String.ofList) ∈ pages.map Prod.fst := by
    rcases hparent with heq | ⟨-, hcrawled⟩
    · rwa [heq]
    · exact hcrawled
  refine ⟨hcrawled, ?_, ?_⟩
  · rcases hparent with heq | ⟨hmem, -⟩
    · rw [heq]
      exact h.isBelow
    · exact isBelow_of_mem_ancestors hbase h hsingle hmem
  · intro other hother hbelow
    by_cases hne : other = base
    · have hstarts := ((hcollected.collectable _ hcrawled).toExtends hbase).starts
      rw [hne, ← String.length_toList, ← String.length_toList]
      exact hstarts.length_le
    · have hextends := (hcollected.collectable other hother).toExtends hbase
      exact length_le_length_parent
        (mem_ancestors_of_isBelow hbase h hsingle hextends hne hbelow) hother

theorem linkedFromNearest_of_straight (hbase : IsClean base) (hcollected : Collected base pages)
    (hroot : base ∈ pages.map Prod.fst) (hchild : child ∈ pages.map Prod.fst)
    (h : HasPath base child path) (hstraight : Straight base child) :
    LinkedFromNearest pages base child := by
  have hnearest := isNearest_parent hbase hcollected hroot h hstraight
  obtain ⟨id, hpage⟩ : ∃ id, (child, id) ∈ pages := by simpa using hchild
  obtain ⟨source, hsource⟩ := Option.isSome_iff_exists.mp (Fields.has_iff.mpr hnearest.crawled)
  have hne : clean child ≠ clean base := by
    rw [clean_eq_self_of_isClean h.clean, clean_eq_self_of_isClean hbase]
    rintro rfl
    exact Nat.lt_irrefl _ h.isBelow.length_lt
  have hname : (segments base child).getLast? = some (String.ofList (lastName child.toList)) := by
    rw [segments_of_once hbase h (h.drop_eq ▸ hstraight.once),
      names_eq_concat h.slash_mem h.getLast?_ne, h.text, lastName_append h.slash_mem]
    simp
  have hlink := (childLink?_eq_some_iff pages base (child, id) _).mpr
    ⟨hne, _, source, hname, hsource, rfl⟩
  refine ⟨id, _, source, hpage, hnearest, Fields.mem_of_get? hsource, ?_⟩
  rw [linksFor_eq hcollected.once base hpage, hlink]
  rfl

/-! ## Addresses that their names do not spell -/

section

variable {address : Url.SiteAddress}
variable {rest front : List Char}

private theorem eq_of_two_slashes {more slashes name : List Char}
    (h : '/' :: '/' :: rest = more ++ '/' :: (slashes ++ name)) (hrest : rest.head? ≠ some '/')
    (hsingle : ¬ ['/', '/'] <+: more) (hlast : more.getLast? ≠ some '/')
    (hslashes : ∀ c ∈ slashes, c = '/') (hname : '/' ∉ name) : more = [] ∧ name = rest := by
  rcases more with - | ⟨first, - | ⟨second, more⟩⟩
  · simp only [List.nil_append, List.cons.injEq, true_and] at h
    rcases slashes with - | ⟨first, - | ⟨second, slashes⟩⟩
    · rw [List.nil_append] at h
      exact absurd (h ▸ List.mem_cons_self) hname
    · simp only [List.cons_append, List.nil_append, List.cons.injEq] at h
      exact ⟨rfl, h.2.symm⟩
    · simp only [List.cons_append, List.cons.injEq] at h
      exact absurd (by simp [h.2, hslashes second]) hrest
  · simp only [List.cons_append, List.cons.injEq] at h
    exact absurd (by simp [← h.1]) hlast
  · simp only [List.cons_append, List.cons.injEq] at h
    exact absurd (by simp [← h.1, ← h.2.1]) hsingle

/-- If the base stands in a path again but no slash is doubled before the last
name, then the last name begins with the host. -/
theorem stem_of_base_again (hpath : path = front ++ address.chars ++ rest)
    (hsingle : ¬ ['/', '/'] <:+: stem path) :
    stem path = front ++ address.scheme ++ [':'] ∧ '/' ∉ rest := by
  have htext : path = front ++ address.scheme ++ [':'] ++
      '/' :: '/' :: (address.host ++ (address.path ++ rest)) := by
    simp [hpath, Url.SiteAddress.chars]
  obtain ⟨more, hmore⟩ : front ++ address.scheme ++ [':'] <+: stem path := by
    refine prefix_stem ?_ (by simp)
    rw [htext, List.prefix_append_right_inj]
    simp
  have hslash : '/' ∈ path := by simp [htext]
  obtain ⟨slashes, hsplit, hslashes⟩ := eq_stem_append hslash
  have hrest : '/' :: '/' :: (address.host ++ (address.path ++ rest)) =
      more ++ '/' :: (slashes ++ lastName path) := by
    rw [← List.append_cancel_left_eq (front ++ address.scheme ++ [':']), ← List.append_assoc _ more,
      hmore, ← hsplit, htext]
  have hhost : (address.host ++ (address.path ++ rest)).head? ≠ some '/' := by
    obtain ⟨first, others, hhost⟩ := List.exists_cons_of_ne_nil address.hostNonempty
    have hends := (address.hostChars first (by simp [hhost])).1
    rintro hfirst
    obtain rfl : first = '/' := by simpa [hhost] using hfirst
    simp [Url.Split.endsHost] at hends
  have hlast := getLast?_stem path
  rw [← hmore] at hsingle hlast ⊢
  obtain ⟨rfl, hname⟩ := eq_of_two_slashes hrest hhost
    (fun hdouble => hsingle (hdouble.isInfix.trans (List.suffix_append _ _).isInfix))
    (fun hends => hlast (by rw [List.getLast?_append, hends]; rfl)) hslashes
    (slash_not_mem_lastName path)
  have hnot := slash_not_mem_lastName path
  rw [hname] at hnot
  simp only [List.mem_append, not_or] at hnot
  exact ⟨by simp, hnot.2.2⟩

/-- Either a slash is doubled before the last name or the base stands in the path
again, with only the last name behind its scheme. -/
theorem cases_of_not_straight (h : HasPath address.text child path)
    (hnot : ¬ Straight address.text child) :
    ['/', '/'] <:+: stem path ∨ ∃ front rest,
      Chars.cut? address.text.toList path = some (front, rest) ∧
        stem path = front ++ address.scheme ++ [':'] ∧ '/' ∉ rest := by
  by_cases hsingle : ['/', '/'] <:+: stem path
  · exact Or.inl hsingle
  · right
    have hagain : address.text.toList <:+: path := by
      by_contra honce
      exact hnot ⟨by rwa [h.drop_eq], by rwa [h.drop_eq]⟩
    cases hcut : Chars.cut? address.text.toList path with
    | none => exact absurd hagain ((Chars.cut?_eq_none_iff _ _).mp hcut)
    | some parts =>
      have hpath := Chars.eq_append_of_cut? hcut
      rw [Url.SiteAddress.text, String.toList_ofList] at hpath
      exact ⟨parts.1, parts.2, rfl, stem_of_base_again hpath hsingle⟩

theorem slash_not_mem_scheme (address : Url.SiteAddress) : '/' ∉ address.scheme := by
  intro hmem
  have hchar := address.schemeChars _ hmem
  simp [Url.Split.isSchemeChar] at hchar

theorem length_names_of_base_again (h : HasPath address.text child path)
    (hcut : Chars.cut? address.text.toList path = some (front, rest)) (hrest : '/' ∉ rest) :
    (names (Chars.replace address.text.toList [] child.toList)).length ≤ front.count '/' := by
  have hbase : address.text.toList = address.scheme ++ ':' :: '/' :: '/' ::
      (address.host ++ address.path) := by
    rw [Url.SiteAddress.text, String.toList_ofList, Url.SiteAddress.chars]
  have hne : address.text.toList ≠ [] := by simp [hbase]
  have hnone : ¬ address.text.toList <:+: rest := by
    intro hagain
    exact hrest (hagain.subset (by simp [hbase]))
  rw [h.text, Chars.replace_of_cut? hne (Chars.cut?_append hne path), Chars.replace_of_cut? hne hcut,
    Chars.replace_of_not_infix hnone, List.append_nil, List.append_nil, List.nil_append]
  have hpath := Chars.eq_append_of_cut? hcut
  have hslash := h.slash
  cases front with
  | nil =>
    obtain ⟨letter, hletter, -⟩ := address.schemeLetter
    rw [hpath, hbase, List.nil_append, List.append_assoc, List.head?_append, hletter] at hslash
    cases hslash
    exact absurd (List.mem_of_head? hletter) (slash_not_mem_scheme address)
  | cons first front =>
    obtain rfl : first = '/' := by simpa [hpath] using hslash
    have hlength := length_names_le_count (front ++ rest)
    rw [List.count_append, List.count_eq_zero.mpr hrest] at hlength
    rw [List.cons_append, names_cons_slash, List.count_cons_self]
    exact hlength

theorem stem_not_mem_ancestors (hbase : IsClean address.text) (h : HasPath address.text child path)
    (hnot : ¬ Straight address.text child)
    (hurl : url.toList = address.text.toList ++ stem path) :
    url ∉ ancestors address.text (segments address.text child) := by
  rw [segments_eq, mem_ancestors_iff, clean_eq_self_of_isClean hbase,
    clean_eq_self_of_isClean h.clean, hurl]
  rintro ⟨front, rest, hsplit, -, hrest, htext⟩
  have hstem : stem path = spelled front := List.append_cancel_left htext
  have hnames : ∀ name ∈ front, name ≠ [] ∧ '/' ∉ name := by
    intro name hname
    have hmem := hsplit ▸ List.mem_append_left rest hname
    exact ⟨ne_nil_of_mem_names hmem, slash_not_mem_of_mem_names hmem⟩
  rcases cases_of_not_straight h hnot with hdouble | ⟨before, after, hcut, hbefore, hafter⟩
  · exact not_infix_spelled hnames (hstem ▸ hdouble)
  · -- the stem has as many slashes as stand before the base, but one name is left out
    have hlength := length_names_of_base_again h hcut hafter
    have hcolon : [':'].count '/' = 0 := by decide
    have hcount := count_spelled fun name hname => (hnames name hname).2
    rw [← hstem, hbefore, List.count_append, List.count_append,
      List.count_eq_zero.mpr (slash_not_mem_scheme address), hcolon] at hcount
    have hpos := List.length_pos_iff.mpr hrest
    rw [hsplit, List.length_append] at hlength
    omega

theorem stem_ne_nil (h : HasPath address.text child path) (hnot : ¬ Straight address.text child) :
    stem path ≠ [] := by
  intro hnil
  rcases cases_of_not_straight h hnot with hdouble | ⟨front, rest, -, hstem, -⟩
  · rw [hnil] at hdouble
    simp at hdouble
  · simp [hnil] at hstem

end

structure Between (base between url : String) : Prop where
  inside : Crawler.Extends base between
  longer : base.length < between.length
  below : IsBelow between url

theorem between_stem (h : HasPath base child path) (hne : stem path ≠ [])
    (hurl : url.toList = base.toList ++ stem path) : Between base url child := by
  have hbelow : IsBelow url child := by
    rw [IsBelow, hurl, h.text, List.append_assoc, List.prefix_append_right_inj]
    exact stem_slash_prefix_self h.slash_mem
  have hsubset := ((List.prefix_append _ _).trans hbelow).subset
  refine ⟨⟨⟨fun hmem => h.clean.noFragment (hsubset hmem),
    fun hmem => h.clean.noQuery (hsubset hmem), ?_⟩, ?_⟩, ?_, hbelow⟩
  · intro hlast
    rw [hurl, List.getLast?_append, List.getLast?_eq_some_getLast hne, Option.some_or] at hlast
    exact getLast?_stem path ((List.getLast?_eq_some_getLast hne).trans hlast)
  · rw [hurl]
    exact List.prefix_append _ _
  · rw [← String.length_toList, ← String.length_toList, hurl, List.length_append]
    have hpos := List.length_pos_iff.mpr hne
    omega

def lineage (base between url : String) : Stored :=
  [(base, .int 0), (between, .int 1), (url, .int 2)]

section

variable {between : String}

theorem lineage_collected (hchild : Crawler.Extends base child) (h : Between base between child) :
    Collected base (lineage base between child) := by
  have hlonger := h.longer
  have hbelow := h.below.length_lt
  constructor
  · simp only [lineage, List.map_cons, List.map_nil, List.nodup_cons, List.mem_cons]
    grind
  · intro url hurl
    have hextends {url : String} (h : Crawler.Extends base url) : Collectable base url :=
      Or.inr ⟨url, h.starts, (clean_eq_self_of_isClean h.clean).symm⟩
    simp only [lineage, List.map_cons, List.map_nil, List.mem_cons, List.not_mem_nil,
      or_false] at hurl
    rcases hurl with rfl | rfl | rfl
    · exact Or.inl rfl
    · exact hextends h.inside
    · exact hextends hchild

theorem not_linkedFromNearest_lineage (hbase : IsClean base) (hchild : Crawler.Extends base child)
    (h : Between base between child) (hnot : between ∉ ancestors base (segments base child)) :
    ¬ LinkedFromNearest (lineage base between child) base child := by
  rintro ⟨id, nearest, source, hid, hnearest, hsource, hlinks⟩
  have hlonger := h.longer
  have hbelow := h.below.length_lt
  have hneBase : between ≠ base := by grind
  have hneChild : between ≠ child := by grind
  obtain rfl : nearest = between := by
    have hlongest := hnearest.longest between (by simp [lineage]) h.below
    have habove := hnearest.above.length_lt
    have hcrawled := hnearest.crawled
    simp only [lineage, List.map_cons, List.map_nil, List.mem_cons, List.not_mem_nil,
      or_false] at hcrawled
    grind
  obtain rfl : source = .int 1 := by simpa [lineage, hneBase, hneChild] using hsource
  rw [linksFor_eq (lineage_collected hchild h).once base hid, Option.toList_eq_singleton_iff,
    childLink?_eq_some_iff] at hlinks
  obtain ⟨-, name, source, -, hget, hlink⟩ := hlinks
  obtain ⟨rfl, -, -⟩ := ChildLink.mk.inj hlink
  have hparent : parent (lineage base nearest child) base (segments base child) = nearest := by
    simpa [lineage] using Fields.mem_of_get? hget
  rcases parent_eq_or_mem (lineage base nearest child) base (segments base child) with heq | hmem
  · rw [hparent, clean_eq_self_of_isClean hbase] at heq
    exact hneBase heq
  · exact hnot (hparent ▸ hmem.1)

end

/-! ## Which pages hang on their nearest ancestors -/

theorem isClean_trimmed (address : Url.SiteAddress) : IsClean address.trimmed.text := by
  constructor <;> rw [Url.SiteAddress.text, String.toList_ofList]
  · exact address.trimmed.not_mem_chars (Or.inl rfl)
  · exact address.trimmed.not_mem_chars (Or.inr rfl)
  · exact address.getLast?_chars_trimmed

/-- Whatever a crawl collects, the straight addresses hang on their nearest
ancestors.  Any other address misses it when its stem was crawled. -/
theorem linkedFromNearest_iff_straight (address : Url.SiteAddress) (base : String)
    (hbase : base = Text.trimEnd (· = '/') address.text) :
    (∀ (crawler : Crawler) (crawl : Json) (bounds : Bounds) (before : List String)
      (s t : Surroundings) (pages : Stored), pages = crawler.harvest crawl base bounds before s →
      (linkHierarchy pages base t).2.log =
        (((pages.map Prod.fst).flatMap (linksFor pages base)).map ChildLink.event).reverse ++ t.log ∧
      ∀ url ∈ pages.map Prod.fst, IsBelow base url → Straight base url →
        LinkedFromNearest pages base url) ∧
    ∀ url, IsClean url → IsBelow base url →
      ((∀ pages, Collected base pages → base ∈ pages.map Prod.fst → url ∈ pages.map Prod.fst →
        LinkedFromNearest pages base url) ↔ Straight base url) := by
  obtain rfl : base = address.trimmed.text := by rw [hbase, address.text_trimmed]
  have hclean := isClean_trimmed address
  constructor
  · rintro crawler crawl bounds before s t pages rfl
    have hcollected := crawler.collected_harvest crawl address.trimmed.text bounds before s
    constructor
    · rw [log_linkHierarchy, hierarchy_eq_flatMap hcollected.once]
    · intro url hurl hbelow hstraight
      have hextends := (hcollected.collectable url hurl).toExtends hclean
      obtain ⟨path, hpath⟩ := exists_hasPath hextends.clean hbelow
      exact linkedFromNearest_of_straight hclean hcollected (Crawler.base_mem_harvest hurl) hurl
        hpath hstraight
  · intro url hurl hbelow
    obtain ⟨path, hpath⟩ := exists_hasPath hurl hbelow
    constructor
    · intro hlinked
      by_contra hnot
      have hextends : Crawler.Extends address.trimmed.text url :=
        ⟨hurl, (List.prefix_append _ _).trans hbelow⟩
      have hstem : (String.ofList (address.trimmed.text.toList ++ stem path)).toList =
          address.trimmed.text.toList ++ stem path := String.toList_ofList
      have hbetween := between_stem hpath (stem_ne_nil hpath hnot) hstem
      refine not_linkedFromNearest_lineage hclean hextends hbetween
        (stem_not_mem_ancestors hclean hpath hnot hstem) (hlinked _ ?_ ?_ ?_)
      · exact lineage_collected hextends hbetween
      · simp [lineage]
      · simp [lineage]
    · intro hstraight pages hcollected hroot hmem
      exact linkedFromNearest_of_straight hclean hcollected hroot hmem hpath hstraight

def aisleWeb : Web where
  page? _ url :=
    let next := if url = "https://shop.com" then "https://shop.com/a" else "https://shop.com/a//b"
    some { WebPage.blank with hrefs := .texts [next] }
  size := 3

def aisleSurroundings : Surroundings :=
  { Crawler.sampleSurroundings aisleWeb with store := Crawler.obliging }

def aislePages : Stored :=
  Crawler.shopCrawler.harvest (.str "crawl") "https://shop.com" ⟨9, fun _ => false, fun _ => true⟩ []
    aisleSurroundings

theorem aislePages_keys : aislePages.map Prod.fst =
    ["https://shop.com", "https://shop.com/a", "https://shop.com/a//b"] := by
  have hrun : ((Frontier.after ⟨9, fun _ => false, fun _ => true⟩ "https://shop.com"
      (Crawler.shopCrawler.visit (.str "crawl") "https://shop.com") 3
      (Crawler.start "https://shop.com" [] aisleSurroundings)).next ⟨9, fun _ => false, fun _ => true⟩
        "https://shop.com" (Crawler.shopCrawler.visit (.str "crawl") "https://shop.com")).isNone := by
    decide +kernel
  rw [aislePages, Crawler.harvest, Frontier.walk_eq_after (Option.isNone_iff_eq_none.mp hrun)]
  decide +kernel

/-- The page behind the doubled slash hangs on the aisle, but a page whose address
has the base in it again may not hang where it should. -/
theorem linkedFromNearest_of_aisle :
    LinkedFromNearest aislePages "https://shop.com" "https://shop.com/a//b" ∧
      ∃ pages, Collected "https://shop.com" pages ∧
        "https://shop.com/a/https://shop.com" ∈ pages.map Prod.fst ∧
        ¬ LinkedFromNearest pages "https://shop.com" "https://shop.com/a/https://shop.com" := by
  have hshop := linkedFromNearest_iff_straight Crawler.shop "https://shop.com" (by decide +kernel)
  constructor
  · refine (hshop.1 Crawler.shopCrawler (.str "crawl") _ [] aisleSurroundings aisleSurroundings
      aislePages rfl).2 "https://shop.com/a//b" ?_ ?_ ⟨?_, ?_⟩
    · simp [aislePages_keys]
    · unfold IsBelow
      decide +kernel
    · decide +kernel
    · decide +kernel
  · by_contra hall
    push Not at hall
    have hclean : clean "https://shop.com/a/https://shop.com" =
        "https://shop.com/a/https://shop.com" := by decide +kernel
    have hbelow : IsBelow "https://shop.com" "https://shop.com/a/https://shop.com" := by
      unfold IsBelow
      decide +kernel
    have hstraight := (hshop.2 _ ((clean_eq_self_iff _).mp hclean) hbelow).mp
      fun pages hcollected _ hmem => hall pages hcollected hmem
    exact hstraight.once (by decide +kernel)

end Sitecheck.Crawl
