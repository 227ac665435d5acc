import Sitecheck.Proofs.Generate.Form

/-!
# Tests of forms that can be told apart

The name of a test tells its form and what is tested, so names are distinct exactly if no
two forms share a name and no form has two e-mail fields.  The identifier of a test tells
a word of 32 bits of one reading of the clock, and nothing of the test: on a clock that
stands still all tests have the same one, and on no clock are there more than `2 ^ 32`.
-/

namespace Sitecheck.Generate

variable {purpose : Purpose} {s : Surroundings}

open Run

/-! ## Names -/

theorem Form.Purpose.ending_eq_of_suffix {other : Purpose}
    (h : purpose.ending.toList <:+ other.ending.toList) : purpose.ending = other.ending := by
  cases purpose <;> cases other <;> simp only [ending] at h ⊢ <;> exact absurd h (by decide)

theorem Form.title_inj {form other : Form} {purpose' : Purpose} :
    form.title purpose = other.title purpose' ↔
      form.name = other.name ∧ purpose.ending = purpose'.ending := by
  constructor
  · intro h
    have hending : purpose.ending = purpose'.ending := by
      have hchars := congrArg String.toList h
      simp only [title, String.toList_append] at hchars
      have hown := List.suffix_append form.name.toList purpose.ending.toList
      rw [hchars] at hown
      have hother := List.suffix_append other.name.toList purpose'.ending.toList
      rcases List.suffix_or_suffix_of_suffix hown hother with hends | hends
      · exact Purpose.ending_eq_of_suffix hends
      · exact (Purpose.ending_eq_of_suffix hends).symm
    refine ⟨?_, hending⟩
    rw [title, title, hending] at h
    exact (String.append_left_inj _).mp h
  · rintro ⟨hname, hending⟩
    rw [title, title, hname, hending]

def Form.titles (form : Form) : List String := form.purposes.map form.title

theorem map_title_plan (forms : List Form) :
    (plan forms).map (fun item => item.1.title item.2) = forms.flatMap Form.titles := by
  rw [plan, List.map_flatMap]
  exact List.flatMap_congr fun form hform => List.map_map

theorem Form.titles_eq (form : Form) :
    form.titles = form.title .empty ::
      (List.replicate (form.fields.countP Field.isEmail) (form.name ++ " - Invalid Email Validation") ++
        [form.title .valid]) := by
  have hsame : ((form.fields.filter Field.isEmail).map fun field => form.title (.invalid field)) =
      List.replicate (form.fields.countP Field.isEmail) (form.name ++ " - Invalid Email Validation") := by
    rw [List.countP_eq_length_filter, List.eq_replicate_iff]
    refine ⟨List.length_map .., fun title htitle => ?_⟩
    obtain ⟨field, -, rfl⟩ := List.mem_map.mp htitle
    rfl
  rw [← hsame]
  simp [titles, purposes]

theorem Form.nodup_titles_iff (form : Form) :
    form.titles.Nodup ↔ form.fields.countP Field.isEmail ≤ 1 := by
  have hinvalid : form.title .empty ≠ form.name ++ " - Invalid Email Validation" := by
    simp [title, Purpose.ending]
  have hvalid : form.title .empty ≠ form.title .valid := by
    simp [title, Purpose.ending]
  have hlast : form.name ++ " - Invalid Email Validation" ≠ form.title .valid := by
    simp [title, Purpose.ending]
  rw [titles_eq, List.nodup_cons, List.nodup_append_comm, List.singleton_append, List.nodup_cons,
    List.nodup_replicate]
  simp [List.mem_replicate, hinvalid, hvalid, hlast.symm]

theorem Form.disjoint_titles_iff (form other : Form) :
    form.titles.Disjoint other.titles ↔ form.name ≠ other.name := by
  constructor
  · intro h hname
    have hempty : form.title .empty = other.title .empty := title_inj.mpr ⟨hname, rfl⟩
    refine h (a := form.title .empty) List.mem_cons_self ?_
    rw [hempty]
    exact List.mem_cons_self
  · intro hname title hown hother
    obtain ⟨purpose, -, rfl⟩ := List.mem_map.mp hown
    obtain ⟨purpose', -, heq⟩ := List.mem_map.mp hother
    exact hname (title_inj.mp heq.symm).1

theorem nodup_names_iff (forms : List Form) :
    ((plan forms).map fun item => item.1.title item.2).Nodup ↔
      (forms.map Form.name).Nodup ∧ ∀ form ∈ forms, form.fields.countP Field.isEmail ≤ 1 := by
  have hforms : forms.Pairwise (Function.onFun List.Disjoint Form.titles) ↔ (forms.map Form.name).Nodup := by
    rw [List.Nodup, List.pairwise_map]
    exact List.Pairwise.iff fun form other => form.disjoint_titles_iff other
  rw [map_title_plan, List.nodup_flatMap, hforms, and_comm]
  simp only [Form.nodup_titles_iff]

/-! ## Identifiers -/

def identifiers (s : Surroundings) (count : Nat) : List String :=
  (List.range count).map fun number => (s.reading number).identifier "test_"

theorem nodup_identifiers_iff (s : Surroundings) (count : Nat) :
    (identifiers s count).Nodup ↔
      ((List.range count).map fun number => (s.reading number).stamp "test_").Nodup := by
  simp only [identifiers, List.Nodup, List.pairwise_map, ne_eq, Moment.identifier_inj]

theorem nodup_identifiers_of_still (h : s.tick = 0) (count : Nat) :
    (identifiers s count).Nodup ↔ count ≤ 1 := by
  have hsame : identifiers s count = List.replicate count (s.now.identifier "test_") := by
    simp [identifiers, Surroundings.reading, h]
  rw [hsame, List.nodup_replicate]

/-- There are no more stamps than words of 32 bits. -/
theorem le_of_nodup_identifiers {count : Nat} (h : (identifiers s count).Nodup) :
    count ≤ 2 ^ 32 := by
  rw [nodup_identifiers_iff] at h
  have hwords := (h.map UInt32.toFin_injective).length_le_card
  simpa using hwords

theorem length_plan_le_one_iff (forms : List Form) : (plan forms).length ≤ 1 ↔ forms = [] := by
  cases forms with
  | nil => simp [plan]
  | cons =>
    rw [length_plan, List.map_cons, List.sum_cons]
    simp only [reduceCtorEq, iff_false]
    omega

/-- When the tests of a site have distinct names, and when they have distinct identifiers. -/
theorem distinguishable_iff {site : SiteMap} {s : Surroundings} (h : HasFields site)
    (hclock : s.Timely (plan (formsOf site)).length) :
    ∃ tests, siteFormTests site s = (.ok tests, s.after tests.length) ∧
      tests.length = (plan (formsOf site)).length ∧
      ((tests.map TestCase.name).Nodup ↔ ((formsOf site).map Form.name).Nodup ∧
        ∀ form ∈ formsOf site, form.fields.countP Field.isEmail ≤ 1) ∧
      ((tests.map TestCase.id).Nodup ↔
        ((List.range tests.length).map fun number => (s.reading number).stamp "test_").Nodup) ∧
      (s.tick = 0 → ((tests.map TestCase.id).Nodup ↔ formsOf site = [])) ∧
      (2 ^ 32 < tests.length → ¬ (tests.map TestCase.id).Nodup) := by
  obtain ⟨tests, hrun, hmade⟩ := makes_siteFormTests h s hclock
  have hlength : (plan (formsOf site)).length = tests.length := hmade.planned.length_eq
  have hnames := map_eq_map_of_forall₂ hmade.planned fun item test h => h.1.symm
  have hids : tests.map TestCase.id = identifiers s tests.length := by rw [hmade.ids, hlength]; rfl
  refine ⟨tests, ?_, hlength.symm, ?_, ?_, ?_, ?_⟩
  · rw [hrun, hlength]
  · rw [← hnames, nodup_names_iff]
  · rw [hids, nodup_identifiers_iff]
  · intro hstill
    rw [hids, nodup_identifiers_of_still hstill, ← hlength, length_plan_le_one_iff]
  · intro hmany hnodup
    rw [hids] at hnodup
    exact absurd (le_of_nodup_identifiers hnodup) (by omega)

def repeatedSite : SiteMap :=
  ⟨"http://a.co", [⟨"http://a.co", "", [], [], none, [[("fields", .arr [])]]⟩,
    ⟨"http://a.co/b", "", [], [], none, [[("fields", .arr [])]]⟩], "", 2⟩

/-- A clock that goes on by some milliseconds, and whose first two readings have one stamp. -/
def unluckyHour : Surroundings :=
  { Crawl.Crawler.sampleSurroundings Crawl.Crawler.restlessWeb with
    now := ⟨Moment.dayNumber 2024 1 2 * Moment.dayMicros + 11045780829, ""⟩
    tick := 16294 }

theorem hasFields_repeatedSite : HasFields repeatedSite := by
  unfold HasFields
  decide

theorem timely_unluckyHour : unluckyHour.Timely (plan (formsOf repeatedSite)).length := by
  refine ⟨rfl, ?_⟩
  decide +kernel

theorem stamp_unluckyHour :
    (unluckyHour.reading 0).stamp "test_" = (unluckyHour.reading 1).stamp "test_" := by
  decide +kernel

/-- Neither the names nor the identifiers are distinct, although the clock goes on. -/
theorem distinguishable_repeatedSite : HasFields repeatedSite ∧
    unluckyHour.Timely (plan (formsOf repeatedSite)).length ∧ 0 < unluckyHour.tick ∧
    ∃ tests, siteFormTests repeatedSite unluckyHour = (.ok tests, unluckyHour.after tests.length) ∧
      ¬ (tests.map TestCase.name).Nodup ∧ ¬ (tests.map TestCase.id).Nodup := by
  obtain ⟨tests, hrun, hlength, hnames, hids, -, -⟩ :=
    distinguishable_iff hasFields_repeatedSite timely_unluckyHour
  have hfour : tests.length = 4 := hlength
  refine ⟨hasFields_repeatedSite, timely_unluckyHour, by decide, tests, hrun, ?_, ?_⟩
  · rw [hnames]
    decide +kernel
  · rw [hids, hfour]
    simp [List.range_succ, stamp_unluckyHour]

end Sitecheck.Generate
