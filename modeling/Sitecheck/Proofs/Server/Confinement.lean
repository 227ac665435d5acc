import Sitecheck.Proofs.Server.Errand

/-!
# Where the files of a request lie

An identifier is joined to a directory as a path is, with its steps up and all.  It keeps
the files of a request inside the directories that are meant for them, whatever these are
called, just if it is harmless: it is not absolute, and read from the left it takes no more
steps up than down before its last slash (`errand_confined_iff`).
-/

namespace Sitecheck

namespace Disk

variable {part : String} {parts : List String}

/-! ## Steps up and down -/

/-- From so many steps below a place, a row of parts never leads out of it. -/
def staysBelow : (depth : Nat) → List String → Bool
  | _, [] => true
  | depth, part :: parts =>
    if part == ".." then
      match depth with
      | 0 => false
      | depth + 1 => staysBelow depth parts
    else staysBelow (depth + 1) parts

theorem step_up (place : List String) : step place ".." = place.dropLast := rfl

theorem step_down (place : List String) (h : part ≠ "..") :
    step place part = place ++ [part] := by simp [step, h]

theorem resolve_cons (place : List String) (part : String) (parts : List String) :
    resolve place (part :: parts) = resolve (step place part) parts := rfl

theorem staysBelow_up_zero (parts : List String) : staysBelow 0 (".." :: parts) = false := by
  simp [staysBelow]

theorem staysBelow_up_succ (depth : Nat) (parts : List String) :
    staysBelow (depth + 1) (".." :: parts) = staysBelow depth parts := by simp [staysBelow]

theorem staysBelow_down (depth : Nat) (h : part ≠ "..") (parts : List String) :
    staysBelow depth (part :: parts) = staysBelow (depth + 1) parts := by simp [staysBelow, h]

theorem staysBelow_succ {depth : Nat} (h : staysBelow depth parts = true) :
    staysBelow (depth + 1) parts = true := by
  induction parts generalizing depth with
  | nil => rfl
  | cons part parts ih =>
    by_cases hup : part = ".."
    · subst hup
      cases depth with
      | zero => simp [staysBelow_up_zero] at h
      | succ =>
        exact ih h
    · rw [staysBelow_down _ hup] at h ⊢
      exact ih h

theorem staysBelow_of_cons {depth : Nat} (h : staysBelow depth (part :: parts) = true) :
    staysBelow (depth + 1) parts = true := by
  by_cases hup : part = ".."
  · subst hup
    cases depth with
    | zero => simp [staysBelow_up_zero] at h
    | succ =>
      exact staysBelow_succ (staysBelow_succ h)
  · rwa [staysBelow_down _ hup] at h

theorem resolve_of_staysBelow (base inner : List String)
    (h : staysBelow inner.length parts = true) :
    ∃ rest, resolve (base ++ inner) parts = base ++ rest := by
  induction parts generalizing inner with
  | nil => exact ⟨inner, rfl⟩
  | cons part parts ih =>
    rw [resolve_cons]
    by_cases hup : part = ".."
    · subst hup
      cases inner using List.reverseRecOn with
      | nil => simp [staysBelow_up_zero] at h
      | append_singleton inner =>
        rw [List.length_append, List.length_singleton, staysBelow_up_succ] at h
        rw [step_up, ← List.append_assoc, List.dropLast_concat]
        exact ih inner h
    · rw [staysBelow_down _ hup] at h
      rw [step_down _ hup, List.append_assoc]
      exact ih (inner ++ [part]) (by simpa using h)

section Outside

variable {front : List String} {name : String}
variable {parts : List String}

theorem not_prefix_resolve {place : List String} (hname : name ∉ parts)
    (h : ¬ front ++ [name] <+: place) : ¬ front ++ [name] <+: resolve place parts := by
  induction parts generalizing place with
  | nil => exact h
  | cons part parts ih =>
    rw [List.mem_cons, not_or] at hname
    refine ih hname.2 fun hprefix => h ?_
    by_cases hup : part = ".."
    · rw [hup, step_up] at hprefix
      exact hprefix.trans (List.dropLast_prefix place)
    · rw [step_down _ hup] at hprefix
      rcases List.prefix_concat_iff.mp hprefix with heq | hprefix
      · exact absurd (List.append_inj_right' heq rfl) (by simpa using hname.1)
      · exact hprefix

theorem not_prefix_of_staysBelow_eq_false (front inner : List String) (hname : name ∉ parts)
    (h : staysBelow inner.length parts = false) :
    ¬ front ++ [name] <+: resolve (front ++ [name] ++ inner) parts := by
  induction parts generalizing inner with
  | nil => cases h
  | cons part parts ih =>
    rw [resolve_cons]
    have hrest : name ∉ parts := fun hmem => hname (List.mem_cons_of_mem _ hmem)
    by_cases hup : part = ".."
    · subst hup
      cases inner using List.reverseRecOn with
      | nil =>
        rw [step_up, List.append_nil, List.dropLast_concat]
        refine not_prefix_resolve hrest fun hprefix => ?_
        simpa using hprefix.length_le
      | append_singleton inner =>
        rw [List.length_append, List.length_singleton, staysBelow_up_succ] at h
        rw [step_up, ← List.append_assoc, List.dropLast_concat]
        exact ih inner hrest h
    · rw [staysBelow_down _ hup] at h
      rw [step_down _ hup, List.append_assoc]
      exact ih (inner ++ [part]) hrest (by simpa using h)

end Outside

end Disk

/-! ## Harmless texts -/

namespace Path

variable {text start : String}

open Disk

theorem ne_up_of_length (h : 3 ≤ text.length) : text ≠ ".." :=
  ne_of_length_lt (lt_of_lt_of_le (by decide) h)

/-- The text is not absolute, and before its last slash it never leads up and out. -/
def isHarmless (text : String) : Bool := !(ofText text).isAbsolute && staysBelow 0 (lead text)

theorem target_join_relative (disk : Disk) (path : Path) (h : (ofText text).isAbsolute = false) :
    disk.target (path.join text) = resolve (disk.target path) (ofText text).parts := by
  have hjoin : path.join text = ⟨path.root, path.parts ++ (ofText text).parts⟩ := by simp [join, h]
  rw [hjoin, target, resolve_append]
  rfl

theorem target_join_absolute (disk : Disk) (path : Path) (h : (ofText text).isAbsolute = true) :
    disk.target (path.join text) = resolve [] (ofText text).parts := by
  simp [target, join, h, start]

theorem isAbsolute_of_slash_not_mem_front (hslash : '/' ∉ start.toList) (hne : start ≠ "")
    (text : String) : (ofText (start ++ text)).isAbsolute = false := by
  have hchars : start.toList ≠ [] := fun hnil => hne (String.toList_inj.mp hnil)
  rw [isAbsolute, ofText, String.toList_append, Chars.takeWhile_slash_append hslash hchars]
  rfl

theorem isHarmless_of_slash_not_mem (h : '/' ∉ text.toList) : isHarmless text = true := by
  have hlead : lead text = [] := by
    simp [lead, Text.splitOn, Chars.splitOn_of_not_mem h]
  have hrelative : (ofText text).isAbsolute = false := by
    by_cases hempty : text = ""
    · subst hempty
      rfl
    · simpa using isAbsolute_of_slash_not_mem_front h hempty ""
  simp [isHarmless, hrelative, hlead, staysBelow]

theorem isHarmless_prepend (hslash : '/' ∉ start.toList) (hlong : 3 ≤ start.length)
    (h : isHarmless text = true) : isHarmless (start ++ text) = true := by
  have hne : start ≠ "" := by
    rintro rfl
    simp at hlong
  have hbelow : staysBelow 0 (lead text) = true := by simp_all [isHarmless]
  simp only [isHarmless, isAbsolute_of_slash_not_mem_front hslash hne, Bool.not_false, Bool.true_and]
  obtain ⟨first, rest, hsplit, hprepend⟩ := Chars.splitOn_prepend_of_not_mem hslash text.toList
  cases hrest : rest with
  | nil => simp [lead, Text.splitOn, hprepend, hrest, staysBelow]
  | cons second rest =>
    subst hrest
    have hlength : 3 ≤ (start ++ String.ofList first).length := by
      rw [String.length_append]
      omega
    have hpart : isPart (start ++ String.ofList first) = true := isPart_of_length (by omega)
    have hlead : lead (start ++ text) = (start ++ String.ofList first) ::
        ((second :: rest).map String.ofList).dropLast.filter isPart := by
      simp [lead, Text.splitOn, hprepend, hpart]
    have hsame : lead text = (String.ofList first ::
        ((second :: rest).map String.ofList).dropLast).filter isPart := by
      simp [lead, Text.splitOn, hsplit]
    rw [hlead, staysBelow_down _ (ne_up_of_length hlength)]
    rw [hsame, List.filter_cons] at hbelow
    split at hbelow
    · exact staysBelow_of_cons hbelow
    · exact staysBelow_succ hbelow

section Suffix

variable {suffix : String} (hslash : '/' ∉ suffix.toList) (hlong : 3 ≤ suffix.length)
  {text : String} (disk : Disk) (directory : Path)

include hslash hlong

theorem target_of_isHarmless (h : isHarmless text = true) :
    ∃ rest, rest ≠ [] ∧
      disk.target (directory.join (text ++ suffix)) = disk.target directory ++ rest := by
  simp only [isHarmless, Bool.and_eq_true, Bool.not_eq_true'] at h
  have hrelative : (ofText (text ++ suffix)).isAbsolute = false := by
    rw [isAbsolute, root_append hslash]
    exact h.1
  obtain ⟨last, hparts⟩ := parts_append hslash (by omega) text
  obtain ⟨rest, hrest⟩ := resolve_of_staysBelow (disk.target directory) [] h.2
  rw [List.append_nil] at hrest
  have hname : last ++ suffix ≠ ".." := ne_up_of_length (by rw [String.length_append]; omega)
  refine ⟨rest ++ [last ++ suffix], by simp, ?_⟩
  rw [target_join_relative disk directory hrelative, hparts, resolve_append, hrest, resolve_cons,
    step_down _ hname, List.append_assoc]
  rfl

theorem not_prefix_target {front : List String} {name : String} (h : isHarmless text = false)
    (hdirectory : disk.target directory = front ++ [name])
    (hname : name ∉ (ofText (text ++ suffix)).parts) :
    ¬ disk.target directory <+: disk.target (directory.join (text ++ suffix)) := by
  rw [hdirectory]
  cases hroot : (ofText (text ++ suffix)).isAbsolute with
  | true =>
    rw [target_join_absolute disk directory hroot]
    exact not_prefix_resolve hname (by simp)
  | false =>
    rw [target_join_relative disk directory hroot, hdirectory]
    obtain ⟨last, hparts⟩ := parts_append hslash (by omega) text
    rw [hparts, List.mem_append, not_or] at hname
    have hup : staysBelow 0 (lead text) = false := by
      rw [isAbsolute, root_append hslash, ← isAbsolute] at hroot
      simpa [isHarmless, hroot] using h
    have hout := not_prefix_of_staysBelow_eq_false front [] hname.1 hup
    rw [List.append_nil] at hout
    rw [hparts, resolve_append]
    exact not_prefix_resolve hname.2 hout

end Suffix

theorem exists_fresh_name (parts : List String) :
    ∃ name, IsName name ∧ name ≠ ".." ∧ name ∉ parts := by
  -- a name that is longer than all of them together
  obtain ⟨name, hplain, hlength⟩ : ∃ name : String, '/' ∉ name.toList ∧
      name.length = (parts.map String.length).sum + 3 :=
    ⟨String.ofList (List.replicate ((parts.map String.length).sum + 3) 'a'), by simp, by simp⟩
  refine ⟨name, ⟨hplain, isPart_of_length (by omega)⟩, ne_up_of_length (by omega), fun hmem => ?_⟩
  have hle := List.single_le_sum (by simp) _ (List.mem_map_of_mem (f := String.length) hmem)
  omega

end Path

namespace Server

variable {disk : Disk} {directory : Path} {suffix : String} {errand : Errand}

open Run Disk

/-! ## The files of an errand -/

def Kept.Inside (disk : Disk) (file : Kept) : Prop :=
  ∃ rest, rest ≠ [] ∧ disk.target file.path = disk.target file.directory ++ rest

theorem Kept.inside_of_target {path : Path} {rest : List String} (hrest : rest ≠ [])
    (h : disk.target path = disk.target directory ++ rest) :
    Kept.Inside disk ⟨directory, path⟩ := ⟨rest, hrest, h⟩

theorem Kept.Inside.prefix_target {file : Kept} (h : file.Inside disk) :
    disk.target file.directory <+: disk.target file.path := by
  obtain ⟨rest, -, heq⟩ := h
  exact ⟨rest, heq.symm⟩

theorem inside_join {id : String} (h : Path.isHarmless id = true) (hslash : '/' ∉ suffix.toList)
    (hlong : 3 ≤ suffix.length) :
    Kept.Inside disk ⟨directory, directory.join (id ++ suffix)⟩ := by
  obtain ⟨rest, hrest, heq⟩ := Path.target_of_isHarmless hslash hlong disk directory h
  exact Kept.inside_of_target hrest heq

theorem target_compiledDirectory (disk : Disk) (storage : Settings.Storage) :
    disk.target (Spec.compiledDirectory storage) = disk.target (.ofText storage.specs) ++ ["compiled"] := by
  have hname : Path.IsName "compiled" := ⟨by decide, by decide⟩
  rw [Spec.compiledDirectory, Path.join_name _ hname, target, resolve_append]
  rfl

theorem inside_compiled {storage : Settings.Storage} {suite : String}
    (h : Path.isHarmless suite = true) (hslash : '/' ∉ suffix.toList) (hlong : 3 ≤ suffix.length) :
    Kept.Inside disk
      ⟨.ofText storage.specs, (Spec.compiledDirectory storage).join (suite ++ suffix)⟩ := by
  obtain ⟨rest, -, heq⟩ := Path.target_of_isHarmless hslash hlong disk
    (Spec.compiledDirectory storage) h
  refine Kept.inside_of_target (List.cons_ne_nil "compiled" rest) ?_
  rw [heq, target_compiledDirectory, List.append_assoc]
  rfl

theorem inside_of_isHarmless {live : Settings.Live} {current : Option Settings.Live} {file : Kept}
    (hfile : errand.Files live current file) (h : Path.isHarmless errand.id = true) (disk : Disk) :
    file.Inside disk := by
  cases hfile with
  | suite => exact inside_join h (by decide) (by decide)
  | compiled | compiledApi | run => exact inside_compiled h (by decide) (by decide)
  | site => exact inside_join h (by decide) (by decide)
  | @report suite fresh plain =>
    have hsuffix : '/' ∉ ("_" ++ fresh ++ "_report.json").toList := by simp [plain]
    have hlong : 3 ≤ ("_" ++ fresh ++ "_report.json").length := by
      rw [String.length_append]
      have hend : "_report.json".length = 12 := by decide
      omega
    have hid : Path.isHarmless ("run_" ++ suite) = true :=
      Path.isHarmless_prepend (by decide) (by decide) h
    have hinside : Kept.Inside disk ⟨reportDirectory, _⟩ := inside_join hid hsuffix hlong
    simp only [← String.append_assoc] at hinside
    exact hinside
  | made plain => exact inside_join (Path.isHarmless_of_slash_not_mem plain) (by decide) (by decide)

def named (live : Settings.Live) (name : String) : Settings.Live :=
  { live with base := { live.base with storage := ⟨name, name, name, name⟩ } }

/-- For any other identifier there are directories in which a file of the errand is not. -/
theorem exists_outside (h : Path.isHarmless errand.id = false) (live : Settings.Live)
    (disk : Disk) :
    ∃ live current file, errand.Files live current file ∧ ¬ file.Inside disk := by
  obtain ⟨name, hname, hup, hother⟩ :=
    Path.exists_fresh_name (Path.ofText (errand.id ++ ".json")).parts
  have htarget : disk.target (.ofText name) = disk.home ++ [name] := by
    rw [Path.ofText_name hname, target, resolve_cons, step_down _ hup]
    rfl
  have hout : ¬ Kept.Inside disk ⟨.ofText name, (Path.ofText name).join (errand.id ++ ".json")⟩ :=
    fun hinside => Path.not_prefix_target (by decide) (by decide) _ _ h htarget hother
      hinside.prefix_target
  by_cases hlogic : ∃ request, errand = .logic request
  · obtain ⟨request, rfl⟩ := hlogic
    exact ⟨named live name, none, _, .site, hout⟩
  · exact ⟨named live name, none, _, .suite fun request heq => hlogic ⟨request, heq⟩, hout⟩

/-- A request that names a suite or a crawl reads and writes no files but those that its
identifier names, and these lie inside the directories for them, whatever these are, just
if the identifier is harmless. -/
theorem errand_confined_iff {request : Request} {errand : Errand} {s : Surroundings}
    {live : Settings.Live} (h : Errand.ofRequest? request = some errand)
    (hserver : s.server = some live) :
    s.disk.Changed (s.disk.targets (errand.Paths live (inUse? s))) (respond request s).2.disk ∧
      (∀ t, Twins (errand.Paths live (inUse? s)) (served live) s t → Unmoved s t Settings.current →
        (respond request t).1 = (respond request s).1) ∧
      ((∀ live current file, errand.Files live current file → file.Inside s.disk) ↔
        Path.isHarmless errand.id = true) := by
  refine ⟨?_, fun t hst hcurrent => ?_, fun hinside => ?_, fun hid live current file hfile => ?_⟩
  · rw [respond_of_errand h]
    exact writes_errand hserver errand
  · rw [respond_of_errand h, respond_of_errand h, unmoved_errand hst hcurrent]
  · by_contra hid
    obtain ⟨live, current, file, hfile, hout⟩ :=
      exists_outside (Bool.eq_false_iff.mpr hid) live s.disk
    exact hout (hinside live current file hfile)
  · exact inside_of_isHarmless hfile hid s.disk

def neighbourOffice : Surroundings :=
  { Crawl.Crawler.sampleSurroundings Crawl.Crawler.restlessWeb with
    disk := ⟨["srv", "app"], .directory [("srv", .directory
      [("app", .directory [("specs", .directory [])]), ("out.json", .file "\x7b\x7d")])]⟩
    server := some Crawl.Crawler.sampleSettings.live }

def neighbourRequest : Request :=
  ⟨"POST", "/compile-tests", "", "\x7b\"suite_id\": \"../../out\"\x7d"⟩

/-- Two steps up lead that server to the document, and it tells what is missing there. -/
theorem errand_confined_iff_neighbour :
    (Errand.compile "../../out").Paths Crawl.Crawler.sampleSettings.live (inUse? neighbourOffice)
        ⟨.working, ["specs", "..", "..", "out.json"]⟩ ∧
      neighbourOffice.disk.target ⟨.working, ["specs", "..", "..", "out.json"]⟩ =
        ["srv", "out.json"] ∧
      (respond neighbourRequest neighbourOffice).1 =
        .ok (answerTo "Compilation failed: " (.error (.missingKey "tests"))) ∧
      neighbourOffice.disk.Changed
        (neighbourOffice.disk.targets ((Errand.compile "../../out").Paths
          Crawl.Crawler.sampleSettings.live (inUse? neighbourOffice)))
        (respond neighbourRequest neighbourOffice).2.disk ∧
      ¬ ∀ live current file, (Errand.compile "../../out").Files live current file →
        file.Inside neighbourOffice.disk := by
  have hrequest : Errand.ofRequest? neighbourRequest = some (.compile "../../out") := by
    with_unfolding_all rfl
  have hpath : suitePath Crawl.Crawler.sampleSettings.live.base.storage "../../out" =
      ⟨.working, ["specs", "..", "..", "out.json"]⟩ := by decide +kernel
  have hfault : (compile ⟨"../../out"⟩ neighbourOffice).1 = .error (.missingKey "tests") := by
    with_unfolding_all rfl
  obtain ⟨hwrites, -, hconfined⟩ := errand_confined_iff hrequest (s := neighbourOffice) rfl
  refine ⟨?_, rfl, ?_, hwrites, fun hinside => ?_⟩
  · rw [← hpath]
    exact Errand.Files.paths (.suite nofun)
  · rw [respond_of_errand hrequest, ← hfault]
    rfl
  · have hup : Path.isHarmless "../../out" = false := by decide +kernel
    have hid : Path.isHarmless "../../out" = true := hconfined.mp hinside
    rw [hup] at hid
    cases hid

end Server

end Sitecheck
