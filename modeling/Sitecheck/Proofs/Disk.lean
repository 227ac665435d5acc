import Sitecheck.Proofs.Fields
import Sitecheck.Proofs.Text
import Sitecheck.Service.Disk

/-!
# Files that have been written

A file that has been written is there (`look_of_write`), and reading it gives
what was written (`read_of_look`).  Writing replaces no directory, so every place
that a path leads through is still a directory afterwards.
-/

namespace Sitecheck

namespace Entry

variable {place location : List String} {found entry : Entry} {entries : List (String × Entry)}

theorem find?_append (front back : List String) (entry : Entry) :
    find? (front ++ back) entry = (find? front entry).bind (find? back) := by
  induction front generalizing entry with
  | nil => rfl
  | cons name front ih =>
    cases entry with
    | file => rfl
    | directory entries =>
      rw [List.cons_append, find?, find?]
      cases Fields.get? name entries with
      | none => rfl
      | some entry => exact ih entry

theorem find?_file {text : String} (h : find? place (file text) = some found) :
    place = [] ∧ found = file text := by
  cases place with
  | nil => exact ⟨rfl, (Option.some.inj h).symm⟩
  | cons => cases h

theorem find?_put (h : find? place entry = some (directory entries)) (name : String) (new : Entry) :
    find? (place ++ [name]) (put new (place ++ [name]) entry) = some new := by
  induction place generalizing entry with
  | nil =>
    cases Option.some.inj h
    simp [put, find?]
  | cons first place ih =>
    cases entry with
    | file => cases h
    | directory =>
      obtain ⟨next, hnext, hrest⟩ := Option.bind_eq_some_iff.mp h
      rw [List.cons_append, put, find?, Fields.get?_set_self, hnext]
      exact ih hrest

theorem put_of_find? (h : find? location entry = some found) :
    put found location entry = entry := by
  induction location generalizing entry with
  | nil => exact (Option.some.inj h).symm
  | cons name location ih =>
    cases entry with
    | file => cases h
    | directory =>
      obtain ⟨next, hnext, hrest⟩ := Option.bind_eq_some_iff.mp h
      rw [put, hnext, Option.getD_some, ih hrest, Fields.set_of_get? hnext]

theorem directory_of_put {new : Entry} (h : find? place entry = some (directory entries))
    (hnot : ∀ inner, find? location entry ≠ some (directory inner)) :
    ∃ inner, find? place (put new location entry) = some (directory inner) := by
  induction location generalizing place entry with
  | nil =>
    cases entry with
    | file => cases (find?_file h).2
    | directory inner => exact absurd rfl (hnot inner)
  | cons name location ih =>
    cases entry with
    | file => cases (find?_file h).2
    | directory inner =>
      cases place with
      | nil => exact ⟨_, rfl⟩
      | cons first =>
        obtain ⟨next, hnext, hrest⟩ := Option.bind_eq_some_iff.mp h
        by_cases hname : first = name
        · subst hname
          have hinner : ∀ inner, find? location next ≠ some (directory inner) := by
            intro inner' heq
            exact hnot inner' (by rw [find?, hnext]; exact heq)
          obtain ⟨found, hfound⟩ := ih hrest hinner
          exact ⟨found, by rw [put, find?, Fields.get?_set_self, hnext]; exact hfound⟩
        · refine ⟨entries, ?_⟩
          rw [put, find?, Fields.get?_set_of_ne hname, hnext]
          exact hrest

end Entry

namespace Disk

variable {disk disk' : Disk}
variable {path : Path} {text : String} {location place target parts : List String}

theorem write_eq_ok (h : disk.write path text = .ok disk') :
    ∃ location, disk.place path = .ok location ∧
      (∀ entries, disk.entry? location ≠ some (.directory entries)) ∧
      disk' = disk.put location (.file text) := by
  unfold write at h
  cases hplace : disk.place path with
  | error => simp [hplace, bind, Except.bind] at h
  | ok location =>
    simp only [hplace, bind, Except.bind] at h
    refine ⟨location, rfl, ?_⟩
    split at h
    · cases h
    · next hnot => exact ⟨fun entries heq => hnot entries heq, (Except.ok.inj h).symm⟩

/-- Every directory is one still. -/
structure Stands (disk disk' : Disk) : Prop where
  home : disk'.home = disk.home
  directory : ∀ {place entries}, disk.entry? place = some (.directory entries) →
    ∃ inner, disk'.entry? place = some (.directory inner)

theorem Stands.trans {disk'' : Disk} (h : Stands disk disk') (h' : Stands disk' disk'') :
    Stands disk disk'' := by
  refine ⟨h'.home.trans h.home, fun hplace => ?_⟩
  obtain ⟨inner, hinner⟩ := h.directory hplace
  exact h'.directory hinner

theorem stands_put (hnot : ∀ entries, disk.entry? location ≠ some (.directory entries))
    (new : Entry) :
    Stands disk (disk.put location new) :=
  ⟨rfl, fun h => Entry.directory_of_put h hnot⟩

theorem put_of_entry? {found : Entry} (h : disk.entry? location = some found) :
    disk.put location found = disk :=
  congrArg (Disk.mk disk.home) (Entry.put_of_find? h)

theorem Stands.start (h : Stands disk disk') (path : Path) : disk'.start path = disk.start path := by
  rw [Disk.start, Disk.start, h.home]

/-- What one step of a walk takes: a directory to leave, and a name that is not too long. -/
theorem walk_cons_iff {part : String} :
    disk.walk place (part :: parts) = .ok target ↔
      (∃ entries, disk.entry? place = some (.directory entries)) ∧ isTooLong part = false ∧
        disk.walk (step place part) parts = .ok target := by
  rw [walk]
  rcases disk.entry? place with _ | (_ | entries) <;> cases isTooLong part <;> simp

theorem Stands.walk (h : Stands disk disk') (hwalk : disk.walk place parts = .ok target) :
    disk'.walk place parts = .ok target := by
  induction parts generalizing place with
  | nil => exact hwalk
  | cons part parts ih =>
    obtain ⟨⟨entries, hentry⟩, hlong, hrest⟩ := walk_cons_iff.mp hwalk
    exact walk_cons_iff.mpr ⟨h.directory hentry, hlong, ih hrest⟩

theorem step_of_walk (hparts : parts ≠ []) (h : disk.walk place parts = .ok target) :
    ∃ last part entries, disk.entry? last = some (.directory entries) ∧ target = step last part := by
  induction parts generalizing place with
  | nil => exact absurd rfl hparts
  | cons part parts ih =>
    obtain ⟨⟨entries, hentry⟩, -, hrest⟩ := walk_cons_iff.mp h
    cases parts with
    | nil => exact ⟨place, part, entries, hentry, (Except.ok.inj hrest).symm⟩
    | cons => exact ih (List.cons_ne_nil _ _) hrest

theorem directory_dropLast {entries : List (String × Entry)}
    (h : disk.entry? place = some (.directory entries)) :
    ∃ inner, disk.entry? place.dropLast = some (.directory inner) := by
  rcases List.eq_nil_or_concat place with rfl | ⟨front, name, rfl⟩
  · exact ⟨entries, h⟩
  · rw [List.concat_eq_append, entry?, Entry.find?_append] at h
    obtain ⟨found, hfound, hname⟩ := Option.bind_eq_some_iff.mp h
    rw [List.concat_eq_append, List.dropLast_concat]
    cases found with
    | file => cases hname
    | directory inner => exact ⟨inner, hfound⟩

theorem entry?_of_write (hparts : path.parts ≠ []) (h : disk.write path text = .ok disk') :
    ∃ location, disk'.place path = .ok location ∧ Disk.entry? disk' location = some (.file text) := by
  obtain ⟨location, hplace, hnot, rfl⟩ := write_eq_ok h
  unfold place at hplace
  split at hplace
  · cases hplace
  · next hrefusal =>
    split at hplace
    · next found hlocate =>
      cases hplace
      refine ⟨location, ?_, ?_⟩
      · have hwalk : (disk.put location (.file text)).locate path = .ok location :=
          (stands_put hnot _).walk hlocate
        simp only [place, hrefusal, hwalk]
      · obtain ⟨last, part, entries, hlast, rfl⟩ := step_of_walk hparts hlocate
        -- Two dots lead to a directory, and no directory is replaced.
        have hpart : (part == "..") = false := by
          by_contra hdots
          rw [Bool.not_eq_false] at hdots
          rw [step, if_pos hdots] at hnot
          obtain ⟨inner, hinner⟩ := directory_dropLast hlast
          exact hnot inner hinner
        rw [step, hpart, if_neg Bool.false_ne_true]
        exact Entry.find?_put hlast part (.file text)
    · cases hplace

theorem newlines_of_not_mem {text : List Char} (h : '\r' ∉ text) : newlines text = text := by
  fun_induction newlines text with
  | case1 | case2 => simp at h
  | case3 c rest _ _ ih => rw [ih fun hmem => h (List.mem_cons_of_mem c hmem)]
  | case4 => rfl

theorem look_of_write (hparts : path.parts ≠ []) (h : disk.write path text = .ok disk') :
    disk'.look path = .ok (some (.file text)) := by
  obtain ⟨location, hplace, hentry⟩ := entry?_of_write hparts h
  rw [look, hplace, ← hentry]

theorem exists?_of_look {entry : Entry} (h : disk.look path = .ok (some entry)) :
    disk.exists? path = .ok true := by
  rw [exists?, h]
  rfl

theorem place_of_read (h : disk.read path = .ok text) :
    ∃ location found, disk.place path = .ok location ∧
      disk.entry? location = some (.file found) ∧ text = String.ofList (newlines found.toList) := by
  unfold read at h
  cases hplace : disk.place path with
  | error =>
    rw [hplace] at h
    cases h
  | ok location =>
    simp only [hplace, bind, Except.bind] at h
    split at h
    · next found hentry => exact ⟨location, found, rfl, hentry, (Except.ok.inj h).symm⟩
    · cases h
    · cases h

theorem exists?_of_read (h : disk.read path = .ok text) : disk.exists? path = .ok true := by
  obtain ⟨location, found, hplace, hentry, -⟩ := place_of_read h
  exact exists?_of_look (by rw [look, hplace, ← hentry])

theorem write_of_file {found : String} (hplace : disk.place path = .ok location)
    (h : disk.entry? location = some (.file found)) (text : String) :
    disk.write path text = .ok (disk.put location (.file text)) := by
  simp only [write, hplace, bind, Except.bind, h]

theorem read_of_look (htext : '\r' ∉ text.toList) (h : disk.look path = .ok (some (.file text))) :
    disk.read path = .ok text := by
  unfold look at h
  split at h
  · next location hplace =>
    have hentry : disk.entry? location = some (.file text) := Except.ok.inj h
    simp only [read, hplace, bind, Except.bind, hentry, newlines_of_not_mem htext,
      String.ofList_toList]
  · cases h
  · cases h

end Disk

namespace Path

theorem parts_join_ne_nil (path : Path) {text : String} {c : Char} (hmem : c ∈ text.toList)
    (hslash : c ≠ '/') (hdot : c ≠ '.') : (path.join text).parts ≠ [] := by
  have hsplit : text.toList = Chars.join ['/'] (Chars.splitOn ['/'] text.toList) :=
    (Chars.join_splitOn ['/'] text.toList).symm
  rw [hsplit] at hmem
  have hpart : ∃ part ∈ Chars.splitOn ['/'] text.toList, c ∈ part :=
    (Chars.mem_of_mem_join hmem).resolve_left fun h => hslash (List.mem_singleton.mp h)
  obtain ⟨part, hpart, hc⟩ := hpart
  have hname : isPart (String.ofList part) = true := by
    have hempty : String.ofList part ≠ "" := by
      intro heq
      rw [String.ofList_eq_empty_iff.mp heq] at hc
      cases hc
    have hsingle : String.ofList part ≠ "." := by
      intro heq
      have hchars : part = ['.'] := by simpa using congrArg String.toList heq
      rw [hchars, List.mem_singleton] at hc
      exact hdot hc
    simp [isPart, hempty, hsingle]
  have hnext : (ofText text).parts ≠ [] := by
    refine List.ne_nil_of_mem (List.mem_filter.mpr ⟨?_, hname⟩)
    exact List.mem_map.mpr ⟨part, hpart, rfl⟩
  unfold join
  dsimp only
  split
  · exact hnext
  · exact List.append_ne_nil_of_right_ne_nil _ hnext

end Path

end Sitecheck
