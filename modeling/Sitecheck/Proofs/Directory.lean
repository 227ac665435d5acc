import Sitecheck.Proofs.Disk

/-!
# Directories that have been made

Making directories adds empty ones and changes no file (`grown_makeDirectory`).  Once
made, a directory is found where its path leads (`hasDirectory_of_makeDirectory`), and
making it again changes nothing (`makeDirectory_of_hasDirectory`).
-/

namespace Sitecheck

namespace Entry

theorem find?_put_empty (location place : List String) (text : String) :
    find? place (put (directory []) location (directory [])) ≠ some (file text) := by
  induction location generalizing place with
  | nil => cases place <;> simp [put, find?, Fields.get?]
  | cons name location ih =>
    cases place with
    | nil => simp [put, find?]
    | cons first place =>
      rw [put, find?]
      by_cases hname : first = name
      · subst hname
        rw [Fields.get?_set_self]
        exact ih place
      · rw [Fields.get?_set_of_ne hname]
        simp [Fields.get?]

theorem find?_put_directory {location : List String} {entry : Entry}
    (h : find? location entry = none) (place : List String) (text : String) :
    find? place (put (directory []) location entry) = some (file text) ↔
      find? place entry = some (file text) := by
  induction location generalizing place entry with
  | nil => cases h
  | cons name location ih =>
    cases entry with
    | file => rfl
    | directory entries =>
      cases place with
      | nil => simp [put, find?]
      | cons first place =>
        rw [put, find?, find?]
        by_cases hname : first = name
        · subst hname
          rw [find?] at h
          rw [Fields.get?_set_self]
          cases hnext : Fields.get? first entries with
          | none => simpa using find?_put_empty location place text
          | some =>
            rw [hnext] at h
            exact ih h place
        · rw [Fields.get?_set_of_ne hname]

end Entry

namespace Disk

variable {disk disk' : Disk} {path : Path}
variable {place target rest parts : List String} {entries : List (String × Entry)} {part : String}
  {entry : Entry}

/-! ## Disks on which more is found -/

/-- Directories may have been added, and the files are the same. -/
structure Grown (disk disk' : Disk) : Prop extends Stands disk disk' where
  file : ∀ place text, disk'.entry? place = some (.file text) ↔ disk.entry? place = some (.file text)

theorem Grown.refl (disk : Disk) : Grown disk disk := ⟨⟨rfl, fun h => ⟨_, h⟩⟩, fun _ _ => .rfl⟩

theorem Grown.trans {disk'' : Disk} (h : Grown disk disk') (h' : Grown disk' disk'') :
    Grown disk disk'' :=
  ⟨h.toStands.trans h'.toStands, fun place text => (h'.file place text).trans (h.file place text)⟩

theorem walk_append {middle front : List String} (hfront : disk.walk place front = .ok middle)
    (hrest : disk.walk middle rest = .ok target) :
    disk.walk place (front ++ rest) = .ok target := by
  induction front generalizing place with
  | nil =>
    cases hfront
    exact hrest
  | cons part front ih =>
    obtain ⟨hentry, hlong, hmore⟩ := walk_cons_iff.mp hfront
    exact walk_cons_iff.mpr ⟨hentry, hlong, ih hmore⟩

/-! ## Directories at a path -/

def HasDirectory (disk : Disk) (path : Path) : Prop :=
  refusal? path = none ∧ ∃ location entries, disk.locate path = .ok location ∧
    disk.entry? location = some (.directory entries)

theorem HasDirectory.of_stands (h : HasDirectory disk path) (hstands : Stands disk disk') :
    HasDirectory disk' path := by
  obtain ⟨hrefusal, location, entries, hlocate, hentry⟩ := h
  obtain ⟨inner, hinner⟩ := hstands.directory hentry
  refine ⟨hrefusal, location, inner, ?_, hinner⟩
  rw [locate, hstands.start]
  exact hstands.walk hlocate

theorem reach_of_walk (hwalk : disk.walk place parts = .ok target)
    (htarget : disk.entry? target = some (.directory entries)) :
    disk.reach place parts = .ok (target, []) := by
  induction parts generalizing place with
  | nil =>
    cases hwalk
    unfold reach
    simp only [htarget]
  | cons part parts ih =>
    obtain ⟨⟨inner, hentry⟩, hlong, hrest⟩ := walk_cons_iff.mp hwalk
    unfold reach
    simp only [hentry, hlong, Bool.false_eq_true, if_false]
    exact ih hrest

theorem makeDirectory_of_hasDirectory (h : HasDirectory disk path) :
    disk.makeDirectory path = (.ok (), disk) := by
  obtain ⟨hrefusal, location, entries, hlocate, hentry⟩ := h
  simp only [makeDirectory, hrefusal, reach_of_walk hlocate hentry, fillPlace, hentry, fill]
  rfl

/-! ## Making directories -/

theorem grown_of_fillPlace (h : disk.fillPlace place = .ok disk') : Grown disk disk' := by
  unfold fillPlace at h
  split at h
  · next hnone =>
    cases h
    exact ⟨stands_put (by simp [hnone]) _, fun place' text => Entry.find?_put_directory hnone place' text⟩
  · cases h
    exact .refl _
  · cases h

theorem directory_of_fillPlace (hplace : disk.entry? place = some (.directory entries))
    (h : disk.fillPlace (step place part) = .ok disk') :
    ∃ inner, disk'.entry? (step place part) = some (.directory inner) := by
  unfold fillPlace at h
  split at h
  · next hnone =>
    cases h
    -- one level up there is a directory already
    have hpart : (part == "..") = false := by
      by_contra hdots
      rw [Bool.not_eq_false] at hdots
      obtain ⟨inner, hinner⟩ := directory_dropLast hplace
      rw [step, if_pos hdots, hinner] at hnone
      cases hnone
    rw [step, hpart, if_neg Bool.false_ne_true]
    exact ⟨[], Entry.find?_put hplace part _⟩
  · next inner hinner =>
    cases h
    exact ⟨inner, hinner⟩
  · cases h

theorem grown_fill (disk : Disk) (place parts : List String) :
    Grown disk (disk.fill place parts).2 := by
  induction parts generalizing disk place with
  | nil => exact .refl disk
  | cons part parts ih =>
    unfold fill
    split
    · exact .refl disk
    · split
      · exact .refl disk
      · next hfill => exact (grown_of_fillPlace hfill).trans (ih _ _)

theorem walk_of_fill (hplace : disk.entry? place = some (.directory entries))
    (h : disk.fill place parts = (none, disk')) :
    ∃ target inner, disk'.walk place parts = .ok target ∧
      disk'.entry? target = some (.directory inner) := by
  induction parts generalizing disk place entries with
  | nil =>
    cases h
    exact ⟨place, entries, rfl, hplace⟩
  | cons part parts ih =>
    unfold fill at h
    split at h
    · cases h
    · next hlong =>
      split at h
      · cases h
      · next middle hfill =>
        obtain ⟨inner, hinner⟩ := directory_of_fillPlace hplace hfill
        obtain ⟨target, found, hwalk, htarget⟩ := ih hinner h
        have hgrown : Grown middle disk' := by
          have hrest := grown_fill middle (step place part) parts
          rwa [h] at hrest
        have hstays := ((grown_of_fillPlace hfill).trans hgrown).directory hplace
        exact ⟨target, found, walk_cons_iff.mpr ⟨hstays, by simpa using hlong, hwalk⟩, htarget⟩

/-- What is reached from a directory is reached by walking: a directory at the end of the
row, or a place where nothing is, next to a directory. -/
theorem walk_of_reach (hplace : disk.entry? place = some (.directory entries))
    (h : disk.reach place parts = .ok (target, rest)) :
    ∃ front, parts = front ++ rest ∧ disk.walk place front = .ok target ∧
      ((∃ inner, disk.entry? target = some (.directory inner)) ∨
        ∃ last part inner, disk.entry? last = some (.directory inner) ∧ target = step last part) := by
  induction parts generalizing place entries with
  | nil =>
    unfold reach at h
    simp only [hplace] at h
    cases h
    exact ⟨[], rfl, rfl, .inl ⟨entries, hplace⟩⟩
  | cons part parts ih =>
    unfold reach at h
    simp only [hplace] at h
    split at h
    · cases h
    · next hlong =>
      have hstep {front : List String} {target : List String}
          (hwalk : disk.walk (step place part) front = .ok target) :
          disk.walk place (part :: front) = .ok target :=
        walk_cons_iff.mpr ⟨⟨entries, hplace⟩, by simpa using hlong, hwalk⟩
      cases hnext : disk.entry? (step place part) with
      | none =>
        have hreach : disk.reach (step place part) parts = .ok (step place part, parts) := by
          cases parts <;> simp only [reach, hnext]
        rw [hreach] at h
        cases h
        exact ⟨[part], rfl, hstep rfl, .inr ⟨place, part, entries, hplace, rfl⟩⟩
      | some entry =>
        cases entry with
        | file =>
          unfold reach at h
          rw [hnext] at h
          cases parts <;> cases h
        | directory =>
          obtain ⟨front, rfl, hwalk, hend⟩ := ih hnext h
          exact ⟨part :: front, rfl, hstep hwalk, hend⟩

theorem grown_makeDirectory (path : Path) (disk : Disk) : Grown disk (disk.makeDirectory path).2 := by
  unfold makeDirectory
  split
  · exact .refl disk
  split
  · exact .refl disk
  split
  · exact .refl disk
  split
  · exact .refl disk
  next place parts _ _ _ middle hplace =>
  have hgrown := (grown_of_fillPlace hplace).trans (grown_fill middle place parts)
  split <;> next hfill => rwa [hfill] at hgrown

theorem hasDirectory_of_makeDirectory
    (hstart : disk.entry? (disk.start path) = some (.directory entries))
    (h : (disk.makeDirectory path).1 = .ok ()) : HasDirectory (disk.makeDirectory path).2 path := by
  have hgrown := grown_makeDirectory path disk
  unfold makeDirectory at h hgrown ⊢
  split at h
  · cases h
  next hrefusal =>
  simp only [hrefusal] at hgrown ⊢
  split at h
  · cases h
  next place parts hreach =>
  simp only [hreach] at hgrown ⊢
  split at h
  · cases h
  next hshallow =>
  simp only [hshallow, if_false] at hgrown ⊢
  split at h
  · cases h
  next middle hplace =>
  simp only [hplace] at hgrown ⊢
  split at h
  · next made hfill =>
    simp only [hfill] at hgrown ⊢
    obtain ⟨front, hparts, hwalk, hend⟩ := walk_of_reach hstart hreach
    have hmiddle : ∃ inner, middle.entry? place = some (.directory inner) := by
      rcases hend with ⟨inner, hinner⟩ | ⟨last, part, inner, hlast, rfl⟩
      · exact (grown_of_fillPlace hplace).directory hinner
      · exact directory_of_fillPlace hlast hplace
    obtain ⟨inner, hinner⟩ := hmiddle
    obtain ⟨target, found, hrest, htarget⟩ := walk_of_fill hinner hfill
    refine ⟨hrefusal, target, found, ?_, htarget⟩
    rw [locate, hgrown.start, hparts]
    exact walk_append (hgrown.walk hwalk) hrest
  · cases h

/-! ## Files at a row of names -/

theorem directory_of_entry? (h : disk.entry? (place ++ part :: parts) = some entry) :
    ∃ entries, disk.entry? place = some (.directory entries) := by
  unfold entry? at h
  rw [Entry.find?_append] at h
  obtain ⟨found, hfound, hrest⟩ := Option.bind_eq_some_iff.mp h
  cases found with
  | file => cases hrest
  | directory entries => exact ⟨entries, hfound⟩

def AreNames (parts : List String) : Prop :=
  ∀ part ∈ parts, (part == "..") = false ∧ isTooLong part = false

theorem walk_names (hparts : AreNames parts) (h : disk.entry? (place ++ parts) = some entry) :
    disk.walk place parts = .ok (place ++ parts) := by
  induction parts generalizing place with
  | nil => rw [walk, List.append_nil]
  | cons part parts ih =>
    obtain ⟨⟨hdots, hlong⟩, hrest⟩ := List.forall_mem_cons.mp hparts
    have hdirectory := directory_of_entry? h
    have hsplit : place ++ part :: parts = place ++ [part] ++ parts := by simp
    refine walk_cons_iff.mpr ⟨hdirectory, hlong, ?_⟩
    rw [step, hdots, if_neg Bool.false_ne_true, hsplit]
    exact ih hrest (hsplit ▸ h)

theorem eq_of_walk_names (hparts : AreNames parts) (h : disk.walk place parts = .ok target) :
    target = place ++ parts := by
  induction parts generalizing place with
  | nil =>
    cases h
    exact (List.append_nil _).symm
  | cons part parts ih =>
    obtain ⟨⟨hdots, -⟩, hrest⟩ := List.forall_mem_cons.mp hparts
    obtain ⟨-, -, hmore⟩ := walk_cons_iff.mp h
    have htarget := ih hrest hmore
    rw [step, hdots, if_neg Bool.false_ne_true] at htarget
    rw [htarget, List.append_assoc]
    rfl

theorem read_names_iff (hrefusal : refusal? path = none) (hparts : AreNames path.parts) {text : String} :
    disk.read path = .ok text ↔ ∃ found,
      disk.entry? (disk.start path ++ path.parts) = some (.file found) ∧
        text = String.ofList (newlines found.toList) := by
  constructor
  · intro h
    obtain ⟨location, found, hplace, hentry, htext⟩ := place_of_read h
    simp only [place, hrefusal] at hplace
    split at hplace
    · next hlocate =>
      cases hplace
      exact ⟨found, eq_of_walk_names hparts hlocate ▸ hentry, htext⟩
    · cases hplace
  · rintro ⟨found, hentry, rfl⟩
    have hlocate : disk.locate path = .ok (disk.start path ++ path.parts) := walk_names hparts hentry
    simp only [read, place, hrefusal, hlocate, bind, Except.bind, hentry]

theorem Grown.read_names (h : Grown disk disk') (hrefusal : refusal? path = none)
    (hparts : AreNames path.parts) (text : String) :
    disk'.read path = .ok text ↔ disk.read path = .ok text := by
  simp only [read_names_iff hrefusal hparts, h.start, h.file]

end Disk

end Sitecheck
