import Sitecheck.Proofs.Directory

/-!
# Places that paths name

A path that leads anywhere leads to the place that its parts name, with two dots for
one step up (`place_eq_target`).  So writing a file changes nothing but the file at that
place (`Changed.of_write`).
-/

namespace Sitecheck

namespace Entry

theorem find?_put_file {location place : List String} {entry : Entry} (hne : place ≠ location)
    (hnot : ∀ inner, find? location entry ≠ some (directory inner)) (text other : String) :
    find? place (put (file text) location entry) = some (file other) ↔
      find? place entry = some (file other) := by
  induction location generalizing place entry with
  | nil =>
    cases entry with
    | directory entries => exact absurd rfl (hnot entries)
    | file =>
      cases place with
      | nil => exact absurd rfl hne
      | cons => rfl
  | cons name location ih =>
    cases entry with
    | file => rfl
    | directory entries =>
      cases place with
      | nil => simp [put, find?]
      | cons first place =>
        rw [put, find?, find?]
        by_cases hname : first = name
        · subst hname
          have hrest : place ≠ location := fun heq => hne (heq ▸ rfl)
          rw [find?] at hnot
          rw [Fields.get?_set_self]
          cases hnext : Fields.get? first entries with
          | some =>
            rw [hnext] at hnot
            exact ih hrest hnot
          | none =>
            -- nothing was there, and no file comes but the new one
            cases location with
            | nil =>
              cases place with
              | nil => exact absurd rfl hrest
              | cons => simp [put, find?]
            | cons =>
              refine (ih hrest (by simp [find?, Fields.get?])).trans ?_
              cases place <;> simp [find?, Fields.get?]
        · rw [Fields.get?_set_of_ne hname]

end Entry

namespace Disk

variable {location : List String}

variable {disk disk' : Disk} {path : Path}

/-! ## The place that a path names -/

def resolve (place parts : List String) : List String := parts.foldl step place

def target (disk : Disk) (path : Path) : List String := resolve (disk.start path) path.parts

theorem resolve_append (place front rest : List String) :
    resolve place (front ++ rest) = resolve (resolve place front) rest := List.foldl_append

theorem walk_eq_resolve {place parts : List String} (h : disk.walk place parts = .ok location) :
    location = resolve place parts := by
  induction parts generalizing place with
  | nil =>
    cases h
    rfl
  | cons part parts ih =>
    obtain ⟨-, -, hrest⟩ := walk_cons_iff.mp h
    exact ih hrest

theorem place_eq_target (h : disk.place path = .ok location) : location = disk.target path := by
  unfold place at h
  split at h
  · cases h
  · split at h
    · next hlocate =>
      cases h
      exact walk_eq_resolve hlocate
    · cases h

theorem Stands.target (h : Stands disk disk') (path : Path) : disk'.target path = disk.target path := by
  rw [Disk.target, Disk.target, h.start]

/-! ## Disks on which some files have changed -/

/-- Directories may have been added, and elsewhere than at some places the files are the
same. -/
structure Changed (places : List String → Prop) (disk disk' : Disk) : Prop extends Stands disk disk' where
  file : ∀ place, ¬ places place → ∀ text,
    disk'.entry? place = some (.file text) ↔ disk.entry? place = some (.file text)

variable {places : List String → Prop}

theorem Changed.of_grown (h : Grown disk disk') : Changed places disk disk' :=
  ⟨h.toStands, fun place _ text => h.file place text⟩

theorem Changed.refl (disk : Disk) : Changed places disk disk := .of_grown (.refl disk)

theorem Changed.trans {disk'' : Disk} (h : Changed places disk disk') (h' : Changed places disk' disk'') :
    Changed places disk disk'' :=
  ⟨h.toStands.trans h'.toStands, fun place hplace text =>
    (h'.file place hplace text).trans (h.file place hplace text)⟩

theorem Changed.of_write {text : String} (h : disk.write path text = .ok disk')
    (hplace : places (disk.target path)) : Changed places disk disk' := by
  obtain ⟨location, hlocation, hnot, rfl⟩ := write_eq_ok h
  obtain rfl := place_eq_target hlocation
  refine ⟨stands_put hnot _, fun place hother other => ?_⟩
  have hne : place ≠ disk.target path := by
    rintro rfl
    exact hother hplace
  exact Entry.find?_put_file hne hnot text other

end Disk

end Sitecheck
