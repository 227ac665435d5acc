import Sitecheck.Proofs.Place

/-!
# Disks that differ in the texts of files

Two disks of one shape may hold other texts in their files.  As long as the files that
certain paths name have the same texts, reading along these paths tells no difference, and
making directories and writing files leaves them so.
-/

namespace Sitecheck

namespace Entry

variable {places : List String → Prop} {entry other : Entry}

/-- Two entries of one shape, with the same texts at certain places. -/
structure Agrees (places : List String → Prop) (entry other : Entry) : Prop where
  shape : ∀ place, (find? place other).map isFile = (find? place entry).map isFile
  text : ∀ place, places place → ∀ text,
    find? place other = some (file text) ↔ find? place entry = some (file text)

theorem Agrees.refl (entry : Entry) : Agrees places entry entry := ⟨fun _ => rfl, fun _ _ _ => .rfl⟩

theorem Agrees.child {entries entries' : List (String × Entry)}
    (h : Agrees places (directory entries) (directory entries')) (name : String) :
    Agrees (fun place => places (name :: place)) ((Fields.get? name entries).getD (directory []))
      ((Fields.get? name entries').getD (directory [])) := by
  have hshape := h.shape [name]
  have hrest := fun place => h.shape (name :: place)
  have htext := fun place => h.text (name :: place)
  simp only [find?] at hshape hrest htext
  cases hfound : Fields.get? name entries with
  | none =>
    rw [hfound] at hshape
    cases hfound' : Fields.get? name entries' with
    | none => exact .refl _
    | some => simp [hfound'] at hshape
  | some =>
    rw [hfound] at hshape
    cases hfound' : Fields.get? name entries' with
    | none => simp [hfound'] at hshape
    | some =>
      simp only [hfound, hfound', Option.bind_some] at hrest htext
      exact ⟨hrest, htext⟩

theorem Agrees.put (h : Agrees places entry other) (new : Entry) (location : List String) :
    Agrees places (put new location entry) (put new location other) := by
  induction location generalizing places entry other with
  | nil => exact .refl new
  | cons name location ih =>
    have hkind := h.shape []
    cases entry with
    | file =>
      cases other with
      | file => exact h
      | directory => simp [find?, isFile] at hkind
    | directory =>
      cases other with
      | file => simp [find?, isFile] at hkind
      | directory =>
        have hchild := ih (h.child name)
        constructor
        · intro place
          cases place with
          | nil => rfl
          | cons first place =>
            by_cases hname : first = name
            · subst hname
              simpa [Entry.put, find?, Fields.get?_set_self] using hchild.shape place
            · simpa [Entry.put, find?, Fields.get?_set_of_ne hname] using h.shape (first :: place)
        · intro place hplace text
          cases place with
          | nil => simp [Entry.put, find?]
          | cons first place =>
            by_cases hname : first = name
            · subst hname
              simpa [Entry.put, find?, Fields.get?_set_self] using hchild.text place hplace text
            · simpa [Entry.put, find?, Fields.get?_set_of_ne hname] using
                h.text (first :: place) hplace text

end Entry

namespace Disk

variable {paths : Path → Prop} {disk other : Disk} {path : Path}

def targets (disk : Disk) (paths : Path → Prop) (place : List String) : Prop :=
  ∃ path, paths path ∧ disk.target path = place

/-- Two disks of one shape, with the same texts in the files that certain paths name. -/
structure Agrees (paths : Path → Prop) (disk other : Disk) : Prop where
  home : other.home = disk.home
  root : Entry.Agrees (disk.targets paths) disk.root other.root

namespace Agrees

theorem start (h : Agrees paths disk other) (path : Path) : other.start path = disk.start path := by
  rw [Disk.start, Disk.start, h.home]

theorem put (h : Agrees paths disk other) (location : List String) (entry : Entry) :
    Agrees paths (disk.put location entry) (other.put location entry) :=
  ⟨h.home, h.root.put entry location⟩

theorem entry?_cases (h : Agrees paths disk other) (place : List String) :
    disk.entry? place = none ∧ other.entry? place = none ∨
      (∃ text text', disk.entry? place = some (.file text) ∧ other.entry? place = some (.file text')) ∨
      ∃ inner inner', disk.entry? place = some (.directory inner) ∧
        other.entry? place = some (.directory inner') := by
  have hshape : (other.entry? place).map Entry.isFile = (disk.entry? place).map Entry.isFile :=
    h.root.shape place
  generalize disk.entry? place = found, other.entry? place = found' at hshape ⊢
  rcases found with _ | (_ | _) <;> rcases found' with _ | (_ | _) <;>
    simp [Entry.isFile] at hshape ⊢

/-! ## Reading -/

theorem walk (h : Agrees paths disk other) (place parts : List String) :
    other.walk place parts = disk.walk place parts := by
  induction parts generalizing place with
  | nil => rfl
  | cons part parts ih =>
    unfold Disk.walk
    rcases h.entry?_cases place with ⟨hd, ho⟩ | ⟨_, _, hd, ho⟩ | ⟨_, _, hd, ho⟩ <;>
      simp only [hd, ho, ih]

theorem place (h : Agrees paths disk other) (path : Path) : other.place path = disk.place path := by
  rw [Disk.place, Disk.place, locate, locate, h.start, h.walk]

theorem exists? (h : Agrees paths disk other) (path : Path) :
    other.exists? path = disk.exists? path := by
  unfold Disk.exists? look
  rw [h.place]
  split
  · next location _ =>
    rcases h.entry?_cases location with ⟨hd, ho⟩ | ⟨_, _, hd, ho⟩ | ⟨_, _, hd, ho⟩ <;>
      simp [hd, ho, Except.map]
  · rfl
  · rfl

theorem read (h : Agrees paths disk other) (hpath : paths path) :
    other.read path = disk.read path := by
  unfold Disk.read
  rw [h.place]
  cases hplace : disk.place path with
  | error => rfl
  | ok location =>
    have htext := h.root.text location ⟨path, hpath, (place_eq_target hplace).symm⟩
    simp only [bind, Except.bind]
    rcases h.entry?_cases location with ⟨hd, ho⟩ | ⟨text, text', hd, ho⟩ | ⟨_, _, hd, ho⟩
    · rw [hd, ho]
    · obtain rfl : text' = text := by
        have hsame := (htext text').mp ho
        rw [show Entry.find? location disk.root = some (.file text) from hd] at hsame
        cases hsame
        rfl
      rw [hd, ho]
    · rw [hd, ho]

/-! ## Making and writing -/

theorem write (h : Agrees paths disk other) (path : Path) (text : String) :
    (∃ fault, disk.write path text = .error fault ∧ other.write path text = .error fault) ∨
      ∃ disk' other', disk.write path text = .ok disk' ∧ other.write path text = .ok other' ∧
        Agrees paths disk' other' := by
  unfold Disk.write
  rw [h.place]
  cases disk.place path with
  | error fault => exact Or.inl ⟨fault, rfl, rfl⟩
  | ok location =>
    simp only [bind, Except.bind]
    have hput := h.put location (.file text)
    rcases h.entry?_cases location with ⟨hd, ho⟩ | ⟨_, _, hd, ho⟩ | ⟨_, _, hd, ho⟩ <;> rw [hd, ho]
    · exact Or.inr ⟨_, _, rfl, rfl, hput⟩
    · exact Or.inr ⟨_, _, rfl, rfl, hput⟩
    · exact Or.inl ⟨_, rfl, rfl⟩

theorem reach (h : Agrees paths disk other) (place parts : List String) :
    other.reach place parts = disk.reach place parts := by
  induction parts generalizing place with
  | nil =>
    unfold Disk.reach
    rcases h.entry?_cases place with ⟨hd, ho⟩ | ⟨_, _, hd, ho⟩ | ⟨_, _, hd, ho⟩ <;>
      simp only [hd, ho]
  | cons part parts ih =>
    unfold Disk.reach
    rcases h.entry?_cases place with ⟨hd, ho⟩ | ⟨_, _, hd, ho⟩ | ⟨_, _, hd, ho⟩ <;>
      simp only [hd, ho, ih]

theorem fillPlace (h : Agrees paths disk other) (place : List String) :
    (∃ cause, disk.fillPlace place = .error cause ∧ other.fillPlace place = .error cause) ∨
      ∃ disk' other', disk.fillPlace place = .ok disk' ∧ other.fillPlace place = .ok other' ∧
        Agrees paths disk' other' := by
  unfold Disk.fillPlace
  rcases h.entry?_cases place with ⟨hd, ho⟩ | ⟨_, _, hd, ho⟩ | ⟨_, _, hd, ho⟩ <;> rw [hd, ho]
  · exact Or.inr ⟨_, _, rfl, rfl, h.put place _⟩
  · exact Or.inl ⟨_, rfl, rfl⟩
  · exact Or.inr ⟨_, _, rfl, rfl, h⟩

theorem fill (h : Agrees paths disk other) (place parts : List String) :
    (other.fill place parts).1 = (disk.fill place parts).1 ∧
      Agrees paths (disk.fill place parts).2 (other.fill place parts).2 := by
  induction parts generalizing disk other place with
  | nil => exact ⟨rfl, h⟩
  | cons part parts ih =>
    unfold Disk.fill
    split
    · exact ⟨rfl, h⟩
    · rcases h.fillPlace (step place part) with ⟨cause, hd, ho⟩ | ⟨disk', other', hd, ho, hnext⟩ <;>
        rw [hd, ho]
      · exact ⟨rfl, h⟩
      · exact ih hnext _

theorem makeDirectory (h : Agrees paths disk other) (path : Path) :
    (other.makeDirectory path).1 = (disk.makeDirectory path).1 ∧
      Agrees paths (disk.makeDirectory path).2 (other.makeDirectory path).2 := by
  unfold Disk.makeDirectory
  rw [h.start, h.reach]
  split
  · exact ⟨rfl, h⟩
  · split
    · exact ⟨rfl, h⟩
    · next place parts _ =>
      split
      · exact ⟨rfl, h⟩
      · rcases h.fillPlace place with ⟨cause, hd, ho⟩ | ⟨disk', other', hd, ho, hnext⟩ <;>
          rw [hd, ho]
        · exact ⟨rfl, h⟩
        · obtain ⟨hresult, hfilled⟩ := hnext.fill place parts
          rcases hfill : disk'.fill place parts with ⟨_ | cause, filled⟩ <;>
            rcases hfill' : other'.fill place parts with ⟨_ | cause', filled'⟩ <;>
            simp_all

end Agrees

end Disk

end Sitecheck
