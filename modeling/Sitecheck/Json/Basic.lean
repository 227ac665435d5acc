import Sitecheck.Number.Binary64

/-!
# JSON values

Integers of any size and binary numbers are told apart.  An object is the list
of its members in the order in which they were set; looking up a key finds its
first member, and setting a key that is there keeps its place.
-/

namespace Sitecheck

inductive Json where
  | null
  | bool (value : Bool)
  | int (value : Int)
  | float (value : Binary64)
  | str (value : String)
  | arr (items : List Json)
  | obj (fields : List (String × Json))
  deriving Inhabited

/-! ## Ordered look-up tables -/

namespace Fields

variable {α : Type}

def get? (key : String) (fields : List (String × α)) : Option α := fields.lookup key

def has (key : String) (fields : List (String × α)) : Bool := (get? key fields).isSome

/-- Sets a key: in its place if it is there, at the end otherwise. -/
def set (key : String) (value : α) : List (String × α) → List (String × α)
  | [] => [(key, value)]
  | (name, old) :: rest =>
    if name == key then (name, value) :: rest else (name, old) :: set key value rest

def update (changes fields : List (String × α)) : List (String × α) :=
  changes.foldl (fun fields (key, value) => set key value fields) fields

@[simp] theorem get?_set_self (key : String) (value : α) (fields : List (String × α)) :
    get? key (set key value fields) = some value := by
  induction fields with
  | nil => simp [set, get?]
  | cons head rest ih =>
    obtain ⟨name, old⟩ := head
    by_cases h : name = key
    · simp [set, get?, h]
    · have h' : (key == name) = false := by simpa using fun e => h e.symm
      simpa [set, get?, List.lookup_cons, h, h'] using ih

theorem get?_set_of_ne {key other : String} (h : other ≠ key) (value : α)
    (fields : List (String × α)) : get? other (set key value fields) = get? other fields := by
  induction fields with
  | nil =>
    have h' : (other == key) = false := by simpa using h
    simp [set, get?, List.lookup_cons, h']
  | cons head rest ih =>
    obtain ⟨name, old⟩ := head
    by_cases hn : name = key
    · subst hn
      have h' : (other == name) = false := by simpa using h
      simp [set, get?, List.lookup_cons, h']
    · simp only [get?] at ih
      by_cases ho : other = name
      · simp [set, get?, hn, ho]
      · have h' : (other == name) = false := by simpa using ho
        simp [set, get?, List.lookup_cons, hn, h', ih]

theorem set_of_not_mem {key : String} {fields : List (String × α)}
    (h : key ∉ fields.map Prod.fst) (value : α) : set key value fields = fields ++ [(key, value)] := by
  induction fields with
  | nil => rfl
  | cons head rest ih =>
    obtain ⟨name, old⟩ := head
    simp only [List.map_cons, List.mem_cons, not_or] at h
    have hname : (name == key) = false := by simpa using fun e => h.1 e.symm
    simp [set, hname, ih h.2]

end Fields

namespace Json

def emptyObj : Json := .obj []

def ofNat (n : Nat) : Json := .int n

def ofOption : Option String → Json
  | some text => .str text
  | none => .null

def texts (items : List String) : Json := .arr (items.map .str)

end Json

end Sitecheck
