import Mathlib.Data.List.Forall2

/-!
# Computations that may fail

A computation in steps succeeds exactly if each of its steps does.  What a loop
gives is related to its items one by one.
-/

namespace Sitecheck

variable {ε α β γ : Type}
variable {f : α → Except ε β} {items : List α} {results : List β}

/-! ## Lists related item by item -/

section Forall₂

variable {R : α → β → Prop} {S : β → γ → Prop} {items : List α} {results : List β} {others : List γ}

theorem exists_forall₂ (h : ∀ item ∈ items, ∃ result, R item result) :
    ∃ results, List.Forall₂ R items results := by
  induction items with
  | nil => exact ⟨[], .nil⟩
  | cons item items ih =>
    obtain ⟨result, hresult⟩ := h item List.mem_cons_self
    obtain ⟨results, hresults⟩ := ih fun item hitem => h item (List.mem_cons_of_mem _ hitem)
    exact ⟨result :: results, .cons hresult hresults⟩

theorem exists_of_mem_forall₂ (h : List.Forall₂ R items results) {result : β} (hresult : result ∈ results) :
    ∃ item ∈ items, R item result := by
  induction h with
  | nil => cases hresult
  | cons hitem _ ih =>
    rcases List.mem_cons.mp hresult with rfl | hresult
    · exact ⟨_, List.mem_cons_self, hitem⟩
    · obtain ⟨item, hmem, hitem⟩ := ih hresult
      exact ⟨item, List.mem_cons_of_mem _ hmem, hitem⟩

theorem exists_of_mem_forall₂_left (h : List.Forall₂ R items results) {item : α} (hitem : item ∈ items) :
    ∃ result ∈ results, R item result := by
  induction h with
  | nil => cases hitem
  | cons hresult _ ih =>
    rcases List.mem_cons.mp hitem with rfl | hitem
    · exact ⟨_, List.mem_cons_self, hresult⟩
    · obtain ⟨result, hmem, hresult⟩ := ih hitem
      exact ⟨result, List.mem_cons_of_mem _ hmem, hresult⟩

theorem forall₂_of_mem {R' : α → β → Prop} (h : List.Forall₂ R items results)
    (himp : ∀ item ∈ items, ∀ result ∈ results, R item result → R' item result) :
    List.Forall₂ R' items results := by
  induction h with
  | nil => exact .nil
  | cons hitem _ ih =>
    refine .cons (himp _ List.mem_cons_self _ List.mem_cons_self hitem) (ih ?_)
    exact fun item hmem result hresult =>
      himp item (List.mem_cons_of_mem _ hmem) result (List.mem_cons_of_mem _ hresult)

theorem map_eq_map_of_forall₂ (h : List.Forall₂ R items results) {f : α → γ} {g : β → γ}
    (hvalue : ∀ item result, R item result → f item = g result) : items.map f = results.map g := by
  rw [← List.forall₂_eq_eq_eq, List.forall₂_map_left_iff, List.forall₂_map_right_iff]
  exact h.imp hvalue

theorem forall₂_comp (h : List.Forall₂ R items results) (h' : List.Forall₂ S results others) :
    List.Forall₂ (fun item other => ∃ result, R item result ∧ S result other) items others := by
  induction h generalizing others with
  | nil =>
    cases h'
    exact .nil
  | cons hitem _ ih =>
    cases h' with
    | cons hother hothers => exact .cons ⟨_, hitem, hother⟩ (ih hothers)

end Forall₂

/-! ## Steps and loops -/

theorem ok_bind (a : α) (f : α → Except ε β) : Except.ok a >>= f = f a := rfl

theorem bind_eq_ok_iff {x : Except ε α} {b : β} :
    (x >>= f) = .ok b ↔ ∃ a, x = .ok a ∧ f a = .ok b := by
  cases x with
  | error | ok => simp [bind, Except.bind]

theorem mapM_congr {g : α → Except ε β} (h : ∀ item ∈ items, f item = g item) :
    items.mapM f = items.mapM g := by
  induction items with
  | nil => rfl
  | cons item items ih =>
    obtain ⟨hitem, hitems⟩ := List.forall_mem_cons.mp h
    rw [List.mapM_cons, List.mapM_cons, hitem, ih hitems]

theorem mapM_eq_ok_iff :
    items.mapM f = .ok results ↔ List.Forall₂ (fun item result => f item = .ok result) items results := by
  induction items generalizing results with
  | nil =>
    cases results with
    | nil => simp [pure, Except.pure]
    | cons => simp [pure, Except.pure]
  | cons item items ih =>
    rw [List.mapM_cons, bind_eq_ok_iff, List.forall₂_cons_left_iff]
    constructor
    · rintro ⟨result, hresult, h⟩
      obtain ⟨rest, hrest, h⟩ := bind_eq_ok_iff.mp h
      cases h
      exact ⟨result, rest, hresult, ih.mp hrest, rfl⟩
    · rintro ⟨result, rest, hresult, hrest, rfl⟩
      exact ⟨result, hresult, bind_eq_ok_iff.mpr ⟨rest, ih.mpr hrest, rfl⟩⟩

theorem exists_of_mem_mapM {result : β} (h : items.mapM f = .ok results)
    (hresult : result ∈ results) :
    ∃ item ∈ items, f item = .ok result :=
  exists_of_mem_forall₂ (mapM_eq_ok_iff.mp h) hresult

/-- A loop over values that fails at the first one that is not as it should be. -/
theorem mapM_eq_ite {R : α → γ → Prop} {p : γ → Bool} {g : γ → β} {fault : ε} {values : List γ}
    (hf : ∀ item value, R item value → f item = if p value then .ok (g value) else .error fault)
    (h : List.Forall₂ R items values) :
    items.mapM f = if values.all p then .ok (values.map g) else .error fault := by
  induction h with
  | nil => rfl
  | @cons item value items values hitem _ ih =>
    rw [List.mapM_cons, hf item value hitem, ih]
    cases hp : p value with
    | false => simp [hp, bind, Except.bind]
    | true => cases hall : values.all p <;> simp [hp, hall, bind, Except.bind, pure, Except.pure]

end Sitecheck
