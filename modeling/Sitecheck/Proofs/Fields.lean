import Sitecheck.Json.Basic
import Mathlib.Data.List.Nodup

/-!
# Ordered look-up tables

Setting a key changes its value and nothing else: the other members keep their
values, and the keys their order.  So does setting many keys, and those that are new
come after the others.
-/

namespace Sitecheck.Fields

variable {α : Type} {key : String} {value : α} {fields : List (String × α)}
variable {field : String × α}

theorem mem_of_mem_set (h : field ∈ set key value fields) :
    field = (key, value) ∨ field ∈ fields := by
  induction fields with
  | nil => exact .inl (List.mem_singleton.mp h)
  | cons head rest ih =>
    obtain ⟨name, old⟩ := head
    by_cases hname : name = key
    · subst hname
      rw [set, beq_self_eq_true, if_pos rfl] at h
      rcases List.mem_cons.mp h with rfl | h
      · exact .inl rfl
      · exact .inr (List.mem_cons_of_mem _ h)
    · rw [set, beq_false_of_ne hname, if_neg Bool.false_ne_true] at h
      rcases List.mem_cons.mp h with rfl | h
      · exact .inr List.mem_cons_self
      · exact (ih h).imp_right (List.mem_cons_of_mem _)

theorem keys_set_of_mem (h : key ∈ fields.map Prod.fst) :
    (set key value fields).map Prod.fst = fields.map Prod.fst := by
  induction fields with
  | nil => cases h
  | cons head rest ih =>
    obtain ⟨name, old⟩ := head
    by_cases hname : name = key
    · rw [set, beq_iff_eq.mpr hname, if_pos rfl]
      rfl
    · have hrest : key ∈ rest.map Prod.fst :=
        (List.mem_cons.mp h).resolve_left fun heq => hname heq.symm
      rw [set, beq_false_of_ne hname, if_neg Bool.false_ne_true, List.map_cons, ih hrest]
      rfl

theorem keys_set_of_not_mem (h : key ∉ fields.map Prod.fst) :
    (set key value fields).map Prod.fst = fields.map Prod.fst ++ [key] := by
  rw [set_of_not_mem h, List.map_append]
  rfl

theorem nodup_set (h : (fields.map Prod.fst).Nodup) : ((set key value fields).map Prod.fst).Nodup := by
  by_cases hkey : key ∈ fields.map Prod.fst
  · rwa [keys_set_of_mem hkey]
  · rw [keys_set_of_not_mem hkey]
    exact List.nodup_append.mpr ⟨h, List.nodup_singleton _, by
      rintro a ha b hb rfl
      exact hkey (List.mem_singleton.mp hb ▸ ha)⟩

theorem mem_of_get? (h : get? key fields = some value) : (key, value) ∈ fields := by
  obtain ⟨front, rest, rfl, -⟩ := List.lookup_eq_some_iff.mp h
  simp

theorem has_iff : has key fields = true ↔ key ∈ fields.map Prod.fst := by
  rw [has, get?, List.lookup_isSome_iff, List.mem_map]
  exact exists_congr fun field => and_congr_right fun _ => by rw [beq_iff_eq, eq_comm]

theorem get?_eq_none_iff : get? key fields = none ↔ key ∉ fields.map Prod.fst := by
  rw [← has_iff, has, Bool.not_eq_true, Option.isSome_eq_false_iff, Option.isNone_iff_eq_none]

theorem get?_of_mem (hnodup : (fields.map Prod.fst).Nodup) (h : field ∈ fields) :
    get? field.1 fields = some field.2 := by
  induction fields with
  | nil => cases h
  | cons head rest ih =>
    obtain ⟨hnot, hnodup⟩ := List.nodup_cons.mp hnodup
    rcases List.mem_cons.mp h with rfl | h
    · rw [get?, List.lookup_cons_self]
    · have hne : (field.1 == head.1) = false :=
        beq_false_of_ne fun heq => hnot (heq ▸ List.mem_map_of_mem h)
      rw [get?, List.lookup_cons, hne]
      exact ih hnodup h

theorem set_of_get? (h : get? key fields = some value) : set key value fields = fields := by
  induction fields with
  | nil => cases h
  | cons head rest ih =>
    obtain ⟨name, old⟩ := head
    by_cases hname : name = key
    · subst hname
      obtain rfl : old = value := by simpa [get?] using h
      simp [set]
    · have hother : (key == name) = false := by simpa using fun heq => hname heq.symm
      rw [get?, List.lookup_cons, hother] at h
      rw [set, beq_false_of_ne hname, if_neg Bool.false_ne_true, ih h]

theorem map_set {β : Type} (f : α → β) (key : String) (value : α) (fields : List (String × α)) :
    (set key value fields).map (fun field => (field.1, f field.2)) =
      set key (f value) (fields.map fun field => (field.1, f field.2)) := by
  induction fields with
  | nil => rfl
  | cons head rest ih =>
    rw [set, List.map_cons, set]
    split
    · rfl
    · rw [List.map_cons, ih]

/-! ## Setting many keys -/

variable {changes : List (String × α)}

theorem mem_of_mem_update (h : field ∈ update changes fields) :
    field ∈ changes ∨ field ∈ fields := by
  induction changes generalizing fields with
  | nil => exact .inr h
  | cons change changes ih =>
    rcases ih h with h | h
    · exact .inl (List.mem_cons_of_mem _ h)
    · rcases mem_of_mem_set h with rfl | h
      · exact .inl List.mem_cons_self
      · exact .inr h

theorem nodup_update (h : (fields.map Prod.fst).Nodup) :
    ((update changes fields).map Prod.fst).Nodup := by
  induction changes generalizing fields with
  | nil => exact h
  | cons change changes ih => exact ih (nodup_set h)

theorem get?_update_of_not_mem (h : key ∉ changes.map Prod.fst) :
    get? key (update changes fields) = get? key fields := by
  induction changes generalizing fields with
  | nil => rfl
  | cons change changes ih =>
    obtain ⟨hne, hrest⟩ := List.ne_and_not_mem_of_not_mem_cons h
    exact (ih hrest).trans (get?_set_of_ne hne _ _)

theorem get?_update_of_mem (hnodup : (changes.map Prod.fst).Nodup) (h : (key, value) ∈ changes) :
    get? key (update changes fields) = some value := by
  induction changes generalizing fields with
  | nil => cases h
  | cons change changes ih =>
    obtain ⟨hnot, hnodup⟩ := List.nodup_cons.mp hnodup
    rcases List.mem_cons.mp h with rfl | h
    · exact (get?_update_of_not_mem hnot).trans (get?_set_self _ _ _)
    · exact ih hnodup h

theorem get?_update (key : String) (changes fields : List (String × α)) :
    get? key (update changes fields) = (get? key changes.reverse).or (get? key fields) := by
  induction changes generalizing fields with
  | nil => rfl
  | cons change changes ih =>
    obtain ⟨name, value⟩ := change
    have hstep : update ((name, value) :: changes) fields = update changes (set name value fields) :=
      rfl
    have happend : get? key (changes.reverse ++ [(name, value)]) =
        (get? key changes.reverse).or (get? key [(name, value)]) := List.lookup_append
    rw [hstep, ih, List.reverse_cons, happend, Option.or_assoc]
    by_cases hkey : key = name
    · subst hkey
      rw [get?_set_self]
      simp [get?]
    · rw [get?_set_of_ne hkey]
      simp [get?, List.lookup_cons, beq_false_of_ne hkey]

theorem exists_get?_update (h : key ∈ changes.map Prod.fst) (fields : List (String × α)) :
    ∃ value, (key, value) ∈ changes ∧ get? key (update changes fields) = some value := by
  induction changes generalizing fields with
  | nil => cases h
  | cons change changes ih =>
    by_cases hrest : key ∈ changes.map Prod.fst
    · obtain ⟨value, hmem, hget⟩ := ih hrest (set change.1 change.2 fields)
      exact ⟨value, List.mem_cons_of_mem _ hmem, hget⟩
    · obtain rfl : key = change.1 := (List.mem_cons.mp h).resolve_right hrest
      exact ⟨change.2, List.mem_cons_self, (get?_update_of_not_mem hrest).trans (get?_set_self _ _ _)⟩

theorem update_append (changes more fields : List (String × α)) :
    update (changes ++ more) fields = update more (update changes fields) := List.foldl_append

theorem update_eq_append (h : ((fields ++ changes).map Prod.fst).Nodup) :
    update changes fields = fields ++ changes := by
  induction changes generalizing fields with
  | nil => simp [update]
  | cons change changes ih =>
    have hsplit : fields ++ change :: changes = (fields ++ [change]) ++ changes := by simp
    have hnot : change.1 ∉ fields.map Prod.fst := by
      rw [List.map_append, List.nodup_append] at h
      exact fun hmem => h.2.2 _ hmem _ List.mem_cons_self rfl
    rw [hsplit] at h ⊢
    rw [← ih h, ← set_of_not_mem hnot]
    rfl

theorem update_nil_of_nodup (h : (changes.map Prod.fst).Nodup) : update changes [] = changes :=
  update_eq_append h

theorem update_of_get? (h : ∀ change ∈ changes, get? change.1 fields = some change.2) :
    update changes fields = fields := by
  induction changes with
  | nil => rfl
  | cons change changes ih =>
    have hset := set_of_get? (h change List.mem_cons_self)
    have hrest := ih fun other hother => h other (List.mem_cons_of_mem _ hother)
    rw [← hset] at hrest
    exact hrest.trans hset

theorem update_update (h : (changes.map Prod.fst).Nodup) (fields : List (String × α)) :
    update changes (update changes fields) = update changes fields :=
  update_of_get? fun _ hchange => get?_update_of_mem h hchange

theorem map_update {β : Type} (f : α → β) (changes fields : List (String × α)) :
    (update changes fields).map (fun field => (field.1, f field.2)) =
      update (changes.map fun field => (field.1, f field.2))
        (fields.map fun field => (field.1, f field.2)) := by
  induction changes generalizing fields with
  | nil => rfl
  | cons change changes ih =>
    have hrest := ih (set change.1 change.2 fields)
    rw [map_set] at hrest
    exact hrest

theorem keys_update (changes fields : List (String × α)) :
    ∃ new, (update changes fields).map Prod.fst = fields.map Prod.fst ++ new ∧
      ∀ key ∈ new, key ∈ changes.map Prod.fst := by
  induction changes generalizing fields with
  | nil => exact ⟨[], by simp [update], by simp⟩
  | cons change changes ih =>
    obtain ⟨new, hkeys, hnew⟩ := ih (set change.1 change.2 fields)
    by_cases hmem : change.1 ∈ fields.map Prod.fst
    · refine ⟨new, ?_, fun key hkey => List.mem_cons_of_mem _ (hnew key hkey)⟩
      rw [keys_set_of_mem hmem] at hkeys
      exact hkeys
    · refine ⟨change.1 :: new, ?_, fun key hkey => ?_⟩
      · rw [keys_set_of_not_mem hmem, List.append_assoc] at hkeys
        exact hkeys
      · rcases List.mem_cons.mp hkey with rfl | hkey
        · exact List.mem_cons_self
        · exact List.mem_cons_of_mem _ (hnew key hkey)

/-- Only the named members have changed, to these values; the keys that were there are in
their order, and those that are new come after them. -/
structure Amended (changes before after : List (String × α)) : Prop where
  keys : ∃ new, after.map Prod.fst = before.map Prod.fst ++ new ∧
    ∀ key ∈ new, key ∈ changes.map Prod.fst
  changed : ∀ change ∈ changes, get? change.1 after = some change.2
  others : ∀ key, key ∉ changes.map Prod.fst → get? key after = get? key before

theorem amended_update (h : (changes.map Prod.fst).Nodup) (fields : List (String × α)) :
    Amended changes fields (update changes fields) where
  keys := keys_update changes fields
  changed _ hchange := get?_update_of_mem h hchange
  others _ hkey := get?_update_of_not_mem hkey

theorem amended_set (key : String) (value : α) (fields : List (String × α)) :
    Amended [(key, value)] fields (set key value fields) :=
  amended_update (by simp) fields

end Sitecheck.Fields
