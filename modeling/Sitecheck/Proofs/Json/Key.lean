import Mathlib.Data.Rat.Defs
import Mathlib.Algebra.Field.Rat
import Mathlib.Algebra.Order.Field.Basic
import Sitecheck.Json.Table

/-!
# Keys that count as the same

A key is the same as another if both are of one class: `1`, `1.0` and `true`
are the number one.  So being the same key is an equivalence, and the distinct
keys of a list can be told from it (`firstKeys`).
-/

namespace Sitecheck

namespace Binary64

theorem den_pos_of_toRatio? {x : Binary64} {num : Int} {den : Nat}
    (h : x.toRatio? = some (num, den)) : 0 < den := by
  cases x with
  | nan | infinite => cases h
  | finite negative mantissa exponent =>
    cases exponent with
    | ofNat =>
      simp only [toRatio?, Option.some.injEq, Prod.mk.injEq] at h
      omega
    | negSucc =>
      simp only [toRatio?, Option.some.injEq, Prod.mk.injEq] at h
      rw [← h.2]
      exact Nat.pow_pos (by decide)

theorem isZero_iff_of_toRatio? {x : Binary64} {num : Int} {den : Nat}
    (h : x.toRatio? = some (num, den)) : x.isZero = true ↔ num = 0 := by
  cases x with
  | nan | infinite => cases h
  | finite negative mantissa exponent =>
    cases exponent <;> cases negative <;>
      simp only [toRatio?, Option.some.injEq, Prod.mk.injEq, if_true, Bool.false_eq_true, if_false] at h <;>
      simp [isZero, ← h.1]

end Binary64

namespace Json

variable {key x y : Json} {num a c : Int} {den b d : Nat} {ratio : Int × Nat}

inductive KeyClass where
  | null
  | text (value : String)
  | infinite (negative : Bool)
  | noNumber
  | number (value : ℚ)
  deriving DecidableEq

def keyClass? : Json → Option KeyClass
  | .null => some .null
  | .str text => some (.text text)
  | .float (.infinite negative) => some (.infinite negative)
  | .float (.nan _) => some .noNumber
  | key => (keyNumber? key).map fun (num, den) => .number (num / den)

theorem den_pos_of_keyNumber? (h : keyNumber? key = some (num, den)) : 0 < den := by
  cases key with
  | bool value | int value =>
    simp only [keyNumber?, Option.some.injEq, Prod.mk.injEq] at h
    omega
  | float => exact Binary64.den_pos_of_toRatio? h
  | null | str text | arr items | obj fields => cases h

theorem keyClass?_of_keyNumber? (h : keyNumber? key = some (num, den)) :
    keyClass? key = some (.number (num / den)) := by
  cases key with
  | bool value | int value => simp [keyClass?, h]
  | float value =>
    cases value with
    | nan | infinite => cases h
    | finite => simp [keyClass?, h]
  | null | str text | arr items | obj fields => cases h

theorem ratio_eq_iff (hb : 0 < b) (hd : 0 < d) : a * d = c * b ↔ (a : ℚ) / b = (c : ℚ) / d := by
  rw [div_eq_div_iff (by exact_mod_cast hb.ne') (by exact_mod_cast hd.ne')]
  exact_mod_cast Iff.rfl

theorem exists_of_keyNumber? (h : keyNumber? key = some ratio) :
    (∃ value, key = .bool value) ∨ (∃ value, key = .int value) ∨
      ∃ negative mantissa exponent, key = .float (.finite negative mantissa exponent) := by
  rcases key with _ | v | v | (s | s | ⟨s, m, e⟩) | _ | _ | _ <;> simp_all [keyNumber?, Binary64.toRatio?]

theorem sameKey_of_numbers (hx : keyNumber? x = some (a, b)) (hy : keyNumber? y = some (c, d)) :
    sameKey x y = (a * d == c * b) := by
  rcases exists_of_keyNumber? hx with ⟨v, rfl⟩ | ⟨v, rfl⟩ | ⟨s, m, e, rfl⟩ <;>
    rcases exists_of_keyNumber? hy with ⟨w, rfl⟩ | ⟨w, rfl⟩ | ⟨s', m', e', rfl⟩ <;>
    simp [sameKey, hx, hy]

theorem sameKey_of_number (hx : keyNumber? x = some ratio) (hy : keyNumber? y = none) :
    sameKey x y = false := by
  rcases exists_of_keyNumber? hx with ⟨v, rfl⟩ | ⟨v, rfl⟩ | ⟨s, m, e, rfl⟩ <;> simp [sameKey, hy]

theorem keyClass?_ne_number (h : keyNumber? key = none) (value : ℚ) :
    keyClass? key ≠ some (.number value) := by
  rcases key with _ | _ | _ | (_ | _ | ⟨_, _, (_ | _)⟩) | _ | _ | _ <;>
    simp_all [keyClass?, keyNumber?, Binary64.toRatio?]

theorem sameKey_iff :
    sameKey x y = true ↔ ∃ kind, keyClass? x = some kind ∧ keyClass? y = some kind := by
  rcases hx : keyNumber? x with _ | ⟨a, b⟩
  · rcases x with _ | _ | _ | (_ | _ | ⟨_, _, (_ | _)⟩) | _ | _ | _ <;>
      simp only [keyNumber?, Binary64.toRatio?, reduceCtorEq] at hx
    all_goals
      rcases y with _ | _ | _ | (_ | _ | _) | _ | _ | _ <;>
        simp [sameKey, keyClass?, keyNumber?, Binary64.toRatio?]
    all_goals exact eq_comm
  · rcases hy : keyNumber? y with _ | ⟨c, d⟩
    · rw [sameKey_of_number hx hy, keyClass?_of_keyNumber? hx]
      simp [keyClass?_ne_number hy]
    · rw [sameKey_of_numbers hx hy, keyClass?_of_keyNumber? hx, keyClass?_of_keyNumber? hy, beq_iff_eq,
        ratio_eq_iff (den_pos_of_keyNumber? hx) (den_pos_of_keyNumber? hy)]
      simp [eq_comm]

theorem sameKey_comm (h : sameKey x y = true) : sameKey y x = true := by
  obtain ⟨kind, hx, hy⟩ := sameKey_iff.mp h
  exact sameKey_iff.mpr ⟨kind, hy, hx⟩

theorem sameKey_trans {z : Json} (hxy : sameKey x y = true) (hyz : sameKey y z = true) :
    sameKey x z = true := by
  obtain ⟨kind, hx, hy⟩ := sameKey_iff.mp hxy
  obtain ⟨kind', hy', hz⟩ := sameKey_iff.mp hyz
  cases hy.symm.trans hy'
  exact sameKey_iff.mpr ⟨kind, hx, hz⟩

theorem sameKey_self (h : key.isKey = true) : sameKey key key = true := by
  have hclass : ∃ kind, keyClass? key = some kind := by
    rcases key with _ | _ | _ | (_ | _ | _) | _ | _ | _ <;>
      simp [keyClass?, keyNumber?, Binary64.toRatio?, isKey] at h ⊢
  obtain ⟨kind, hkind⟩ := hclass
  exact sameKey_iff.mpr ⟨kind, hkind, hkind⟩

theorem sameKey_str (a b : String) : sameKey (.str a) (.str b) = (a == b) := rfl

theorem isTruthy_of_keyNumber? (h : keyNumber? key = some (num, den)) :
    key.isTruthy = decide ((num / den : ℚ) ≠ 0) := by
  have hden : (den : ℚ) ≠ 0 := by exact_mod_cast (den_pos_of_keyNumber? h).ne'
  have hnum : key.isTruthy = decide (num ≠ 0) := by
    cases key with
    | bool value =>
      simp only [keyNumber?, Option.some.injEq, Prod.mk.injEq] at h
      cases value <;> simp [isTruthy, ← h.1]
    | int =>
      simp only [keyNumber?, Option.some.injEq, Prod.mk.injEq] at h
      rw [isTruthy, h.1, Bool.eq_iff_iff]
      simp
    | float value =>
      have hzero := Binary64.isZero_iff_of_toRatio? h
      cases hvalue : value.isZero <;> simp_all [isTruthy]
    | null | str text | arr items | obj fields => cases h
  simp [hnum, hden]

def KeyClass.isTruthy : KeyClass → Bool
  | .null => false
  | .text value => value != ""
  | .infinite _ | .noNumber => true
  | .number value => decide (value ≠ 0)

theorem isTruthy_of_keyClass? {kind : KeyClass} (h : keyClass? key = some kind) :
    key.isTruthy = kind.isTruthy := by
  rcases hnumber : keyNumber? key with _ | ⟨num, den⟩
  · rcases key with _ | _ | _ | (_ | _ | _) | _ | _ | _ <;>
      simp [keyClass?, keyNumber?, Binary64.toRatio?] at h hnumber <;> subst h <;> rfl
  · rw [keyClass?_of_keyNumber? hnumber, Option.some.injEq] at h
    rw [isTruthy_of_keyNumber? hnumber, ← h]
    rfl

theorem isTruthy_of_sameKey (h : sameKey x y = true) : x.isTruthy = y.isTruthy := by
  obtain ⟨kind, hx, hy⟩ := sameKey_iff.mp h
  rw [isTruthy_of_keyClass? hx, isTruthy_of_keyClass? hy]

/-! ## Distinct keys -/

def firstKeys : List Json → List Json
  | [] => []
  | key :: keys => key :: (firstKeys keys).filter fun other => !sameKey key other

theorem firstKeys_sublist (keys : List Json) : (firstKeys keys).Sublist keys := by
  induction keys with
  | nil => simp [firstKeys]
  | cons key keys ih => exact (List.filter_sublist.trans ih).cons_cons key

theorem pairwise_firstKeys (keys : List Json) :
    (firstKeys keys).Pairwise fun first later => sameKey first later = false := by
  induction keys with
  | nil => simp [firstKeys]
  | cons key keys ih =>
    refine List.pairwise_cons.mpr ⟨?_, ih.filter _⟩
    intro other hother
    simpa using (List.mem_filter.mp hother).2

theorem exists_firstKeys {keys : List Json} (hkeys : ∀ key ∈ keys, key.isKey = true)
    (h : key ∈ keys) : ∃ first ∈ firstKeys keys, sameKey first key = true := by
  induction keys with
  | nil => cases h
  | cons head keys ih =>
    by_cases hhead : sameKey head key = true
    · exact ⟨head, by simp [firstKeys], hhead⟩
    · have hmem : key ∈ keys := by
        rcases List.mem_cons.mp h with rfl | hmem
        · exact absurd (sameKey_self (hkeys key h)) hhead
        · exact hmem
      obtain ⟨first, hfirst, hsame⟩ := ih (fun k hk => hkeys k (List.mem_cons_of_mem _ hk)) hmem
      refine ⟨first, ?_, hsame⟩
      have hother : sameKey head first = false := by
        rw [Bool.eq_false_iff]
        exact fun hsame' => hhead (sameKey_trans hsame' hsame)
      simp [firstKeys, hfirst, hother]

theorem firstKeys_concat (keys : List Json) (key : Json) :
    firstKeys (keys ++ [key]) =
      if keys.any fun other => sameKey other key then firstKeys keys else firstKeys keys ++ [key] := by
  induction keys with
  | nil => simp [firstKeys]
  | cons head keys ih =>
    rw [List.cons_append, firstKeys, ih, List.any_cons]
    cases hhead : sameKey head key <;> cases hany : keys.any fun other => sameKey other key <;>
      simp [firstKeys, hhead]

end Json

end Sitecheck
