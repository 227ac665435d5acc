import Sitecheck.Proofs.Json.Table
import Sitecheck.Proofs.Schema

/-!
# Whole numbers that can be read

A whole number that is read from a document is not too long to be written again, in
whatever form it was given (`writable_of_integer`).  The members of a record are values
of the document it is read from (`exists_of_record`).
-/

namespace Sitecheck

namespace Numeral

theorem isDigit_of_plain? {run digits : List Char} (h : plain? run = some digits)
    (hrun : ∀ c ∈ run, isRun c = true) : ∀ c ∈ digits, c.isDigit = true := by
  have hdigit {c : Char} (hc : isRun c = true) (hne : ¬ c = '_') : c.isDigit = true := by
    simpa [isRun, hne] using hc
  fun_induction plain? run generalizing digits with
  | case1 =>
    cases h
    simp
  | case2 => cases h
  | case3 c hne =>
    cases h
    simpa using hdigit (hrun c (by simp)) hne
  | case4 c e more hdigits ih =>
    obtain ⟨inner, hinner, rfl⟩ := Option.map_eq_some_iff.mp h
    have hmore : ∀ c ∈ e :: more, isRun c = true := fun c hc =>
      hrun c (List.mem_cons_of_mem _ (List.mem_cons_of_mem _ hc))
    simp only [Bool.and_eq_true] at hdigits
    exact List.forall_mem_cons.mpr ⟨hdigits.1, ih hinner hmore⟩
  | case5 | case6 | case7 => cases h
  | case8 c d rest hunder hne ih =>
    obtain ⟨inner, hinner, rfl⟩ := Option.map_eq_some_iff.mp h
    obtain ⟨hc, hmore⟩ := List.forall_mem_cons.mp hrun
    exact List.forall_mem_cons.mpr ⟨hdigit hc hne, ih hinner hmore⟩

theorem writable_of_readInt {text : String} {n : Int} (h : readInt text = .value n) :
    Json.isUnwritable n = false := by
  unfold readInt at h
  generalize sign ((text.toList.dropWhile isPadding).map asciiDigit) = start at h
  obtain ⟨negative, rest⟩ := start
  dsimp only at h
  split at h
  · cases h
  · cases h
  · next digits _ hplain =>
    split at h
    · cases h
    · next hshort =>
      split at h
      · cases h
        have hdigits := isDigit_of_plain? hplain fun c hc => List.mem_takeWhile_imp hc
        exact Json.not_isUnwritable_natOf negative hdigits hshort
      · cases h

end Numeral

theorem Json.writable_of_lt {n : Int} (bits : Nat) (hbits : bits ≤ maxDigits)
    (h : n.natAbs < Nat.pow 2 bits) : isUnwritable n = false := by
  have hpow : ∀ places, bits ≤ places → Nat.pow 2 bits ≤ Nat.pow 10 places := fun places hplaces =>
    Nat.le_trans (Nat.pow_le_pow_left (by decide) bits) (Nat.pow_le_pow_right (by decide) hplaces)
  rw [isUnwritable, decide_eq_false_iff_not, Nat.not_le]
  exact Nat.lt_of_lt_of_le h (hpow _ hbits)

theorem Binary64.writable_of_truncate? {x : Binary64} {n : Int} (hx : Json.IsRegular x)
    (h : x.truncate? = some n) : Json.isUnwritable n = false := by
  cases x with
  | nan | infinite => cases h
  | finite negative mantissa exponent =>
    have hfits : Fits mantissa exponent := hx
    have hsign (num : Nat) : (if negative then -(num : Int) else num).natAbs = num := by
      cases negative with
      | true => exact Int.natAbs_neg _
      | false => rfl
    cases exponent with
    | ofNat e =>
      simp only [truncate?, toRatio?, Option.map_some, Option.some.injEq] at h
      have hhigh := hfits.high
      have he : e ≤ 971 := Int.ofNat_le.mp hhigh
      have hsize : mantissa * Nat.pow 2 e < Nat.pow 2 (53 + e) := by
        have hpow : Nat.pow 2 (53 + e) = Nat.pow 2 53 * Nat.pow 2 e := Nat.pow_add 2 53 e
        rw [hpow]
        exact Nat.mul_lt_mul_of_pos_right hfits.lt (Nat.pow_pos (by decide))
      refine Json.writable_of_lt (53 + e) ?_ ?_
      · rw [Json.maxDigits]
        omega
      · rw [← h, Int.natAbs_tdiv, hsign]
        exact Nat.lt_of_le_of_lt (Nat.div_le_self _ _) hsize
    | negSucc =>
      simp only [truncate?, toRatio?, Option.map_some, Option.some.injEq] at h
      refine Json.writable_of_lt 53 (by decide) ?_
      rw [← h, Int.natAbs_tdiv, hsign]
      exact Nat.lt_of_le_of_lt (Nat.div_le_self _ _) hfits.lt

namespace Schema

variable {value : Json} {pairs : List (Json × Json)} {fields : List (String × Json)}

/-! ## Values of a document -/

/-- The value can be part of a document that was read. -/
def IsFound (value : Json) : Prop := ∃ levels, Json.Bounded levels value

theorem writable_of_integer {n : Int} (hvalue : IsFound value) (h : integer value = .value n) :
    Json.isUnwritable n = false := by
  obtain ⟨levels, hbounded⟩ := hvalue
  cases hbounded with
  | null => cases h
  | bool value => cases value <;> cases h <;> decide +kernel
  | int hwritable =>
    cases h
    exact hwritable
  | @float _ value hregular =>
    cases value with
    | infinite | nan => cases h
    | finite =>
      simp only [integer] at h
      split at h
      · next m htruncate =>
        cases h
        exact Binary64.writable_of_truncate? hregular htruncate
      · cases h
  | str =>
    simp only [integer] at h
    split at h
    · next m hread =>
      cases h
      exact Numeral.writable_of_readInt hread
    · cases h
  | arr | obj => cases h

theorem isFound_str (text : String) : IsFound (.str text) := ⟨0, .str text⟩

theorem isFound_of_pair? {item : Json} {pair : Json × Json} (hitem : IsFound item)
    (h : Json.pair? item = some pair) : IsFound pair.2 := by
  obtain ⟨levels, hbounded⟩ := hitem
  unfold Json.pair? at h
  split at h
  · next key value =>
    cases h
    cases hbounded with
    | arr hitems => exact ⟨_, hitems value (by simp)⟩
  · cases h
    exact isFound_str _
  · split at h
    · cases h
      exact isFound_str _
    · cases h
  · cases h

theorem isFound_of_elements {items : List Json} (hvalue : IsFound value)
    (h : value.elements = .ok items) : ∀ item ∈ items, IsFound item := by
  obtain ⟨levels, hbounded⟩ := hvalue
  cases hbounded with
  | arr hitems =>
    cases h
    exact fun item hitem => ⟨_, hitems item hitem⟩
  | str =>
    cases h
    simp [isFound_str]
  | obj =>
    cases h
    intro item hitem
    obtain ⟨field, -, rfl⟩ := List.mem_map.mp hitem
    exact isFound_str _
  | _ => cases h

theorem isFound_of_pairs? (hvalue : IsFound value) (h : pairs? value = some pairs) :
    ∀ pair ∈ pairs, IsFound pair.2 := by
  have hlisted : value.table = .ok pairs := by
    unfold pairs? at h
    cases htable : value.table with
    | error =>
      rw [htable] at h
      cases h
    | ok =>
      rw [htable] at h
      exact congrArg Except.ok (Option.some.inj h)
  unfold Json.table at hlisted
  split at hlisted
  · cases hlisted
    obtain ⟨levels, hbounded⟩ := hvalue
    cases hbounded with
    | obj hfields =>
      intro pair hpair
      obtain ⟨field, hfield, rfl⟩ := List.mem_map.mp hpair
      exact ⟨_, hfields field hfield⟩
  · next hother =>
    obtain ⟨found, hfound, hlisted⟩ := bind_eq_ok_iff.mp hlisted
    cases hlisted
    have hpairs : ∀ pair ∈ found, IsFound pair.2 := by
      unfold Json.pairs at hfound
      split at hfound
      · next fields => exact absurd rfl (hother fields)
      · obtain ⟨items, hitems, hfound⟩ := bind_eq_ok_iff.mp hfound
        exact Json.forall_pairsFrom (fun item hitem pair hpair _ =>
          isFound_of_pair? (isFound_of_elements hvalue hitems item hitem) hpair) hfound
    exact fun pair hpair => (Json.forall_putPairs (K := fun _ => True) (V := IsFound)
      (fun pair hpair => ⟨trivial, hpairs pair hpair⟩) (by simp) pair hpair).2

theorem mem_of_named? (h : named? pairs = some fields) :
    ∀ field ∈ fields, (.str field.1, field.2) ∈ pairs := by
  induction pairs generalizing fields with
  | nil =>
    cases h
    simp
  | cons pair pairs ih =>
    obtain ⟨key, value⟩ := pair
    cases key with
    | str =>
      obtain ⟨rest, hrest, rfl⟩ := Option.map_eq_some_iff.mp h
      refine List.forall_mem_cons.mpr ⟨List.mem_cons_self, fun field hfield => ?_⟩
      exact List.mem_cons_of_mem _ (ih hrest field hfield)
    | _ => cases h

theorem exists_of_record {α : Type} {read : List (String × Json) → Outcome α} {a : α}
    (hvalue : IsFound value) (h : record read value = .value a) :
    ∃ fields, read fields = .value a ∧ ∀ field ∈ fields, IsFound field.2 := by
  obtain ⟨pairs, fields, hpairs, hnamed, hread⟩ := record_cases h
  refine ⟨fields, hread, fun field hfield => ?_⟩
  exact isFound_of_pairs? hvalue hpairs _ (mem_of_named? hnamed field hfield)

theorem writable_of_required {name : String} {n : Int} (hfields : ∀ field ∈ fields, IsFound field.2)
    (h : required name integer fields = .value n) :
    Json.isUnwritable n = false := by
  unfold required at h
  split at h
  · next value hget =>
    have hvalue := hfields _ (Fields.mem_of_get? hget)
    exact writable_of_integer hvalue (Outcome.under_eq_value_iff.mp h)
  · cases h

end Schema

end Sitecheck
