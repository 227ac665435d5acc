import Mathlib.Data.List.DropRight
import Sitecheck.Number.Numeral
import Sitecheck.Proofs.Number.Shortest

/-!
# Numbers written in decimal and read back

A number is written as digits before and after a point, times a power of ten
(`Parts`).  These stand for a ratio in the interval of the number, so whatever the
format, the parts are read as the number (`decimal_of_rounds`).
-/

namespace Sitecheck

namespace Numeral

variable {digits : List Char} {exponent : Int}

/-! ## The value of digits -/

theorem natOf_toDigits (n : Nat) : natOf (Nat.toDigits 10 n) = n := by
  have hfold : natOf = fun digits => Nat.ofDigitChars 10 digits 0 := by
    funext digits
    rw [natOf, Nat.ofDigitChars_eq_foldl]
    simp only [Nat.mul_comm 10]
    rfl
  rw [hfold]
  exact Nat.ofDigitChars_ten_toDigits

theorem head?_toDigits_ne_zero {n : Nat} (h : n ≠ 0) : (Nat.toDigits 10 n).head? ≠ some '0' := by
  induction n using Nat.strongRecOn with
  | ind n ih =>
    by_cases hsmall : n < 10
    · have hall : ∀ n < 10, n ≠ 0 → some (Nat.digitChar n) ≠ some '0' := by decide
      rw [Nat.toDigits_of_lt_base hsmall]
      exact hall n hsmall h
    · have hrest := ih (n / 10) (by omega) (by omega)
      rw [Nat.toDigits_of_base_le (by decide) (by omega),
        List.head?_append_of_ne_nil _ Nat.toDigits_ne_nil]
      exact hrest

theorem foldl_digits (start : Nat) (digits : List Char) :
    digits.foldl (fun value c => value * 10 + (c.toNat - 48)) start =
      start * 10 ^ digits.length + natOf digits := by
  induction digits generalizing start with
  | nil => simp [natOf]
  | cons c digits ih =>
    rw [natOf, List.foldl_cons, List.foldl_cons, ih, ih (0 * 10 + (c.toNat - 48)), List.length_cons]
    ring

theorem natOf_append (front back : List Char) :
    natOf (front ++ back) = natOf front * 10 ^ back.length + natOf back := by
  rw [natOf, List.foldl_append, foldl_digits]
  rfl

theorem natOf_cons (c : Char) (digits : List Char) :
    natOf (c :: digits) = (c.toNat - 48) * 10 ^ digits.length + natOf digits := by
  rw [natOf, List.foldl_cons, foldl_digits, Nat.zero_mul, Nat.zero_add]

theorem natOf_zeros (count : Nat) : natOf (List.replicate count '0') = 0 := by
  induction count with
  | zero => rfl
  | succ count ih => simp [List.replicate_succ, natOf_cons, ih]

theorem natOf_dropWhile (digits : List Char) : natOf (digits.dropWhile (· = '0')) = natOf digits := by
  induction digits with
  | nil => rfl
  | cons c digits ih =>
    rw [List.dropWhile_cons]
    split
    · next hzero =>
      rw [ih, natOf_cons, of_decide_eq_true hzero]
      simp
    · rfl

theorem digit_le {c : Char} (h : c.isDigit = true) : c.toNat - 48 ≤ 9 ∧ 48 ≤ c.toNat := by
  simp only [Char.isDigit, Bool.and_eq_true, decide_eq_true_eq] at h
  have hlow : 48 ≤ c.toNat := h.1
  have hhigh : c.toNat ≤ 57 := h.2
  omega

theorem natOf_lt (h : ∀ c ∈ digits, c.isDigit = true) : natOf digits < 10 ^ digits.length := by
  induction digits with
  | nil => simp [natOf]
  | cons c digits ih =>
    have hc := digit_le (h c List.mem_cons_self)
    have hrest := ih fun d hd => h d (List.mem_cons_of_mem c hd)
    rw [natOf_cons, List.length_cons, pow_succ]
    nlinarith

theorem pow_le_natOf {c : Char} (hdigit : c.isDigit = true) (hzero : c ≠ '0') :
    10 ^ digits.length ≤ natOf (c :: digits) := by
  have hc := digit_le hdigit
  have hone : 1 ≤ c.toNat - 48 := by
    have hne : c.toNat ≠ 48 := fun heq => hzero (Char.toNat_inj.mp heq)
    omega
  rw [natOf_cons]
  nlinarith [Nat.pow_pos (n := digits.length) (by decide : 0 < 10)]

/-! ## Reading digits -/

theorem nearest_eq_ofRatio (negative : Bool) {value length : Nat} (hvalue : value ≠ 0)
    (hhigh : exponent + length ≤ 400) (hlow : -400 ≤ exponent + length) :
    nearest negative value length exponent =
      .ofRatio negative (value * (Decimal.powRatio 10 exponent).1) (Decimal.powRatio 10 exponent).2 := by
  unfold nearest
  rw [if_neg hvalue, if_neg (by omega), if_neg (by omega)]
  cases exponent with
  | ofNat => rfl
  | negSucc => rw [Decimal.powRatio, Nat.mul_one]

theorem two_pow_lt : (2 : ℚ) ^ (1024 : Int) < 10 ^ (400 : Int) := by
  have h : 2 ^ 1024 < 10 ^ 400 := by decide +kernel
  exact_mod_cast h

theorem ten_pow_lt : (10 : ℚ) ^ (-401 : Int) < 2 ^ (-1075 : Int) := by
  have h : 2 ^ 1075 < 10 ^ 401 := by decide +kernel
  rw [zpow_neg, zpow_neg, inv_lt_inv₀ (by positivity) (by positivity)]
  exact_mod_cast h

theorem length_bounds {p : Int} (hdigits : ∀ c ∈ digits, c.isDigit = true)
    (hfirst : digits.head? ≠ some '0') (hvalue : natOf digits ≠ 0)
    (hlow : (2 : ℚ) ^ (-1075 : Int) ≤ natOf digits * 10 ^ p)
    (hhigh : (natOf digits : ℚ) * 10 ^ p < 2 ^ (1024 : Int)) :
    p + digits.length ≤ 400 ∧ -400 ≤ p + digits.length := by
  have hten : (10 : ℚ) ≠ 0 := by norm_num
  have hless : ∀ {i j : Int}, (10 : ℚ) ^ i < 10 ^ j → i < j := (zpow_lt_zpow_iff_right₀ (by norm_num)).mp
  constructor
  · cases digits with
    | nil => exact absurd rfl hvalue
    | cons c digits =>
      have hle : (10 : ℚ) ^ digits.length ≤ natOf (c :: digits) := by
        exact_mod_cast pow_le_natOf (hdigits c List.mem_cons_self) (by simpa using hfirst)
      have hlt : (10 : ℚ) ^ (digits.length + p : Int) < 10 ^ (400 : Int) := by
        calc (10 : ℚ) ^ (digits.length + p : Int) = 10 ^ digits.length * 10 ^ p := by
              rw [zpow_add₀ hten, zpow_natCast]
          _ ≤ natOf (c :: digits) * 10 ^ p := by gcongr
          _ < 2 ^ (1024 : Int) := hhigh
          _ < 10 ^ (400 : Int) := two_pow_lt
      have hexponent := hless hlt
      rw [List.length_cons]
      omega
  · have hlt : (10 : ℚ) ^ (-401 : Int) < 10 ^ (digits.length + p : Int) := by
      have hbound : (natOf digits : ℚ) < 10 ^ digits.length := by exact_mod_cast natOf_lt hdigits
      calc (10 : ℚ) ^ (-401 : Int) < 2 ^ (-1075 : Int) := ten_pow_lt
        _ ≤ natOf digits * 10 ^ p := hlow
        _ < 10 ^ digits.length * 10 ^ p := by gcongr
        _ = 10 ^ (digits.length + p : Int) := by rw [zpow_add₀ hten, zpow_natCast]
    have hexponent := hless hlt
    omega

open Binary64 in
theorem decimal_of_rounds (negative : Bool) {whole fraction : List Char} {power : Int}
    {mantissa : Nat} (hdigits : ∀ c ∈ whole ++ fraction, c.isDigit = true)
    (hfits : Fits mantissa exponent) (hpos : 0 < mantissa)
    (h : Rounds (natOf (whole ++ fraction) * 10 ^ (power - fraction.length)) mantissa exponent) :
    decimal negative whole fraction power = .finite negative mantissa exponent := by
  have hsame := natOf_dropWhile (whole ++ fraction)
  have hkept : ∀ c ∈ (whole ++ fraction).dropWhile (· = '0'), c.isDigit = true :=
    fun c hc => hdigits c ((List.dropWhile_sublist _).subset hc)
  have hfirst : ((whole ++ fraction).dropWhile (· = '0')).head? ≠ some '0' := by
    intro hhead
    have hnot := List.head?_dropWhile_not (fun c : Char => decide (c = '0')) (whole ++ fraction)
    rw [hhead] at hnot
    simp at hnot
  unfold decimal
  dsimp only
  rw [← hsame] at h
  generalize (whole ++ fraction).dropWhile (· = '0') = digits at hkept hfirst h ⊢
  generalize power - fraction.length = p at h ⊢
  obtain ⟨hlow, hhigh⟩ := h.between hfits hpos
  have hvalue : natOf digits ≠ 0 := by
    intro hzero
    have hpos : (0 : ℚ) < 2 ^ (-1075 : Int) := by positivity
    rw [hzero, Nat.cast_zero, zero_mul] at hlow
    linarith
  obtain ⟨hupper, hlower⟩ := length_bounds hkept hfirst hvalue hlow hhigh
  rw [nearest_eq_ofRatio negative hvalue hupper hlower]
  refine ofRatio_of_rounds negative (Decimal.powRatio_pos (by decide) p).2 hfits hpos ?_
  have hpow := Decimal.powRatio_eq 10 p
  rw [Nat.cast_ofNat] at hpow
  rwa [Nat.cast_mul, mul_div_assoc, hpow]

end Numeral

/-! ## Writing digits -/

open Numeral

namespace NumberFormat

variable {decimal : Decimal}

theorem length_toDigits (h : decimal.IsFull) :
    (Nat.toDigits 10 decimal.digits).length = decimal.length := by
  have hbound : ∀ {k : Nat}, 0 < k → ((Nat.toDigits 10 decimal.digits).length ≤ k ↔ decimal.digits < 10 ^ k) :=
    Nat.length_toDigits_le_iff (by decide)
  have hle := (hbound h.pos).mpr h.high
  have hpos : 0 < (Nat.toDigits 10 decimal.digits).length := List.length_pos_iff.mpr Nat.toDigits_ne_nil
  rcases Nat.eq_or_lt_of_le hle with heq | hlt
  · exact heq
  · have hsmall := (hbound (by omega)).mp (Nat.le_sub_one_of_lt hlt)
    exact absurd h.low (by omega)

theorem exists_zeros (digits : List Char) :
    ∃ count, digits = (digits.reverse.dropWhile (· = '0')).reverse ++ List.replicate count '0' := by
  have hzeros : digits.rtakeWhile (· = '0') = List.replicate (digits.rtakeWhile (· = '0')).length '0' := by
    rw [List.eq_replicate_iff]
    exact ⟨rfl, fun c hc => by simpa using List.mem_rtakeWhile_imp hc⟩
  refine ⟨(digits.rtakeWhile (· = '0')).length, ?_⟩
  rw [← hzeros]
  exact List.rdropWhile_append_rtakeWhile.symm

theorem significant_spec (h : decimal.IsFull) :
    ∃ c digits, significant decimal = c :: digits ∧ c ≠ '0' ∧ (∀ d ∈ c :: digits, d.isDigit = true) ∧
      decimal.value = natOf (c :: digits) * 10 ^ (decimal.point - (digits.length + 1 : Nat)) := by
  have hlength := length_toDigits h
  have hpos : 0 < decimal.digits := lt_of_lt_of_le (Nat.pow_pos (by decide)) h.low
  have hvalue := natOf_toDigits decimal.digits
  have hfirst := head?_toDigits_ne_zero hpos.ne'
  have hdigits : ∀ d ∈ Nat.toDigits 10 decimal.digits, d.isDigit = true := fun d hd =>
    Nat.isDigit_of_mem_toDigits (by decide) (by decide) hd
  obtain ⟨count, hsplit⟩ := exists_zeros (Nat.toDigits 10 decimal.digits)
  unfold significant
  generalize ((Nat.toDigits 10 decimal.digits).reverse.dropWhile (· = '0')).reverse = kept at hsplit ⊢
  rw [hsplit] at hlength hvalue hfirst hdigits
  rw [natOf_append, natOf_zeros, List.length_replicate, Nat.add_zero] at hvalue
  rw [List.length_append, List.length_replicate] at hlength
  cases kept with
  | nil =>
    rw [show natOf [] = 0 from rfl, Nat.zero_mul] at hvalue
    omega
  | cons c digits =>
    refine ⟨c, digits, rfl, by simpa using hfirst,
      fun d hd => hdigits d (List.mem_append_left _ hd), ?_⟩
    rw [Decimal.value, ← hvalue, ← hlength, List.length_cons]
    push_cast
    rw [mul_assoc, ← zpow_natCast, ← zpow_add₀ (by norm_num)]
    congr 2
    ring

end NumberFormat

namespace Numeral

/-- What may stand before a point: a zero alone, or digits that start with another. -/
def IsWhole (whole : List Char) : Prop := whole = ['0'] ∨ ∃ c digits, whole = c :: digits ∧ c ≠ '0'

/-- Digits before and after a point, and perhaps a power of ten. -/
structure Parts where
  whole : List Char
  fraction : List Char
  power : Option Int

namespace Parts

def text (parts : Parts) : List Char :=
  parts.whole ++ (if parts.fraction = [] then [] else '.' :: parts.fraction) ++
    parts.power.elim [] NumberFormat.exponentText

def value (parts : Parts) : ℚ :=
  natOf (parts.whole ++ parts.fraction) * 10 ^ (parts.power.getD 0 - parts.fraction.length)

/-- The parts of a number that is not written as an integer. -/
structure IsFractional (parts : Parts) : Prop where
  digits : ∀ c ∈ parts.whole ++ parts.fraction, c.isDigit = true
  whole : IsWhole parts.whole
  more : parts.fraction ≠ [] ∨ parts.power.isSome = true

end Parts

end Numeral

namespace NumberFormat

theorem positional_spec {c : Char} {digits : List Char} (hc : c ≠ '0')
    (hdigits : ∀ d ∈ c :: digits, d.isDigit = true) (point : Int) :
    ∃ parts : Parts, parts.IsFractional ∧ parts.text = positional (c :: digits) point ∧
      parts.value = natOf (c :: digits) * 10 ^ (point - (digits.length + 1 : Nat)) := by
  have hzeros : ∀ count, ∀ d ∈ List.replicate count '0', d.isDigit = true := by
    intro count d hd
    rw [List.eq_of_mem_replicate hd]
    rfl
  have hzero : natOf ['0'] = 0 := rfl
  unfold positional
  split
  · next n =>
    split
    · next hlong =>
      refine ⟨⟨c :: digits ++ List.replicate (n + 1 - (digits.length + 1)) '0', ['0'], none⟩,
        ⟨?_, .inr ⟨c, _, rfl, hc⟩, .inl (by simp)⟩, by simp [Parts.text], ?_⟩
      · exact List.forall_mem_append.mpr ⟨List.forall_mem_append.mpr ⟨hdigits, hzeros _⟩, hzeros 1⟩
      · have hten : (10 : ℚ) ≠ 0 := by norm_num
        rw [List.length_cons] at hlong
        simp only [Parts.value, natOf_append, natOf_zeros, Option.getD_none, List.length_replicate, hzero]
        push_cast
        rw [add_zero, add_zero, mul_assoc, mul_assoc, ← zpow_natCast, ← zpow_natCast, ← zpow_add₀ hten,
          ← zpow_add₀ hten]
        congr 2
        simp
        omega
    · next hshort =>
      have hne : digits.drop n ≠ [] := by simpa using hshort
      refine ⟨⟨c :: digits.take n, digits.drop n, none⟩, ⟨?_, .inr ⟨c, _, rfl, hc⟩, .inl hne⟩,
        by simp [Parts.text, hne], ?_⟩
      · simpa [List.take_append_drop] using hdigits
      · rw [List.length_cons] at hshort
        simp only [Parts.value, List.cons_append, List.take_append_drop, Option.getD_none]
        rw [List.length_drop, Nat.cast_sub (by omega)]
        simp
  · refine ⟨⟨['0'], c :: digits, none⟩, ⟨?_, .inl rfl, .inl (by simp)⟩, by simp [Parts.text], ?_⟩
    · exact List.forall_mem_append.mpr ⟨hzeros 1, hdigits⟩
    · simp [Parts.value, natOf_cons]
  · next n =>
    refine ⟨⟨['0'], List.replicate (n + 1) '0' ++ c :: digits, none⟩, ⟨?_, .inl rfl, .inl (by simp)⟩,
      by simp [Parts.text], ?_⟩
    · exact List.forall_mem_append.mpr ⟨hzeros 1, List.forall_mem_append.mpr ⟨hzeros _, hdigits⟩⟩
    · simp only [Parts.value, natOf_append, natOf_zeros, Option.getD_none, hzero, Nat.zero_mul, Nat.zero_add]
      simp
      omega

theorem magnitude_spec (format : NumberFormat) {mantissa : Nat} (exponent : Int) (hpos : 0 < mantissa)
    (hlt : mantissa < Nat.pow 2 53) :
    ∃ parts : Parts, parts.IsFractional ∧ parts.text = format.magnitude mantissa exponent ∧
      Binary64.Rounds parts.value mantissa exponent := by
  obtain ⟨hfull, hrounds⟩ := Decimal.rounds_shortest exponent hpos hlt
  obtain ⟨c, digits, hsignificant, hc, hdigits, hvalue⟩ := significant_spec hfull
  unfold magnitude
  rw [if_neg hpos.ne']
  dsimp only
  rw [hsignificant]
  rw [hvalue] at hrounds
  split
  · refine ⟨⟨[c], digits, some ((Decimal.shortest mantissa exponent).point - 1)⟩, ⟨hdigits, ?_, ?_⟩, ?_, ?_⟩
    · exact .inr ⟨c, [], rfl, hc⟩
    · exact .inr rfl
    · cases digits <;> simp [Parts.text]
    · simp only [Parts.value, List.singleton_append, Option.getD_some]
      rwa [show (Decimal.shortest mantissa exponent).point - 1 - (digits.length : Int) =
        (Decimal.shortest mantissa exponent).point - (digits.length + 1 : Nat) by omega]
  · obtain ⟨parts, hparts, htext, hsame⟩ := positional_spec hc hdigits (Decimal.shortest mantissa exponent).point
    exact ⟨parts, hparts, htext, by rwa [hsame]⟩

end NumberFormat

end Sitecheck
