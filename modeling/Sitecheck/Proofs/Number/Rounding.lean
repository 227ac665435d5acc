import Mathlib.Algebra.Order.Field.Power
import Mathlib.Data.Rat.Cast.Order
import Mathlib.Tactic.FieldSimp
import Mathlib.Tactic.Linarith
import Mathlib.Tactic.NormNum
import Mathlib.Tactic.Positivity
import Mathlib.Tactic.Ring
import Sitecheck.Number.Decimal

/-!
# Ratios that round to a number

A ratio is read as the number of the format that is nearest to it.  So every ratio
in the interval around a number is read as that number (`ofRatio_of_rounds`), and
it does not matter by which numerator and denominator the ratio is given.
-/

namespace Sitecheck

/-! ## The nearest natural number -/

/-- The natural number nearest to a ratio, a half going to the even neighbour. -/
def IsNearest (x : ℚ) (n : Nat) : Prop := |x - n| ≤ 1 / 2 ∧ (|x - n| = 1 / 2 → n % 2 = 0)

theorem exists_part (num : Nat) {den : Nat} (hden : 0 < den) :
    ∃ part : ℚ, (num : ℚ) / den = (num / den : Nat) + part ∧ part * den = (num % den : Nat) ∧
      0 ≤ part ∧ part < 1 := by
  have hpos : (0 : ℚ) < den := by exact_mod_cast hden
  refine ⟨(num % den : Nat) / (den : ℚ), ?_, div_mul_cancel₀ _ hpos.ne', by positivity, ?_⟩
  · rw [eq_comm, ← mul_right_inj' hpos.ne', mul_add, mul_div_cancel₀ _ hpos.ne',
      mul_div_cancel₀ _ hpos.ne']
    exact_mod_cast Nat.div_add_mod num den
  · rw [div_lt_one hpos]
    exact_mod_cast Nat.mod_lt num hden

theorem isNearest_divNearest (num : Nat) {den : Nat} (hden : 0 < den) :
    IsNearest (num / den) (divNearest num den) := by
  have hpos : (0 : ℚ) < den := by exact_mod_cast hden
  obtain ⟨part, hnum, hmul, hnonneg, hlt⟩ := exists_part num hden
  have htie : part = 1 / 2 → 2 * (num % den) = den := by
    intro hhalf
    rw [hhalf] at hmul
    have hcast : (2 : ℚ) * (num % den : Nat) = den := by linarith
    exact_mod_cast hcast
  unfold divNearest
  rw [hnum, IsNearest]
  dsimp only
  split
  · next hup =>
    simp only [Bool.or_eq_true, Bool.and_eq_true, decide_eq_true_eq, beq_iff_eq] at hup
    have hge : 1 / 2 ≤ part := by
      have hnat : den ≤ 2 * (num % den) := by omega
      have hcast : (den : ℚ) ≤ 2 * (num % den : Nat) := by exact_mod_cast hnat
      rw [← hmul] at hcast
      nlinarith
    have hdist : |((num / den : Nat) : ℚ) + part - (num / den + 1 : Nat)| = 1 - part := by
      rw [Nat.cast_add_one, abs_of_nonpos (by linarith)]
      ring
    refine ⟨by linarith, fun heq => ?_⟩
    have hdouble := htie (by linarith)
    omega
  · next hdown =>
    simp only [Bool.or_eq_true, Bool.and_eq_true, decide_eq_true_eq, beq_iff_eq] at hdown
    have hle : part ≤ 1 / 2 := by
      have hnat : 2 * (num % den) ≤ den := by omega
      have hcast : 2 * ((num % den : Nat) : ℚ) ≤ den := by exact_mod_cast hnat
      nlinarith
    have hdist : |((num / den : Nat) : ℚ) + part - (num / den : Nat)| = part := by
      rw [add_sub_cancel_left, abs_of_nonneg hnonneg]
    rw [hdist]
    refine ⟨hle, fun heq => ?_⟩
    have hdouble := htie heq
    omega

/-- Of two neighbours that are as near, one is odd. -/
theorem IsNearest.unique {x : ℚ} {m n : Nat} (hm : IsNearest x m) (hn : IsNearest x n) : m = n := by
  obtain ⟨hm, hmeven⟩ := hm
  obtain ⟨hn, hneven⟩ := hn
  by_contra hne
  wlog hlt : m < n generalizing m n
  · exact this hn hneven hm hmeven (Ne.symm hne) (by omega)
  rw [abs_le] at hm hn
  have hstep : n = m + 1 := by
    have hle : (n : ℚ) ≤ m + 1 := by linarith
    have hnat : n ≤ m + 1 := by exact_mod_cast hle
    omega
  have hcast : (n : ℚ) = m + 1 := by exact_mod_cast hstep
  have hx : x - m = 1 / 2 ∧ x - n = -(1 / 2) := ⟨by linarith, by linarith⟩
  have heven := hmeven (by rw [hx.1]; norm_num)
  have heven' := hneven (by rw [hx.2]; norm_num)
  omega

/-! ## Powers -/

theorem div_between {b x y : ℚ} {i j : Int} (hb : 1 < b) (hx : b ^ i ≤ x) (hx' : x < b ^ (i + 1))
    (hy : b ^ j ≤ y) (hy' : y < b ^ (j + 1)) : b ^ (i - j - 1) < x / y ∧ x / y < b ^ (i - j + 1) := by
  have hpos : 0 < b := by linarith
  have hy0 : 0 < y := lt_of_lt_of_le (by positivity) hy
  constructor
  · rw [lt_div_iff₀ hy0]
    calc b ^ (i - j - 1) * y < b ^ (i - j - 1) * b ^ (j + 1) := by gcongr
      _ = b ^ i := by rw [← zpow_add₀ hpos.ne']; congr 1; ring
      _ ≤ x := hx
  · rw [div_lt_iff₀ hy0]
    calc x < b ^ (i + 1) := hx'
      _ = b ^ (i - j + 1) * b ^ j := by rw [← zpow_add₀ hpos.ne']; congr 1; ring
      _ ≤ b ^ (i - j + 1) * y := by gcongr

namespace Decimal

theorem powRatio_pos {base : Nat} (hbase : 0 < base) (e : Int) :
    0 < (powRatio base e).1 ∧ 0 < (powRatio base e).2 := by
  cases e with
  | ofNat => exact ⟨Nat.pow_pos hbase, Nat.one_pos⟩
  | negSucc => exact ⟨Nat.one_pos, Nat.pow_pos hbase⟩

theorem powRatio_eq (base : Nat) (e : Int) :
    ((powRatio base e).1 : ℚ) / (powRatio base e).2 = (base : ℚ) ^ e := by
  cases e with
  | ofNat => simp [powRatio]
  | negSucc => simp [powRatio, zpow_negSucc]

end Decimal

namespace Binary64

variable {den num mantissa : Nat} {exponent : Int}

theorem reaches_iff (num : Nat) (hden : 0 < den) (e : Int) :
    reaches num den e = true ↔ (2 : ℚ) ^ e ≤ num / den := by
  have hpos : (0 : ℚ) < den := by exact_mod_cast hden
  rw [le_div_iff₀ hpos]
  cases e with
  | ofNat =>
    rw [reaches, decide_eq_true_iff, Int.ofNat_eq_natCast, zpow_natCast, mul_comm]
    exact_mod_cast Iff.rfl
  | negSucc =>
    rw [reaches, decide_eq_true_iff, zpow_negSucc, inv_mul_le_iff₀ (by positivity), mul_comm]
    exact_mod_cast Iff.rfl

theorem isNearest_scaled (num : Nat) (hden : 0 < den) (e : Int) :
    IsNearest (num / den / 2 ^ e) (scaled num den e) := by
  cases e with
  | ofNat e =>
    have h := isNearest_divNearest num (Nat.mul_pos hden (Nat.pow_pos (n := e) Nat.two_pos))
    rw [scaled, Int.ofNat_eq_natCast, zpow_natCast, div_div]
    exact_mod_cast h
  | negSucc e =>
    have h := isNearest_divNearest (num * Nat.pow 2 (e + 1)) hden
    rw [scaled, zpow_negSucc, div_inv_eq_mul, div_mul_eq_mul_div]
    exact_mod_cast h

theorem scale_spec (hnum : 0 < num) (hden : 0 < den) :
    (2 : ℚ) ^ (scale num den + 52) ≤ num / den ∧ (num : ℚ) / den < 2 ^ (scale num den + 53) := by
  have hlow : ∀ {n : Nat}, 0 < n → (2 : ℚ) ^ (n.log2 : Int) ≤ n := by
    intro n hn
    exact_mod_cast Nat.log2_self_le hn.ne'
  have hhigh : ∀ n : Nat, (n : ℚ) < 2 ^ (n.log2 + 1 : Int) := by
    intro n
    exact_mod_cast Nat.lt_log2_self (n := n)
  have hbetween := div_between (by norm_num) (hlow hnum) (hhigh num) (hlow hden) (hhigh den)
  unfold scale
  dsimp only
  split
  · next hreaches =>
    rw [reaches_iff num hden] at hreaches
    ring_nf at hbetween hreaches ⊢
    exact ⟨hreaches, hbetween.2⟩
  · next hreaches =>
    rw [reaches_iff num hden, not_le] at hreaches
    ring_nf at hbetween hreaches ⊢
    exact ⟨hbetween.1.le, hreaches⟩

/-! ## Intervals -/

/-- Mantissa and exponent of a finite number of the format. -/
structure Fits (mantissa : Nat) (exponent : Int) : Prop where
  lt : mantissa < Nat.pow 2 53
  low : minExponent ≤ exponent
  high : exponent ≤ maxExponent
  normal : Nat.pow 2 52 ≤ mantissa ∨ exponent = minExponent

/-- How far the interval of a number reaches down, in units of its last place. -/
def margin (mantissa : Nat) (exponent : Int) : ℚ :=
  if mantissa = Nat.pow 2 52 ∧ exponent ≠ minExponent then 1 / 4 else 1 / 2

/-- A ratio lies in the interval of a number; the ends belong to it if the mantissa is even. -/
structure Rounds (x : ℚ) (mantissa : Nat) (exponent : Int) : Prop where
  low : mantissa - margin mantissa exponent ≤ x / 2 ^ exponent
  high : x / 2 ^ exponent ≤ mantissa + 1 / 2
  odd : mantissa % 2 = 1 →
    mantissa - margin mantissa exponent < x / 2 ^ exponent ∧ x / 2 ^ exponent < mantissa + 1 / 2

theorem margin_le (mantissa : Nat) (exponent : Int) : margin mantissa exponent ≤ 1 / 2 := by
  unfold margin
  split <;> norm_num

theorem Rounds.isNearest {x : ℚ} (h : Rounds x mantissa exponent) :
    IsNearest (x / 2 ^ exponent) mantissa := by
  have hmargin := margin_le mantissa exponent
  have hlow := h.low
  have hhigh := h.high
  refine ⟨abs_le.mpr ⟨by linarith, by linarith⟩, fun htie => ?_⟩
  by_contra hodd
  obtain ⟨hlow, hhigh⟩ := h.odd (by omega)
  rcases abs_choice (x / 2 ^ exponent - mantissa) with habs | habs <;> rw [habs] at htie <;> linarith

theorem Rounds.between {x : ℚ} (hfits : Fits mantissa exponent) (hpos : 0 < mantissa)
    (h : Rounds x mantissa exponent) : 2 ^ (-1075 : Int) ≤ x ∧ x < 2 ^ (1024 : Int) := by
  have hpow : (0 : ℚ) < 2 ^ exponent := by positivity
  have hmono : ∀ {i j : Int}, i ≤ j → (2 : ℚ) ^ i ≤ 2 ^ j := fun hij => zpow_le_zpow_right₀ (by norm_num) hij
  constructor
  · have hlow := h.low
    have hmargin := margin_le mantissa exponent
    have hone : (1 : ℚ) ≤ mantissa := by exact_mod_cast hpos
    have hleast : -1075 ≤ exponent - 1 := by
      have hle := hfits.low
      unfold minExponent at hle
      omega
    calc (2 : ℚ) ^ (-1075 : Int) ≤ 2 ^ (exponent - 1) := hmono hleast
      _ = 1 / 2 * 2 ^ exponent := by rw [zpow_sub_one₀ two_ne_zero]; ring
      _ ≤ x := by rw [← le_div_iff₀ hpow]; linarith
  · have hhigh := h.high
    have hmantissa : (mantissa : ℚ) ≤ 9007199254740991 := by exact_mod_cast Nat.le_of_lt_succ hfits.lt
    have hmost : exponent + 53 ≤ 1024 := by
      have hle := hfits.high
      unfold maxExponent at hle
      omega
    calc x < 2 ^ 53 * 2 ^ exponent := by rw [← div_lt_iff₀ hpow]; linarith
      _ = 2 ^ (exponent + 53) := by rw [zpow_add₀ two_ne_zero, mul_comm]; norm_num
      _ ≤ 2 ^ (1024 : Int) := hmono hmost

theorem ofRatio_of_scaled (negative : Bool) (hnum : num ≠ 0)
    (hexponent : max (scale num den) minExponent = exponent)
    (hmantissa : scaled num den exponent = mantissa) :
    ofRatio negative num den =
      if mantissa = Nat.pow 2 53 then
        if maxExponent < exponent + 1 then .infinite negative
        else .finite negative (Nat.pow 2 52) (exponent + 1)
      else if maxExponent < exponent then .infinite negative else .finite negative mantissa exponent := by
  simp only [ofRatio, hnum, hexponent, hmantissa, if_false]
  split <;> rfl

theorem Rounds.num_pos (hpos : 0 < mantissa) (h : Rounds (num / den) mantissa exponent) :
    0 < num := by
  have hmargin := margin_le mantissa exponent
  have hlow := h.low
  have hone : (1 : ℚ) ≤ mantissa := by exact_mod_cast hpos
  rcases Nat.eq_zero_or_pos num with rfl | hnum
  · rw [Nat.cast_zero, zero_div, zero_div] at hlow
    linarith
  · exact hnum

theorem two_zpow_lt {i j : Int} (h : (2 : ℚ) ^ i < 2 ^ j) : i < j :=
  (zpow_lt_zpow_iff_right₀ (by norm_num)).mp h

theorem Rounds.scale_le (hden : 0 < den) (hnum : 0 < num) (hlt : mantissa < Nat.pow 2 53)
    (h : Rounds (num / den) mantissa exponent) :
    scale num den ≤ exponent := by
  have hbelow : (num : ℚ) / den < 2 ^ (exponent + 53) := by
    have hhigh := h.high
    have hmantissa : (mantissa : ℚ) ≤ 9007199254740991 := by exact_mod_cast Nat.le_of_lt_succ hlt
    rw [zpow_add₀ two_ne_zero, mul_comm, ← div_lt_iff₀ (by positivity)]
    linarith
  have h := two_zpow_lt ((scale_spec hnum hden).1.trans_lt hbelow)
  omega

/-- Just below a power of two a ratio is read with a mantissa one place finer, which is carried. -/
theorem Rounds.carry (hden : 0 < den) (hnum : 0 < num) (hfits : Fits mantissa exponent)
    (hne : exponent ≠ minExponent) (hbelow : (num : ℚ) / den < 2 ^ (exponent + 52))
    (h : Rounds (num / den) mantissa exponent) :
    mantissa = Nat.pow 2 52 ∧ scale num den = exponent - 1 ∧
      scaled num den (exponent - 1) = Nat.pow 2 53 := by
  have hlow := h.low
  have hmargin := margin_le mantissa exponent
  have hy : (num : ℚ) / den / 2 ^ exponent < 4503599627370496 := by
    rw [div_lt_iff₀ (by positivity), mul_comm]
    calc (num : ℚ) / den < 2 ^ (exponent + 52) := hbelow
      _ = 2 ^ exponent * 4503599627370496 := by
        rw [zpow_add₀ two_ne_zero]
        norm_num
  have heq : mantissa = Nat.pow 2 52 := by
    have hcast : (mantissa : ℚ) < 4503599627370497 := by linarith
    have hnat : mantissa < 4503599627370497 := by exact_mod_cast hcast
    have hpow : Nat.pow 2 52 = 4503599627370496 := rfl
    have hnormal := hfits.normal.resolve_right hne
    omega
  have hquarter : 4503599627370496 - 1 / 4 ≤ (num : ℚ) / den / 2 ^ exponent := by
    have hcast : (mantissa : ℚ) = 4503599627370496 := by exact_mod_cast heq
    rwa [margin, if_pos ⟨heq, hne⟩, hcast] at hlow
  refine ⟨heq, ?_, ?_⟩
  · have hreaches : (2 : ℚ) ^ (exponent + 51) ≤ num / den := by
      rw [zpow_add₀ two_ne_zero, mul_comm, ← le_div_iff₀ (by positivity)]
      linarith
    have hspec := scale_spec hnum hden
    have hupper := two_zpow_lt (hspec.1.trans_lt hbelow)
    have hlower := two_zpow_lt (hreaches.trans_lt hspec.2)
    omega
  · have hdouble : (num : ℚ) / den / 2 ^ (exponent - 1) = 2 * (num / den / 2 ^ exponent) := by
      rw [zpow_sub_one₀ two_ne_zero]
      field_simp
    have hcast : ((Nat.pow 2 53 : Nat) : ℚ) = 9007199254740992 := by norm_num
    have hnearest : IsNearest (num / den / 2 ^ (exponent - 1)) (Nat.pow 2 53) := by
      exact ⟨abs_le.mpr ⟨by linarith, by linarith⟩, fun _ => rfl⟩
    exact (isNearest_scaled num hden (exponent - 1)).unique hnearest

theorem ofRatio_of_rounds (negative : Bool) (hden : 0 < den) (hfits : Fits mantissa exponent)
    (hpos : 0 < mantissa) (h : Rounds (num / den) mantissa exponent) :
    ofRatio negative num den = .finite negative mantissa exponent := by
  have hnum := h.num_pos hpos
  have hlow := hfits.low
  have hhigh := hfits.high
  by_cases hcase : exponent = minExponent ∨ (2 : ℚ) ^ (exponent + 52) ≤ num / den
  · have hexponent : max (scale num den) minExponent = exponent := by
      have hle := h.scale_le hden hnum hfits.lt
      rcases hcase with rfl | hreaches
      · omega
      · have hless := two_zpow_lt (hreaches.trans_lt (scale_spec hnum hden).2)
        omega
    have hmantissa := (isNearest_scaled num hden exponent).unique h.isNearest
    rw [ofRatio_of_scaled negative hnum.ne' hexponent hmantissa, if_neg hfits.lt.ne, if_neg (by omega)]
  · obtain ⟨hne, hbelow⟩ := not_or.mp hcase
    obtain ⟨rfl, hscale, hmantissa⟩ := h.carry hden hnum hfits hne (not_le.mp hbelow)
    have hexponent : max (scale num den) minExponent = exponent - 1 := by omega
    rw [ofRatio_of_scaled negative hnum.ne' hexponent hmantissa, if_pos rfl, if_neg (by omega),
      Int.sub_add_cancel]

end Binary64

end Sitecheck
