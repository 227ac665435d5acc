import Mathlib.Tactic.Zify
import Sitecheck.Proofs.Number.Rounding

/-!
# The shortest digits of a number

The search for digits tries one place more at a time.  Seventeen places are always
enough, since they are finer than the distance between numbers of the format, so
the search ends with digits that are read as the number (`rounds_shortest`).
-/

namespace Sitecheck.Decimal

variable {n den mantissa length : Nat} {interval : Interval} {point : Int} {unit : Nat × Nat}
  {found : Decimal}

open Binary64

/-! ## The decimal point -/

theorem length_toDigits_spec (hn : 0 < n) :
    (10 : ℚ) ^ ((Nat.toDigits 10 n).length - 1 : Int) ≤ n ∧
      (n : ℚ) < 10 ^ ((Nat.toDigits 10 n).length : Int) := by
  have hlength : 0 < (Nat.toDigits 10 n).length := List.length_pos_iff.mpr Nat.toDigits_ne_nil
  have hbound : ∀ {k : Nat}, 0 < k → ((Nat.toDigits 10 n).length ≤ k ↔ n < 10 ^ k) :=
    Nat.length_toDigits_le_iff (by decide)
  constructor
  · obtain ⟨k, hk⟩ : ∃ k, (Nat.toDigits 10 n).length = k + 1 := ⟨_, (Nat.sub_add_cancel hlength).symm⟩
    have hge : 10 ^ k ≤ n := by
      rcases Nat.eq_zero_or_pos k with rfl | hpos
      · simpa using Nat.succ_le_of_lt hn
      · have hnot := mt (hbound hpos).mpr (by omega)
        omega
    rw [hk, Nat.cast_add_one, add_sub_cancel_right, zpow_natCast]
    exact_mod_cast hge
  · exact_mod_cast (hbound hlength).mp le_rfl

theorem pointOf_spec {num : Nat} (hnum : 0 < num) (hden : 0 < den) :
    (10 : ℚ) ^ (pointOf num den - 1) ≤ num / den ∧ (num : ℚ) / den < 10 ^ pointOf num den := by
  have hhigh : ∀ {n : Nat}, 0 < n → (n : ℚ) < 10 ^ (((Nat.toDigits 10 n).length : Int) - 1 + 1) := by
    intro n hn
    rw [sub_add_cancel]
    exact (length_toDigits_spec hn).2
  have hbetween := div_between (by norm_num) (length_toDigits_spec hnum).1 (hhigh hnum)
    (length_toDigits_spec hden).1 (hhigh hden)
  have hreaches : ∀ e : Int, den * (powRatio 10 e).1 ≤ num * (powRatio 10 e).2 ↔
      (10 : ℚ) ^ e ≤ num / den := by
    intro e
    have hdown : (0 : ℚ) < (powRatio 10 e).2 := by exact_mod_cast (powRatio_pos (by decide) e).2
    have hpos : (0 : ℚ) < den := by exact_mod_cast hden
    have hpow := powRatio_eq 10 e
    rw [Nat.cast_ofNat] at hpow
    rw [← hpow, div_le_div_iff₀ hdown hpos, mul_comm _ (den : ℚ)]
    exact_mod_cast Iff.rfl
  unfold pointOf
  dsimp only
  split
  · next h =>
    rw [hreaches] at h
    ring_nf at h hbetween ⊢
    exact ⟨h, hbetween.2⟩
  · next h =>
    rw [hreaches, not_le] at h
    ring_nf at h hbetween ⊢
    exact ⟨hbetween.1.le, h⟩

/-! ## Intervals -/

theorem intervalOf_den_pos (mantissa : Nat) (exponent : Int) : 0 < (intervalOf mantissa exponent).den := by
  have h := (powRatio_pos Nat.two_pos exponent).2
  exact Nat.mul_pos (by decide) h

theorem quarters (count : Nat) (exponent : Int) :
    ((count * (powRatio 2 exponent).1 : Nat) : ℚ) / (4 * (powRatio 2 exponent).2 : Nat) =
      count / 4 * 2 ^ exponent := by
  have hpow := powRatio_eq 2 exponent
  push_cast at hpow ⊢
  rw [← hpow, mul_div_mul_comm]

theorem intervalOf_value (mantissa : Nat) (exponent : Int) :
    ((intervalOf mantissa exponent).value : ℚ) / (intervalOf mantissa exponent).den =
      mantissa * 2 ^ exponent := by
  refine (quarters (4 * mantissa) exponent).trans ?_
  push_cast
  ring

theorem intervalOf_high (mantissa : Nat) (exponent : Int) :
    ((intervalOf mantissa exponent).high : ℚ) / (intervalOf mantissa exponent).den =
      (mantissa + 1 / 2) * 2 ^ exponent := by
  refine (quarters (4 * mantissa + 2) exponent).trans ?_
  push_cast
  ring

theorem intervalOf_low (hpos : 0 < mantissa) (exponent : Int) :
    ((intervalOf mantissa exponent).low : ℚ) / (intervalOf mantissa exponent).den =
      (mantissa - margin mantissa exponent) * 2 ^ exponent := by
  refine (quarters (4 * mantissa - _) exponent).trans ?_
  rw [margin]
  simp only [Bool.and_eq_true, decide_eq_true_eq]
  split
  · rw [Nat.cast_sub (by omega)]
    push_cast
    ring
  · rw [Nat.cast_sub (by omega)]
    push_cast
    ring

theorem holds_intervalOf (hpos : 0 < mantissa) (exponent : Int) (num : Nat) (hden : 0 < den) :
    (intervalOf mantissa exponent).holds num den = true ↔ Rounds (num / den) mantissa exponent := by
  have hden' : (0 : ℚ) < den := by exact_mod_cast hden
  have hscale : (0 : ℚ) < (intervalOf mantissa exponent).den := by
    exact_mod_cast intervalOf_den_pos mantissa exponent
  have hpow : (0 : ℚ) < 2 ^ exponent := by positivity
  have hlow := intervalOf_low hpos exponent
  have hhigh := intervalOf_high mantissa exponent
  have hclosed : (intervalOf mantissa exponent).closed = (mantissa % 2 == 0) := rfl
  generalize intervalOf mantissa exponent = interval at *
  have hlow_le : interval.low * den ≤ num * interval.den ↔
      (mantissa : ℚ) - margin mantissa exponent ≤ num / den / 2 ^ exponent := by
    rw [le_div_iff₀ hpow, ← hlow, div_le_div_iff₀ hscale hden']
    exact_mod_cast Iff.rfl
  have hlow_lt : interval.low * den < num * interval.den ↔
      (mantissa : ℚ) - margin mantissa exponent < num / den / 2 ^ exponent := by
    rw [lt_div_iff₀ hpow, ← hlow, div_lt_div_iff₀ hscale hden']
    exact_mod_cast Iff.rfl
  have hhigh_le : num * interval.den ≤ interval.high * den ↔
      num / den / 2 ^ exponent ≤ (mantissa : ℚ) + 1 / 2 := by
    rw [div_le_iff₀ hpow, ← hhigh, div_le_div_iff₀ hden' hscale]
    exact_mod_cast Iff.rfl
  have hhigh_lt : num * interval.den < interval.high * den ↔
      num / den / 2 ^ exponent < (mantissa : ℚ) + 1 / 2 := by
    rw [div_lt_iff₀ hpow, ← hhigh, div_lt_div_iff₀ hden' hscale]
    exact_mod_cast Iff.rfl
  simp only [Interval.holds, hclosed, beq_iff_eq]
  split
  · simp only [Bool.and_eq_true, decide_eq_true_eq, hlow_le, hhigh_le]
    exact ⟨fun h => ⟨h.1, h.2, fun hodd => absurd hodd (by omega)⟩, fun h => ⟨h.low, h.high⟩⟩
  · simp only [Bool.and_eq_true, decide_eq_true_eq, hlow_lt, hhigh_lt]
    exact ⟨fun h => ⟨h.1.le, h.2.le, fun _ => h⟩, fun h => h.odd (by omega)⟩

/-! ## Digits -/

def value (decimal : Decimal) : ℚ := decimal.digits * 10 ^ (decimal.point - decimal.length)

structure IsFull (decimal : Decimal) : Prop where
  pos : 0 < decimal.length
  low : 10 ^ (decimal.length - 1) ≤ decimal.digits
  high : decimal.digits < 10 ^ decimal.length

theorem divNearest_cases (num den : Nat) :
    divNearest num den = num / den ∨ divNearest num den = num / den + 1 := by
  unfold divNearest
  dsimp only
  split
  · exact .inr rfl
  · exact .inl rfl

/-- The value of an interval in units of this ratio, rounded down. -/
def below (interval : Interval) (unit : Nat × Nat) : Nat :=
  interval.value * unit.2 / (interval.den * unit.1)

theorem candidate?_cases (hunit : powRatio 10 (point - length) = unit)
    (h : candidate? interval point length = some found) :
    ∃ n, (n = below interval unit ∨ n = below interval unit + 1) ∧
      interval.holds (n * unit.1) unit.2 = true ∧
      found = if n = Nat.pow 10 length then ⟨Nat.pow 10 (length - 1), length, point + 1⟩
        else ⟨n, length, point⟩ := by
  have hnearer := divNearest_cases (interval.value * unit.2) (interval.den * unit.1)
  rw [candidate?, hunit] at h
  obtain ⟨n, hn, rfl⟩ := Option.map_eq_some_iff.mp h
  have hcases : (n = below interval unit ∨ n = below interval unit + 1) ∧
      interval.holds (n * unit.1) unit.2 = true := by
    split at hn
    · next hfits =>
      cases hn
      exact ⟨hnearer, (Bool.and_eq_true_iff.mp hfits).2⟩
    · split at hn
      · split at hn
        · next hfits =>
          cases hn
          exact ⟨.inr rfl, (Bool.and_eq_true_iff.mp hfits).2⟩
        · cases hn
      · split at hn
        · next hfits =>
          cases hn
          exact ⟨.inl rfl, (Bool.and_eq_true_iff.mp hfits).2⟩
        · cases hn
  exact ⟨n, hcases.1, hcases.2, rfl⟩

theorem below_spec (hden : 0 < interval.den) (hlength : 0 < length)
    (hlow : (10 : ℚ) ^ (point - 1) ≤ interval.value / interval.den)
    (hhigh : (interval.value : ℚ) / interval.den < 10 ^ point) :
    10 ^ (length - 1) ≤ below interval (powRatio 10 (point - length)) ∧
      below interval (powRatio 10 (point - length)) < 10 ^ length := by
  obtain ⟨hup, hdown⟩ := powRatio_pos (by decide : 0 < 10) (point - length)
  have hpow := powRatio_eq 10 (point - length)
  rw [Nat.cast_ofNat] at hpow
  have hdownq : (0 : ℚ) < (powRatio 10 (point - length)).2 := by exact_mod_cast hdown
  have hdenq : (0 : ℚ) < interval.den := by exact_mod_cast hden
  have hplaces : (10 : ℚ) ^ (length - 1) * 10 ^ (point - length) = 10 ^ (point - 1) ∧
      (10 : ℚ) ^ length * 10 ^ (point - length) = 10 ^ point := by
    rw [← zpow_natCast, ← zpow_natCast, ← zpow_add₀ (by norm_num), ← zpow_add₀ (by norm_num)]
    constructor <;> congr 1 <;> omega
  rw [← hpow] at hplaces
  constructor
  · rw [below, Nat.le_div_iff_mul_le (Nat.mul_pos hden hup)]
    rw [← hplaces.1, ← mul_div_assoc, div_le_div_iff₀ hdownq hdenq] at hlow
    have hcast : (10 : ℚ) ^ (length - 1) * (interval.den * (powRatio 10 (point - length)).1) ≤
        interval.value * (powRatio 10 (point - length)).2 := by linarith
    exact_mod_cast hcast
  · rw [below, Nat.div_lt_iff_lt_mul (Nat.mul_pos hden hup)]
    rw [← hplaces.2, ← mul_div_assoc, div_lt_div_iff₀ hdenq hdownq] at hhigh
    have hcast : (interval.value : ℚ) * (powRatio 10 (point - length)).2 <
        10 ^ length * (interval.den * (powRatio 10 (point - length)).1) := by linarith
    exact_mod_cast hcast

theorem candidate?_spec (hden : 0 < interval.den) (hlength : 0 < length)
    (hlow : (10 : ℚ) ^ (point - 1) ≤ interval.value / interval.den)
    (hhigh : (interval.value : ℚ) / interval.den < 10 ^ point)
    (h : candidate? interval point length = some found) :
    found.IsFull ∧ ∃ num den, 0 < den ∧ interval.holds num den = true ∧ (num : ℚ) / den = found.value := by
  obtain ⟨n, hn, hholds, rfl⟩ := candidate?_cases rfl h
  have hbelow := below_spec hden hlength hlow hhigh
  have hpow := powRatio_eq 10 (point - length)
  have hrange : 10 ^ (length - 1) ≤ n ∧ n ≤ 10 ^ length := by omega
  constructor
  · split
    · exact ⟨hlength, le_rfl, Nat.pow_lt_pow_right (by decide) (by simpa using hlength)⟩
    · next hne => exact ⟨hlength, hrange.1, Nat.lt_of_le_of_ne hrange.2 hne⟩
  · refine ⟨_, _, (powRatio_pos (by decide) (point - length)).2, hholds, ?_⟩
    rw [Nat.cast_mul, mul_div_assoc, hpow]
    split
    · next hcarry =>
      have hten : (10 : ℚ) ≠ 0 := by norm_num
      rw [hcarry, value]
      simp only [Nat.pow_eq, Nat.cast_pow, Nat.cast_ofNat]
      rw [← zpow_natCast, ← zpow_natCast, ← zpow_add₀ hten, ← zpow_add₀ hten]
      congr 1
      omega
    · rfl

theorem search_zero (interval : Interval) (point : Int) (length : Nat) :
    search interval point length 0 = (candidate? interval point length).getD ⟨0, length, point⟩ := by
  rw [search]
  cases candidate? interval point length <;> rfl

theorem search_succ (interval : Interval) (point : Int) (length remaining : Nat) :
    search interval point length (remaining + 1) =
      (candidate? interval point length).getD (search interval point (length + 1) remaining) := by
  rw [search]
  cases candidate? interval point length <;> rfl

theorem search_spec (length remaining : Nat)
    (h : (candidate? interval point (length + remaining)).isSome = true) :
    ∃ places ≥ length, candidate? interval point places = some (search interval point length remaining) := by
  induction remaining generalizing length with
  | zero =>
    obtain ⟨found, hfound⟩ := Option.isSome_iff_exists.mp h
    rw [Nat.add_zero] at hfound
    exact ⟨length, le_rfl, by rw [search_zero, hfound, Option.getD_some]⟩
  | succ remaining ih =>
    rw [search_succ]
    cases hfound : candidate? interval point length with
    | some => exact ⟨length, le_rfl, hfound⟩
    | none =>
      have hend : (candidate? interval point (length + 1 + remaining)).isSome = true := by
        rwa [Nat.add_right_comm]
      obtain ⟨places, hplaces, hfound⟩ := ih _ hend
      exact ⟨places, by omega, hfound⟩

/-! ## Seventeen places -/

theorem isSome_candidate? (interval : Interval) (hunit : powRatio 10 (point - length) = unit)
    (hpos : 0 < divNearest (interval.value * unit.2) (interval.den * unit.1))
    (hholds : interval.holds (divNearest (interval.value * unit.2) (interval.den * unit.1) * unit.1) unit.2 = true) :
    (candidate? interval point length).isSome = true := by
  rw [candidate?, hunit]
  simp [hpos, hholds]

/-- In units of the last place of a number, seventeen digits are off by less than the interval
reaches down. -/
theorem lt_margin (exponent : Int) (hlt : mantissa < Nat.pow 2 53) {unit : ℚ}
    (hunit : unit * 10 ^ 16 ≤ mantissa) : unit / 2 < margin mantissa exponent := by
  have hbound : (mantissa : ℚ) ≤ 9007199254740991 := by exact_mod_cast Nat.le_of_lt_succ hlt
  unfold margin
  split
  · next htight =>
    have heq : (mantissa : ℚ) = 4503599627370496 := by exact_mod_cast htight.1
    linarith
  · linarith

theorem abs_sub_le_of_nearest {x place : ℚ} (hplace : 0 < place) (h : IsNearest (x / place) n) :
    |x - n * place| ≤ place / 2 := by
  have hmul : x - n * place = (x / place - n) * place := by
    rw [sub_mul, div_mul_cancel₀ _ hplace.ne']
  rw [hmul, abs_mul, abs_of_pos hplace]
  linarith [mul_le_mul_of_nonneg_right h.1 hplace.le]

theorem isSome_seventeen {exponent : Int} (hpos : 0 < mantissa) (hlt : mantissa < Nat.pow 2 53)
    (hlow : (10 : ℚ) ^ (point - 1) ≤ mantissa * 2 ^ exponent) :
    (candidate? (intervalOf mantissa exponent) point 17).isSome = true := by
  obtain ⟨hup, hdown⟩ := powRatio_pos (by decide : 0 < 10) (point - (17 : Nat))
  have hpow := powRatio_eq 10 (point - (17 : Nat))
  generalize hunit : powRatio 10 (point - (17 : Nat)) = unit at hup hdown hpow
  have hden := intervalOf_den_pos mantissa exponent
  -- The unit of the seventeenth digit, in units of the last place of the number.
  obtain ⟨place, hplace⟩ : ∃ place : ℚ, place = (unit.1 : ℚ) / unit.2 / 2 ^ exponent := ⟨_, rfl⟩
  have hplacePos : 0 < place := by
    rw [hplace, hpow]
    positivity
  have hsmall : place * 10 ^ 16 ≤ mantissa := by
    rw [hplace, hpow, div_mul_eq_mul_div, div_le_iff₀ (by positivity)]
    refine le_trans (le_of_eq ?_) hlow
    rw [Nat.cast_ofNat, ← zpow_natCast, ← zpow_add₀ (by norm_num)]
    congr 1
    omega
  have hscaled : (((intervalOf mantissa exponent).value * unit.2 : Nat) : ℚ) /
      ((intervalOf mantissa exponent).den * unit.1 : Nat) = mantissa / place := by
    rw [Nat.cast_mul, Nat.cast_mul, mul_div_mul_comm, intervalOf_value, hplace]
    field_simp
  have hnearest := isNearest_divNearest ((intervalOf mantissa exponent).value * unit.2)
    (Nat.mul_pos hden hup)
  rw [hscaled] at hnearest
  have hcandidate := isSome_candidate? (intervalOf mantissa exponent) hunit
  generalize divNearest _ _ = n at hnearest hcandidate
  obtain ⟨hbelow, habove⟩ := abs_le.mp (abs_sub_le_of_nearest hplacePos hnearest)
  have hmargin := lt_margin exponent hlt hsmall
  have hhalf := margin_le mantissa exponent
  have hlow : (mantissa : ℚ) - margin mantissa exponent < n * place := by linarith
  have hhigh : n * place < (mantissa : ℚ) + 1 / 2 := by linarith
  have hsame : ((n * unit.1 : Nat) : ℚ) / unit.2 / 2 ^ exponent = n * place := by
    rw [Nat.cast_mul, mul_div_assoc, hplace, mul_div_assoc]
  apply hcandidate
  · rcases Nat.eq_zero_or_pos n with rfl | hn
    · linarith
    · exact hn
  · rw [holds_intervalOf hpos exponent _ hdown]
    rw [← hsame] at hlow hhigh
    exact ⟨hlow.le, hhigh.le, fun _ => ⟨hlow, hhigh⟩⟩

theorem rounds_shortest (exponent : Int) (hpos : 0 < mantissa) (hlt : mantissa < Nat.pow 2 53) :
    (shortest mantissa exponent).IsFull ∧ Rounds (shortest mantissa exponent).value mantissa exponent := by
  have hden := intervalOf_den_pos mantissa exponent
  have hvalue : 0 < (intervalOf mantissa exponent).value := by
    exact Nat.mul_pos (by omega) (powRatio_pos Nat.two_pos exponent).1
  obtain ⟨hlow, hhigh⟩ := pointOf_spec hvalue hden
  have hend := isSome_seventeen hpos hlt (by rwa [intervalOf_value] at hlow)
  obtain ⟨places, hplaces, hfound⟩ := search_spec 1 16 hend
  obtain ⟨hfull, num, den, hden', hholds, heq⟩ := candidate?_spec hden hplaces hlow hhigh hfound
  rw [holds_intervalOf hpos exponent num hden', heq] at hholds
  exact ⟨hfull, hholds⟩

end Sitecheck.Decimal
