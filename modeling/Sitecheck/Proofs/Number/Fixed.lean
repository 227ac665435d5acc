import Sitecheck.Proofs.Number.Written

/-!
# Numbers with a fixed number of places

A ratio that is neither very small nor very large is read as a number that differs from
it by a tiny part of it (`ofRatio_near`).  The text of a number with a fixed number of
places shows the natural number of units nearest to it (`exists_parts_fixedText`).
-/

namespace Sitecheck

namespace Binary64

variable {num den : Nat}

/-! ## The error of a ratio -/

theorem scale_bounds (hden : 0 < den) (hlow : (2 : ℚ) ^ (-1022 : Int) ≤ num / den)
    (hhigh : (num : ℚ) / den < 2 ^ (1023 : Int)) :
    0 < num ∧ minExponent ≤ scale num den ∧ scale num den + 1 ≤ maxExponent := by
  have hnum : 0 < num := by
    rcases Nat.eq_zero_or_pos num with rfl | hnum
    · rw [Nat.cast_zero, zero_div] at hlow
      exact absurd hlow (not_le.mpr (by positivity))
    · exact hnum
  obtain ⟨hreached, hbelow⟩ := scale_spec hnum hden
  have hleast := two_zpow_lt (hlow.trans_lt hbelow)
  have hmost := two_zpow_lt (hreached.trans_lt hhigh)
  unfold minExponent maxExponent
  exact ⟨hnum, by omega, by omega⟩

/-- A ratio is read as a number that is off by at most half a unit of the last of 53 places. -/
theorem ofRatio_near (negative : Bool) (hden : 0 < den) (hlow : (2 : ℚ) ^ (-1022 : Int) ≤ num / den)
    (hhigh : (num : ℚ) / den < 2 ^ (1023 : Int)) :
    ∃ mantissa exponent, ofRatio negative num den = .finite negative mantissa exponent ∧
      |(num : ℚ) / den - mantissa * 2 ^ exponent| ≤ num / den / 2 ^ 53 := by
  obtain ⟨hnum, hleast, hmost⟩ := scale_bounds hden hlow hhigh
  have herror : |(num : ℚ) / den - scaled num den (scale num den) * 2 ^ scale num den| ≤
      num / den / 2 ^ 53 := by
    have hunit : (2 : ℚ) ^ scale num den * 2 ^ 52 ≤ num / den := by
      have hreached := (scale_spec hnum hden).1
      rwa [zpow_add₀ two_ne_zero] at hreached
    refine (Decimal.abs_sub_le_of_nearest (by positivity) (isNearest_scaled num hden _)).trans ?_
    linarith
  have hfound := ofRatio_of_scaled negative hnum.ne' (max_eq_left hleast) rfl
  split at hfound
  · next hcarry =>
    -- the mantissa is carried and the value stays
    have hvalue : ((Nat.pow 2 52 : Nat) : ℚ) * 2 ^ (scale num den + 1) =
        scaled num den (scale num den) * 2 ^ scale num den := by
      rw [hcarry, zpow_add_one₀ two_ne_zero]
      norm_num
      ring
    rw [if_neg (by omega)] at hfound
    exact ⟨_, _, hfound, by rwa [hvalue]⟩
  · rw [if_neg (by omega)] at hfound
    exact ⟨_, _, hfound, herror⟩

/-- A ratio of at most one is within range. -/
theorem ofQuotient?_of_le {num den : Int} (hnonneg : 0 ≤ num) (hle : num ≤ den) (hden : 0 < den) :
    ∃ x, ofQuotient? num den = some x := by
  have hratio (negative : Bool) :
      ∃ mantissa exponent, ofRatio negative num.natAbs den.natAbs = .finite negative mantissa exponent := by
    by_cases hzero : num.natAbs = 0
    · exact ⟨0, minExponent, by rw [hzero, ofRatio, if_pos rfl, zero]⟩
    · have hpos : 0 < den.natAbs := by omega
      have hone : (num.natAbs : ℚ) / den.natAbs ≤ 2 ^ (0 : Int) := by
        rw [zpow_zero, div_le_one (by exact_mod_cast hpos)]
        exact_mod_cast (by omega : num.natAbs ≤ den.natAbs)
      have hscale : scale num.natAbs den.natAbs + 52 ≤ 0 :=
        (zpow_le_zpow_iff_right₀ (by norm_num)).mp ((scale_spec (Nat.pos_of_ne_zero hzero) hpos).1.trans hone)
      have hmost : max (scale num.natAbs den.natAbs) minExponent + 1 ≤ maxExponent := by
        unfold minExponent maxExponent
        omega
      rw [ofRatio_of_scaled negative hzero rfl rfl]
      split <;> exact ⟨_, _, if_neg (by omega)⟩
  obtain ⟨mantissa, exponent, hfinite⟩ := hratio ((num < 0) != (den < 0) && num != 0)
  unfold ofQuotient?
  rw [if_neg hden.ne', hfinite]
  exact ⟨_, rfl⟩

end Binary64

/-! ## Places -/

namespace NumberFormat

theorem natOf_pad (width : Nat) (digits : List Char) :
    Numeral.natOf (pad width digits) = Numeral.natOf digits := by
  rw [pad, Numeral.natOf_append, Numeral.natOf_zeros, Nat.zero_mul, Nat.zero_add]

theorem le_length_pad (width : Nat) (digits : List Char) : width ≤ (pad width digits).length := by
  rw [pad, List.length_append, List.length_replicate]
  omega

theorem isDigit_pad {digits : List Char} (h : ∀ c ∈ digits, c.isDigit = true) (width : Nat) :
    ∀ c ∈ pad width digits, c.isDigit = true := by
  intro c hc
  rcases List.mem_append.mp hc with hc | hc
  · rw [List.eq_of_mem_replicate hc]
    rfl
  · exact h c hc

end NumberFormat

/-- The units of so many places in a number, a half to the even neighbour. -/
def fixedUnits (places mantissa : Nat) (exponent : Int) : Nat :=
  divNearest (mantissa * (Decimal.powRatio 2 exponent).1 * Nat.pow 10 places)
    (Decimal.powRatio 2 exponent).2

theorem isNearest_fixedUnits (places mantissa : Nat) (exponent : Int) :
    IsNearest (mantissa * 2 ^ exponent * 10 ^ places) (fixedUnits places mantissa exponent) := by
  have hvalue : (mantissa : ℚ) * 2 ^ exponent * 10 ^ places =
      ((mantissa * (Decimal.powRatio 2 exponent).1 * Nat.pow 10 places : Nat) : ℚ) /
        (Decimal.powRatio 2 exponent).2 := by
    have hpow := Decimal.powRatio_eq 2 exponent
    push_cast at hpow ⊢
    rw [← hpow]
    push_cast [Nat.pow_eq]
    ring
  rw [hvalue]
  exact isNearest_divNearest _ (Decimal.powRatio_pos (by decide) exponent).2

theorem exists_parts_fixedText {places : Nat} (hplaces : places ≠ 0) (mantissa : Nat) (exponent : Int) :
    ∃ whole fraction, (fixedText places (.finite false mantissa exponent)).toList = whole ++ '.' :: fraction ∧
      whole ≠ [] ∧ fraction.length = places ∧ (∀ c ∈ whole ++ fraction, c.isDigit = true) ∧
      Numeral.natOf (whole ++ fraction) = fixedUnits places mantissa exponent := by
  let digits := NumberFormat.pad (places + 1) (Nat.toDigits 10 (fixedUnits places mantissa exponent))
  have hlength : places + 1 ≤ digits.length := NumberFormat.le_length_pad _ _
  refine ⟨digits.take (digits.length - places), digits.drop (digits.length - places), ?_, ?_, ?_, ?_, ?_⟩
  · simp only [fixedText, hplaces, if_false, String.toList_ofList, Bool.false_eq_true, List.nil_append]
    rfl
  · rw [← List.length_pos_iff, List.length_take]
    omega
  · rw [List.length_drop]
    omega
  · rw [List.take_append_drop]
    exact NumberFormat.isDigit_pad
      (fun c hc => Nat.isDigit_of_mem_toDigits (by decide) (by decide) hc) _
  · rw [List.take_append_drop, NumberFormat.natOf_pad, Numeral.natOf_toDigits]

end Sitecheck
