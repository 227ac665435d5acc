import Sitecheck.Duration
import Sitecheck.Proofs.Json.Number
import Sitecheck.Proofs.Number.Fixed

/-!
# Durations read back

From a second on, a duration is written in minutes and hundredths of a second, which are
read back by `read?`.  The two together are off by at most half a hundredth.  Minutes are
split off before the rest is rounded, so in the last milliseconds of a minute the rest is
shown as sixty seconds (`read?_ofInt`).
-/

namespace Sitecheck

namespace Duration

variable {n : Nat}

open Numeral

/-! ## Reading a duration -/

structure Reading where
  minutes : Nat
  hundredths : Nat
  deriving DecidableEq

def Reading.seconds (reading : Reading) : ℚ := reading.hundredths / 100

def leading? (text : List Char) : Option (Nat × List Char) :=
  match text.takeWhile Char.isDigit with
  | [] => none
  | digits => some (natOf digits, text.dropWhile Char.isDigit)

def hundredths? (text : List Char) : Option Nat :=
  match leading? text with
  | some (whole, ['.', tenth, hundredth, 's']) =>
    if tenth.isDigit && hundredth.isDigit then some (whole * 100 + natOf [tenth, hundredth]) else none
  | _ => none

def read? (text : String) : Option Reading :=
  match leading? text.toList with
  | some (minutes, 'm' :: ' ' :: rest) => (hundredths? rest).map (Reading.mk minutes)
  | _ => (hundredths? text.toList).map (Reading.mk 0)

theorem leading?_append {digits rest : List Char} (hne : digits ≠ [])
    (hdigits : ∀ c ∈ digits, c.isDigit = true) (hrest : Json.EndsDigits rest) :
    leading? (digits ++ rest) = some (natOf digits, rest) := by
  unfold leading?
  rw [Json.takeWhile_isDigit hdigits hrest, Json.dropWhile_isDigit hdigits hrest]
  split
  · exact absurd rfl hne
  · rfl

/-! ## Seconds -/

theorem thousandths_near (hn : n < 60000) : ∃ mantissa exponent,
    thousandths n = .finite false mantissa exponent ∧
      |(n : ℚ) / 1000 - mantissa * 2 ^ exponent| ≤ 1 / 1000000 := by
  have hratio : thousandths n = .ofRatio false n 1000 := by
    have hsign : decide ((n : Int) < 0) = false := decide_eq_false (by omega)
    rw [thousandths, Binary64.ofSigned, hsign, Int.natAbs_natCast]
  rcases Nat.eq_zero_or_pos n with rfl | hpos
  · exact ⟨0, Binary64.minExponent, hratio, by norm_num⟩
  · have hone : (1 : ℚ) ≤ n := by exact_mod_cast hpos
    have hbound : (n : ℚ) ≤ 60000 := by exact_mod_cast hn.le
    have hlow : (2 : ℚ) ^ (-1022 : Int) ≤ (n : ℚ) / (1000 : Nat) := by
      calc (2 : ℚ) ^ (-1022 : Int) ≤ 2 ^ (-10 : Int) := zpow_le_zpow_right₀ (by norm_num) (by norm_num)
        _ ≤ (n : ℚ) / (1000 : Nat) := by linarith
    have hhigh : (n : ℚ) / (1000 : Nat) < 2 ^ (1023 : Int) := by
      calc (n : ℚ) / (1000 : Nat) < 2 ^ (6 : Int) := by linarith
        _ ≤ 2 ^ (1023 : Int) := zpow_le_zpow_right₀ (by norm_num) (by norm_num)
    obtain ⟨mantissa, exponent, hfound, herror⟩ := Binary64.ofRatio_near false (by decide) hlow hhigh
    refine ⟨mantissa, exponent, hratio.trans hfound, ?_⟩
    linarith

/-- The hundredths of a second that are shown for a number of milliseconds. -/
def hundredthsOf (n : Nat) : Nat :=
  match thousandths n with
  | .finite _ mantissa exponent => fixedUnits 2 mantissa exponent
  | _ => 0

/-- Milliseconds are whole, so an error that is small against one of them does not count. -/
theorem hundredthsOf_near (hn : n < 60000) :
    n ≤ 10 * hundredthsOf n + 5 ∧ 10 * hundredthsOf n ≤ n + 5 := by
  obtain ⟨mantissa, exponent, hfound, herror⟩ := thousandths_near hn
  have hunits : hundredthsOf n = fixedUnits 2 mantissa exponent := by rw [hundredthsOf, hfound]
  have hnearest := (isNearest_fixedUnits 2 mantissa exponent).1
  rw [← hunits, abs_le] at hnearest
  rw [abs_le] at herror
  constructor
  · have hlt : (n : ℚ) < 10 * hundredthsOf n + 6 := by linarith
    have hnat : n < 10 * hundredthsOf n + 6 := by exact_mod_cast hlt
    omega
  · have hlt : (10 * hundredthsOf n : ℚ) < n + 6 := by linarith
    have hnat : 10 * hundredthsOf n < n + 6 := by exact_mod_cast hlt
    omega

/-- Half a hundredth below a minute is shown as less than a minute, since the number next to
59.995 is below it. -/
theorem hundredthsOf_edge : hundredthsOf 59995 = 5999 := by decide +kernel

theorem hundredthsOf_lt_iff (hn : n < 60000) : hundredthsOf n < 6000 ↔ n ≤ 59995 := by
  obtain ⟨hlow, hhigh⟩ := hundredthsOf_near hn
  rcases Nat.lt_trichotomy n 59995 with hlt | rfl | hlt
  · omega
  · simp [hundredthsOf_edge]
  · omega

theorem leading?_thousandths (hn : n < 60000) : ∃ whole tenth hundredth,
    leading? ((fixedText 2 (thousandths n)).toList ++ ['s']) =
        some (whole, ['.', tenth, hundredth, 's']) ∧
      tenth.isDigit = true ∧ hundredth.isDigit = true ∧
      whole * 100 + natOf [tenth, hundredth] = hundredthsOf n := by
  obtain ⟨mantissa, exponent, hfound, -⟩ := thousandths_near hn
  have hunits : hundredthsOf n = fixedUnits 2 mantissa exponent := by rw [hundredthsOf, hfound]
  obtain ⟨whole, fraction, htext, hne, hlength, hdigits, hvalue⟩ :=
    exists_parts_fixedText (by decide : 2 ≠ 0) mantissa exponent
  obtain ⟨tenth, hundredth, rfl⟩ := List.length_eq_two.mp hlength
  rw [natOf_append, ← hunits] at hvalue
  simp only [List.forall_mem_append, List.forall_mem_cons] at hdigits
  refine ⟨natOf whole, tenth, hundredth, ?_, hdigits.2.1, hdigits.2.2.1, hvalue⟩
  rw [hfound, htext, List.append_assoc]
  exact leading?_append hne hdigits.1 (by simp [Json.EndsDigits])

theorem hundredths?_thousandths (hn : n < 60000) :
    hundredths? ((fixedText 2 (thousandths n)).toList ++ ['s']) = some (hundredthsOf n) := by
  obtain ⟨whole, tenth, hundredth, hleading, htenth, hhundredth, hvalue⟩ := leading?_thousandths hn
  simp [hundredths?, hleading, htenth, hhundredth, hvalue]

/-! ## Whole durations -/

theorem read?_seconds (hn : n < 60000) :
    read? (fixedText 2 (thousandths n) ++ "s") = some ⟨0, hundredthsOf n⟩ := by
  obtain ⟨whole, tenth, hundredth, hleading, -⟩ := leading?_thousandths hn
  have hs : "s".toList = ['s'] := rfl
  simp [read?, hs, hleading, hundredths?_thousandths hn]

theorem read?_minutes (minutes : Nat) (hn : n < 60000) :
    read? (Json.displayInt minutes ++ "m " ++ fixedText 2 (thousandths n) ++ "s") =
      some ⟨minutes, hundredthsOf n⟩ := by
  have hminutes : (Json.displayInt minutes).toList = Nat.toDigits 10 minutes := by
    simp [Json.displayInt, Json.intText]
  have hleading (rest : List Char) : leading? (Nat.toDigits 10 minutes ++ 'm' :: ' ' :: rest) =
      some (minutes, 'm' :: ' ' :: rest) := by
    rw [leading?_append Nat.toDigits_ne_nil (Json.isDigit_toDigits minutes)
      (by simp [Json.EndsDigits]), natOf_toDigits]
  have hm : "m ".toList = ['m', ' '] := rfl
  have hs : "s".toList = ['s'] := rfl
  simp only [read?, String.toList_append, hminutes, hm, hs, List.append_assoc, List.cons_append,
    List.nil_append, hleading, hundredths?_thousandths hn, Option.map_some]

theorem read?_ofInt_eq {ms : Int} (h : 1000 ≤ ms) :
    read? (ofInt ms) = some ⟨(ms / 60000).toNat, hundredthsOf (ms % 60000).toNat⟩ := by
  obtain ⟨n, rfl⟩ := Int.eq_ofNat_of_zero_le (by omega : 0 ≤ ms)
  have hrest : n % 60000 < 60000 := Nat.mod_lt _ (by decide)
  unfold ofInt
  rw [if_neg (by omega)]
  split
  · next hless =>
    have hn : n < 60000 := by exact_mod_cast hless
    have hquotient : ((n : Int) / 60000).toNat = 0 := by omega
    have hremainder : ((n : Int) % 60000).toNat = n := by omega
    rw [read?_seconds hn, hquotient, hremainder]
  · exact_mod_cast read?_minutes (n / 60000) hrest

/-- What is shown of a duration is off by at most half a hundredth.  The seconds are less than
sixty, unless the last four milliseconds of a minute have begun. -/
theorem read?_ofInt {ms : Int} (h : 1000 ≤ ms) : ∃ reading, read? (ofInt ms) = some reading ∧
    |reading.minutes * 60 + reading.seconds - ms / 1000| ≤ 1 / 200 ∧
    0 ≤ reading.seconds ∧ reading.seconds ≤ 60 ∧ (reading.seconds < 60 ↔ ms % 60000 ≤ 59995) := by
  refine ⟨_, read?_ofInt_eq h, ?_⟩
  obtain ⟨n, rfl⟩ := Int.eq_ofNat_of_zero_le (by omega : 0 ≤ ms)
  have hquotient : ((n : Int) / 60000).toNat = n / 60000 := by omega
  have hremainder : ((n : Int) % 60000).toNat = n % 60000 := by omega
  have hn : n % 60000 < 60000 := Nat.mod_lt _ (by decide)
  have hsplit : (n : ℚ) = 60000 * (n / 60000 : Nat) + (n % 60000 : Nat) := by
    exact_mod_cast (Nat.div_add_mod n 60000).symm
  obtain ⟨hlow, hhigh⟩ := hundredthsOf_near hn
  have hless := hundredthsOf_lt_iff hn
  rw [hquotient, hremainder, Reading.seconds, Int.cast_natCast, hsplit]
  dsimp only
  generalize hundredthsOf (n % 60000) = shown at hlow hhigh hless ⊢
  have hlow' : ((n % 60000 : Nat) : ℚ) ≤ 10 * shown + 5 := by exact_mod_cast hlow
  have hhigh' : (10 * shown : ℚ) ≤ (n % 60000 : Nat) + 5 := by exact_mod_cast hhigh
  have hmost : (shown : ℚ) ≤ 6000 := by
    have hnat : shown ≤ 6000 := by omega
    exact_mod_cast hnat
  have hseconds : (shown : ℚ) / 100 < 60 ↔ shown < 6000 := by
    rw [div_lt_iff₀ (by norm_num)]
    norm_num
  refine ⟨abs_le.mpr ⟨by linarith, by linarith⟩, by positivity, by linarith, ?_⟩
  rw [hseconds, hless]
  omega

/-- A millisecond before the first minute is over, sixty seconds are shown. -/
theorem read?_ofInt_minute : read? (ofInt 59999) = some ⟨0, 6000⟩ ∧
    ∃ reading, read? (ofInt 59999) = some reading ∧
      |reading.minutes * 60 + reading.seconds - (59999 : Int) / 1000| ≤ 1 / 200 ∧
      ¬ reading.seconds < 60 := by
  obtain ⟨reading, hread, herror, -, -, hless⟩ := read?_ofInt (by decide : (1000 : Int) ≤ 59999)
  exact ⟨by decide +kernel, reading, hread, herror, hless.not.mpr (by decide)⟩

end Duration

end Sitecheck
