import Sitecheck.Json.Reader
import Sitecheck.Json.Writer
import Sitecheck.Proofs.Number.Written

/-!
# Numbers in documents

A number is followed by what may stand behind a value, so its digits end where it
ends, and it is read as it was written: an integer unless it has too many digits
(`readMagnitude_toDigits`), and a number of the format always
(`readMagnitude_magnitude`).
-/

namespace Sitecheck.Json

variable {rest digits : List Char} {mantissa : Nat}

open Numeral

/-! ## Where a number ends -/

def EndsValue (rest : List Char) : Prop :=
  ∀ c ∈ rest.head?, c = ',' ∨ c = '\n' ∨ c = ']' ∨ c = '\x7d'

theorem EndsValue.head?_not (h : EndsValue rest) {p : Char → Bool}
    (hp : p ',' = false ∧ p '\n' = false ∧ p ']' = false ∧ p '\x7d' = false) :
    ∀ c ∈ rest.head?, p c = false := by
  intro c hc
  rcases h c hc with rfl | rfl | rfl | rfl
  · exact hp.1
  · exact hp.2.1
  · exact hp.2.2.1
  · exact hp.2.2.2

def EndsDigits (rest : List Char) : Prop := ∀ c ∈ rest.head?, c.isDigit = false

theorem EndsValue.endsDigits (h : EndsValue rest) : EndsDigits rest :=
  h.head?_not (by decide)

theorem takeWhile_isDigit (hdigits : ∀ c ∈ digits, c.isDigit = true) (hrest : EndsDigits rest) :
    (digits ++ rest).takeWhile Char.isDigit = digits := by
  rw [List.takeWhile_append_of_pos hdigits]
  cases rest with
  | nil => simp
  | cons c => simp [hrest c rfl]

theorem dropWhile_isDigit (hdigits : ∀ c ∈ digits, c.isDigit = true) (hrest : EndsDigits rest) :
    (digits ++ rest).dropWhile Char.isDigit = rest := by
  rw [List.dropWhile_append_of_pos hdigits]
  cases rest with
  | nil => rfl
  | cons c => simp [hrest c rfl]

theorem fraction?_of_endsValue (h : EndsValue rest) : fraction? rest = none := by
  unfold fraction?
  split
  · simpa using h '.' rfl
  · rfl

theorem exponent?_of_endsValue (h : EndsValue rest) : exponent? rest = none := by
  cases rest with
  | nil => rfl
  | cons c =>
    have hmark := h.head?_not (p := fun c => c = 'e' || c = 'E') (by decide) c rfl
    simp only [exponent?, hmark, Bool.false_eq_true, if_false]

theorem integerPart_append {whole : List Char} (hwhole : IsWhole whole)
    (hdigits : ∀ d ∈ whole, d.isDigit = true) (hrest : EndsDigits rest) :
    ∃ h, integerPart (whole ++ rest) = some (whole, ⟨rest, h⟩) := by
  rcases hwhole with rfl | ⟨c, digits, rfl, hzero⟩
  · exact ⟨Nat.lt_succ_self _, rfl⟩
  · have hmore : ∀ d ∈ digits, d.isDigit = true := fun d hd => hdigits d (List.mem_cons_of_mem c hd)
    refine ⟨by rw [List.length_append, List.length_cons]; omega, ?_⟩
    change integerPart (c :: (digits ++ rest)) = _
    rw [integerPart.eq_2 _ _ hzero, if_pos (hdigits c List.mem_cons_self)]
    simp only [takeWhile_isDigit hmore hrest, dropWhile_isDigit hmore hrest]

/-! ## How a number is read -/

/-- A number without its sign: its digits, and behind them a fraction, a power, both or
neither. -/
inductive ReadsMagnitude (negative : Bool) (text : List Char) : Json → List Char → Prop
  | point {whole places after : List Char} {rest : Rest text}
      (part : integerPart text = some (whole, rest))
      (fraction : fraction? rest.1 = some (places, after)) (power : exponent? after = none) :
      ReadsMagnitude negative text (.float (decimal negative whole places 0)) after
  | pointPower {whole places after tail : List Char} {rest : Rest text} {exponent : Int}
      (part : integerPart text = some (whole, rest))
      (fraction : fraction? rest.1 = some (places, after))
      (power : exponent? after = some (exponent, tail)) :
      ReadsMagnitude negative text (.float (decimal negative whole places exponent)) tail
  | power {whole tail : List Char} {rest : Rest text} {exponent : Int}
      (part : integerPart text = some (whole, rest)) (fraction : fraction? rest.1 = none)
      (power : exponent? rest.1 = some (exponent, tail)) :
      ReadsMagnitude negative text (.float (decimal negative whole [] exponent)) tail
  | whole {whole rest : List Char} {shorter : rest.length < text.length}
      (part : integerPart text = some (whole, ⟨rest, shorter⟩)) (fraction : fraction? rest = none)
      (power : exponent? rest = none) (short : ¬ Numeral.maxDigits < whole.length) :
      ReadsMagnitude negative text (.int (if negative then -(natOf whole : Int) else natOf whole)) rest

theorem ReadsMagnitude.readMagnitude {negative : Bool} {text : List Char} {value : Json}
    (h : ReadsMagnitude negative text value rest) :
    ∃ hlt, readMagnitude negative text = .ok (value, ⟨rest, hlt⟩) := by
  cases h with
  | @point whole places after rest part fraction power =>
    refine ⟨Nat.lt_of_le_of_lt (fraction?_length fraction) rest.2, ?_⟩
    unfold Json.readMagnitude
    grind
  | @pointPower whole places after tail rest exponent part fraction power =>
    refine ⟨Nat.lt_of_le_of_lt (exponent?_length power)
      (Nat.lt_of_le_of_lt (fraction?_length fraction) rest.2), ?_⟩
    unfold Json.readMagnitude
    grind
  | @power whole tail rest exponent part fraction power =>
    refine ⟨Nat.lt_of_le_of_lt (exponent?_length power) rest.2, ?_⟩
    unfold Json.readMagnitude
    grind
  | @whole whole rest shorter part fraction power short =>
    refine ⟨shorter, ?_⟩
    unfold Json.readMagnitude
    grind

theorem readsMagnitude {negative : Bool} {text : List Char} {value : Json} {rest : Rest text}
    (h : readMagnitude negative text = .ok (value, rest)) :
    ReadsMagnitude negative text value rest.1 := by
  unfold readMagnitude at h
  split at h
  · cases h
  next part =>
  split at h
  · next fraction =>
    split at h
    · next power =>
      cases h
      exact .pointPower part fraction power
    · next power =>
      cases h
      exact .point part fraction power
  · next fraction =>
    split at h
    · next power =>
      cases h
      exact .power part fraction power
    · next power =>
      split at h
      · cases h
      · next short =>
        cases h
        exact .whole part fraction power short

/-! ## Integers -/

theorem isDigit_toDigits (n : Nat) : ∀ c ∈ Nat.toDigits 10 n, c.isDigit = true := fun _ hc =>
  Nat.isDigit_of_mem_toDigits (by decide) (by decide) hc

theorem isWhole_toDigits (n : Nat) : IsWhole (Nat.toDigits 10 n) := by
  by_cases hzero : n = 0
  · subst hzero
    exact .inl rfl
  · have hhead := head?_toDigits_ne_zero hzero
    obtain ⟨c, digits, hn⟩ := List.exists_cons_of_ne_nil (Nat.toDigits_ne_nil (b := 10) (n := n))
    rw [hn] at hhead ⊢
    exact .inr ⟨c, digits, rfl, by simpa using hhead⟩

theorem readMagnitude_toDigits (negative : Bool) {n : Nat} (hn : n < Nat.pow 10 maxDigits)
    (hrest : EndsValue rest) :
    ∃ h, readMagnitude negative (Nat.toDigits 10 n ++ rest) =
      .ok (.int (if negative then -n else n), ⟨rest, h⟩) := by
  obtain ⟨_, hpart⟩ := integerPart_append (isWhole_toDigits n) (isDigit_toDigits n) hrest.endsDigits
  have hlength : ¬ Numeral.maxDigits < (Nat.toDigits 10 n).length := by
    have hsame : maxDigits = Numeral.maxDigits := rfl
    have hbound : ∀ k, 0 < k → n < Nat.pow 10 k → (Nat.toDigits 10 n).length ≤ k := fun k hk =>
      (Nat.length_toDigits_le_iff (by decide) hk).mpr
    rw [hsame] at hn
    exact Nat.not_lt.mpr (hbound _ (by decide) hn)
  have hreads : ReadsMagnitude negative _ _ rest :=
    .whole hpart (fraction?_of_endsValue hrest) (exponent?_of_endsValue hrest) hlength
  rw [natOf_toDigits] at hreads
  exact hreads.readMagnitude

/-! ## Fractions -/

theorem fraction?_append {fraction : List Char} (hfraction : fraction ≠ [])
    (hdigits : ∀ d ∈ fraction, d.isDigit = true) (hrest : EndsDigits rest) :
    fraction? ('.' :: (fraction ++ rest)) = some (fraction, rest) := by
  simp [fraction?, takeWhile_isDigit hdigits hrest, dropWhile_isDigit hdigits hrest, hfraction]

theorem exponent?_append (power : Int) (hrest : EndsDigits rest) :
    exponent? (NumberFormat.exponentText power ++ rest) = some (power, rest) := by
  have hdigits : ∀ d ∈ NumberFormat.pad 2 (Nat.toDigits 10 power.natAbs), d.isDigit = true := by
    refine List.forall_mem_append.mpr ⟨fun d hd => ?_, isDigit_toDigits _⟩
    rw [List.eq_of_mem_replicate hd]
    rfl
  have hvalue : natOf (NumberFormat.pad 2 (Nat.toDigits 10 power.natAbs)) = power.natAbs := by
    rw [NumberFormat.pad, natOf_append, natOf_zeros, natOf_toDigits, Nat.zero_mul, Nat.zero_add]
  have hne : NumberFormat.pad 2 (Nat.toDigits 10 power.natAbs) ≠ [] := by
    simp [NumberFormat.pad, Nat.toDigits_ne_nil]
  have hread : ∀ negative, exponentDigits? negative (NumberFormat.pad 2 (Nat.toDigits 10 power.natAbs) ++ rest) =
      some (if negative then -(power.natAbs : Int) else power.natAbs, rest) := by
    intro negative
    simp only [exponentDigits?, takeWhile_isDigit hdigits hrest, dropWhile_isDigit hdigits hrest, hvalue]
    rw [if_neg (by simpa using hne)]
  rw [NumberFormat.exponentText]
  split
  · have hread := hread true
    rw [if_pos rfl, show -(power.natAbs : Int) = power by omega] at hread
    exact hread
  · have hread := hread false
    rw [if_neg Bool.false_ne_true, show (power.natAbs : Int) = power by omega] at hread
    exact hread

theorem readMagnitude_parts (negative : Bool) {parts : Parts} (h : parts.IsFractional)
    (hrest : EndsValue rest) :
    ∃ hlt, readMagnitude negative (parts.text ++ rest) =
      .ok (.float (decimal negative parts.whole parts.fraction (parts.power.getD 0)), ⟨rest, hlt⟩) := by
  obtain ⟨whole, fraction, power⟩ := parts
  obtain ⟨hwhole, hdigits⟩ := List.forall_mem_append.mp h.digits
  have hmark : ∀ power, EndsDigits (NumberFormat.exponentText power ++ rest) := by
    simp [EndsDigits, NumberFormat.exponentText]
  rw [Parts.text, List.append_assoc, List.append_assoc]
  by_cases hfraction : fraction = []
  · subst hfraction
    cases power with
    | none => simpa using h.more
    | some power =>
      obtain ⟨_, hpart⟩ := integerPart_append h.whole hwhole (hmark power)
      exact (ReadsMagnitude.power hpart rfl (exponent?_append power hrest.endsDigits)).readMagnitude
  · rw [if_neg hfraction, List.cons_append]
    have hpoint : ∀ tail, EndsDigits ('.' :: tail) := by
      simp [EndsDigits]
    cases power with
    | none =>
      obtain ⟨_, hpart⟩ := integerPart_append h.whole hwhole (hpoint _)
      exact (ReadsMagnitude.point hpart (fraction?_append hfraction hdigits hrest.endsDigits)
        (exponent?_of_endsValue hrest)).readMagnitude
    | some power =>
      obtain ⟨_, hpart⟩ := integerPart_append h.whole hwhole (hpoint _)
      exact (ReadsMagnitude.pointPower hpart (fraction?_append hfraction hdigits (hmark power))
        (exponent?_append power hrest.endsDigits)).readMagnitude

theorem readMagnitude_magnitude (negative : Bool) (format : NumberFormat) {exponent : Int}
    (hfits : Binary64.Fits mantissa exponent) (hrest : EndsValue rest) :
    ∃ hlt, readMagnitude negative (format.magnitude mantissa exponent ++ rest) =
      .ok (.float (.finite negative mantissa exponent), ⟨rest, hlt⟩) := by
  rcases Nat.eq_zero_or_pos mantissa with rfl | hpos
  · obtain rfl := hfits.normal.resolve_left (by decide)
    have hzero : Parts.IsFractional ⟨['0'], ['0'], none⟩ :=
      ⟨List.all_eq_true.mp rfl, .inl rfl, .inl (by simp)⟩
    exact readMagnitude_parts negative hzero hrest
  · obtain ⟨parts, hparts, htext, hrounds⟩ := format.magnitude_spec exponent hpos hfits.lt
    rw [← htext, ← decimal_of_rounds negative hparts.digits hfits hpos hrounds]
    exact readMagnitude_parts negative hparts hrest

theorem exists_first_magnitude (format : NumberFormat) (exponent : Int)
    (hlt : mantissa < Nat.pow 2 53) (rest : List Char) :
    ∃ c tail, format.magnitude mantissa exponent ++ rest = c :: tail ∧ c.isDigit = true := by
  rcases Nat.eq_zero_or_pos mantissa with rfl | hpos
  · exact ⟨'0', _, rfl, rfl⟩
  · obtain ⟨parts, hparts, htext, -⟩ := format.magnitude_spec exponent hpos hlt
    obtain ⟨whole, fraction, power⟩ := parts
    have hfirst : ∃ c digits, whole = c :: digits := by
      rcases hparts.whole with hzero | ⟨c, digits, hwhole, -⟩
      · exact ⟨_, _, hzero⟩
      · exact ⟨_, _, hwhole⟩
    obtain ⟨c, digits, rfl⟩ := hfirst
    rw [← htext]
    exact ⟨c, _, rfl, hparts.digits c List.mem_cons_self⟩

end Sitecheck.Json
