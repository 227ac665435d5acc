import Sitecheck.Proofs.Json.Derivation
import Sitecheck.Proofs.Json.Plain
import Sitecheck.Proofs.Json.Written

/-!
# What is read

Whatever text it is read from, a document has no more levels than are read, only
numbers that are written as they are, and no key twice (`bounded_of_parse`).  If
the text is plain, that is, if none of its own characters is half of a pair, a
document that was read is also read back just as it is (`kept_of_parse`): two
halves that escapes could have put together were put together already.
-/

namespace Sitecheck

/-! ## Rounded numbers -/

theorem Binary64.fits_zero : Fits 0 minExponent :=
  ⟨by decide, le_rfl, by decide, .inr rfl⟩

theorem Binary64.scaled_bounds {num den : Nat} (hnum : 0 < num) (hden : 0 < den) {exponent : Int}
    (hexponent : max (scale num den) minExponent = exponent) :
    scaled num den exponent ≤ Nat.pow 2 53 ∧
      (Nat.pow 2 52 ≤ scaled num den exponent ∨ exponent = minExponent) := by
  obtain ⟨hlow, hhigh⟩ := scale_spec hnum hden
  have hnearest := abs_le.mp (isNearest_scaled num hden exponent).1
  have hpow : (0 : ℚ) < 2 ^ exponent := by positivity
  have hmono : ∀ {i j : Int}, i ≤ j → (2 : ℚ) ^ i ≤ 2 ^ j := fun hij =>
    zpow_le_zpow_right₀ (by norm_num) hij
  -- the ratio is below the bound, so the nearest integer is not above it
  constructor
  · have hbelow : (num : ℚ) / den / 2 ^ exponent ≤ 9007199254740992 := by
      rw [div_le_iff₀ hpow]
      calc (num : ℚ) / den ≤ 2 ^ (scale num den + 53) := hhigh.le
        _ ≤ 2 ^ (exponent + 53) := hmono (by omega)
        _ = 9007199254740992 * 2 ^ exponent := by rw [zpow_add₀ two_ne_zero, mul_comm]; norm_num
    have hcast : ((scaled num den exponent : Nat) : ℚ) < 9007199254740993 := by linarith
    have hnat : scaled num den exponent < 9007199254740993 := by exact_mod_cast hcast
    have htwo : Nat.pow 2 53 = 9007199254740992 := rfl
    omega
  · by_cases hmin : exponent = minExponent
    · exact .inr hmin
    · have hscale : exponent = scale num den := by omega
      have habove : (4503599627370496 : ℚ) ≤ num / den / 2 ^ exponent := by
        rw [le_div_iff₀ hpow]
        calc (4503599627370496 : ℚ) * 2 ^ exponent = 2 ^ (exponent + 52) := by
              rw [zpow_add₀ two_ne_zero, mul_comm]; norm_num
          _ ≤ num / den := hscale ▸ hlow
      have hcast : (4503599627370495 : ℚ) < (scaled num den exponent : Nat) := by linarith
      have hnat : 4503599627370495 < scaled num den exponent := by exact_mod_cast hcast
      have htwo : Nat.pow 2 52 = 4503599627370496 := rfl
      exact .inl (by omega)

namespace Json

variable {c : Char} {text rest tail point chars digits start left : List Char} {codes : List Nat}
  {negative : Bool} {value item : Json} {levels : Nat} {items : List Json}
  {fields : List (String × Json)}

theorem isRegular_zero (negative : Bool) : IsRegular (.zero negative) := Binary64.fits_zero

theorem isRegular_ofRatio (negative : Bool) (num : Nat) {den : Nat} (hden : 0 < den) :
    IsRegular (.ofRatio negative num den) := by
  rcases Nat.eq_zero_or_pos num with rfl | hnum
  · exact isRegular_zero negative
  have hmin : Binary64.minExponent ≤ max (Binary64.scale num den) Binary64.minExponent :=
    le_max_right _ _
  obtain ⟨hhigh, hlow⟩ := Binary64.scaled_bounds hnum hden rfl
  rw [Binary64.ofRatio_of_scaled negative hnum.ne' rfl rfl]
  split
  · split
    · trivial
    · exact ⟨by decide, by omega, by omega, .inl le_rfl⟩
  · next hne =>
    split
    · trivial
    · exact ⟨Nat.lt_of_le_of_ne hhigh hne, hmin, by omega, hlow⟩

theorem isRegular_decimal (negative : Bool) (whole fraction : List Char) (exponent : Int) :
    IsRegular (Numeral.decimal negative whole fraction exponent) := by
  unfold Numeral.decimal Numeral.nearest
  dsimp only
  split
  · exact isRegular_zero negative
  split
  · trivial
  split
  · exact isRegular_zero negative
  split
  · exact isRegular_ofRatio negative _ Nat.one_pos
  · exact isRegular_ofRatio negative _ (Nat.pow_pos (by decide))

open Text

/-! ## Texts -/

theorem hexValue?_spec {value : Nat} (h : hexValue? c = some value) : value < 16 ∧ c ≠ mark := by
  have hmark : mark.toNat = 0x10ffff := by decide
  have hne : c.toNat < 0x10ffff → c ≠ mark := by
    rintro hlt rfl
    omega
  have h9 : '9'.toNat = 57 := rfl
  have hf : 'f'.toNat = 102 := rfl
  have hF : 'F'.toNat = 70 := rfl
  simp only [hexValue?, Bool.and_eq_true, decide_eq_true_eq, Char.le_def, UInt32.le_iff_toNat_le,
    Char.toNat_val] at h
  split at h
  · cases h
    exact ⟨by omega, hne (by omega)⟩
  split at h
  · cases h
    exact ⟨by omega, hne (by omega)⟩
  split at h
  · cases h
    exact ⟨by omega, hne (by omega)⟩
  · cases h

theorem unit?_spec {unit : Nat} (h : unit? text = some (unit, rest)) :
    unit < 0x10000 ∧ CutTo text rest := by
  unfold unit? at h
  split at h
  · simp only [Option.bind_eq_bind, Option.bind_eq_some_iff] at h
    obtain ⟨a', ha, b', hb, c', hc, d', hd, h⟩ := h
    cases h
    have ha := hexValue?_spec ha
    have hb := hexValue?_spec hb
    have hc := hexValue?_spec hc
    have hd := hexValue?_spec hd
    exact ⟨by omega, .cons ha.2 (.cons hb.2 (.cons hc.2 (.cons hd.2 (.refl _))))⟩
  · cases h

/-- What an escape denotes: a code point that has been put together with what follows it. -/
structure Denotes (text point rest : List Char) (code : Nat) : Prop where
  point : point = charsOf code
  lt : code < 0x110000
  cut : CutTo text rest
  high : isHigh code = true → ¬ BeginsLow rest
  low : isLow code = true → BeginsLow ('\\' :: text)

theorem shortEscape?_spec {name : Char} (h : shortEscape? name = some c) :
    name ≠ mark ∧ c ≠ mark ∧ isHalf c.toNat = false := by
  unfold shortEscape? at h
  split at h
  all_goals first
    | cases h; exact ⟨by decide, by decide, by decide⟩
    | cases h

theorem denotes_pair {more more' : List Char} {high low : Nat}
    (hhigh : unit? more = some (high, '\\' :: 'u' :: more')) (hrange : isHigh high = true)
    (hlow : unit? more' = some (low, tail)) (hrange' : isLow low = true) :
    Denotes ('u' :: more) (charsOf (pair high low)) tail (pair high low) := by
  have hcut : CutTo ('u' :: more) tail := by
    have hrest : CutTo ('\\' :: 'u' :: more') tail :=
      .cons (by decide) (.cons (by decide) (unit?_spec hlow).2)
    exact .cons (by decide) ((unit?_spec hhigh).2.trans hrest)
  have hlarge := le_pair high low
  refine ⟨rfl, ?_, hcut, fun hno => ?_, fun hno => ?_⟩
  · simp only [isHigh, isLow, Bool.and_eq_true, decide_eq_true_eq] at hrange hrange'
    unfold pair
    omega
  · simp only [isHigh, Bool.and_eq_true, decide_eq_true_eq] at hno
    omega
  · simp only [isLow, Bool.and_eq_true, decide_eq_true_eq] at hno
    omega

theorem denotes_of_escape? (h : escape? text = some (point, rest)) :
    ∃ code, Denotes text point rest code := by
  unfold escape? at h
  split at h
  · next more =>
    have hu : 'u' ≠ mark := by decide
    split at h
    · cases h
    · next unit tail hunit =>
      obtain ⟨hlt, hcut⟩ := unit?_spec hunit
      have halone (hrest : isHigh unit = true → ¬ BeginsLow tail) :
          Denotes ('u' :: more) (charsOf unit) tail unit :=
        ⟨rfl, by omega, hcut.cons hu, hrest, fun hlow => ⟨more, unit, tail, rfl, hunit, hlow⟩⟩
      -- a first half is read with the half behind it, if there is one, and alone if not
      split at h
      · next hhigh =>
        split at h
        · split at h
          · next low tail' hlow =>
            split at h
            · next hrange =>
              obtain ⟨rfl, rfl⟩ := Prod.mk.inj (Option.some.inj h)
              exact ⟨_, denotes_pair hunit hhigh hlow hrange⟩
            · next hrange =>
              cases h
              refine ⟨unit, halone fun _ hbegins => ?_⟩
              obtain ⟨_, _, _, heq, hunit', hlow'⟩ := hbegins
              cases heq
              cases hlow.symm.trans hunit'
              exact hrange hlow'
          · next hnone =>
            cases h
            refine ⟨unit, halone fun _ hbegins => ?_⟩
            obtain ⟨_, _, _, heq, hunit', -⟩ := hbegins
            cases heq
            cases hnone.symm.trans hunit'
        · next hother =>
          cases h
          refine ⟨unit, halone fun _ hbegins => ?_⟩
          obtain ⟨more', _, _, heq, -⟩ := hbegins
          exact hother more' heq
      · next hhigh =>
        cases h
        exact ⟨unit, halone fun hyes => absurd hyes hhigh⟩
  · obtain ⟨d, hshort, heq⟩ := Option.map_eq_some_iff.mp h
    cases heq
    obtain ⟨hname, hmark, hhalf⟩ := shortEscape?_spec hshort
    refine ⟨d.toNat, (charsOf_toNat hmark).symm, toNat_lt d, (CutTo.refl _).cons hname, ?_, ?_⟩
    · simp [not_high_of_not_half hhalf]
    · simp [not_low_of_not_half hhalf]
  · cases h

/-- The characters of a string that was read hold code points.  It starts with the second
half of a pair only if its text does. -/
structure ReadsPlain (text chars rest : List Char) (codes : List Nat) : Prop where
  holds : Holds chars codes
  first : ∀ low ∈ codes.head?, isLow low = true → BeginsLow text
  plain : Plain rest

theorem ReadsPlain.escape {escaped : List Char} {code : Nat}
    (hcode : Denotes escaped point text code) (h : ReadsPlain text chars rest codes) :
    ReadsPlain ('\\' :: escaped) (point ++ chars) rest (code :: codes) := by
  refine ⟨?_, by simpa using hcode.low, h.plain⟩
  rw [hcode.point]
  refine h.holds.cons hcode.lt fun hhigh next hnext => ?_
  cases hlow : isLow next with
  | false => rfl
  | true => exact absurd (h.first next hnext hlow) (hcode.high hhigh)

theorem ReadsPlain.char {text' : List Char} (h : ReadsPlain text chars rest codes) (c : Char) :
    ReadsPlain text' (charsOf c.toNat ++ chars) rest (c.toNat :: codes) := by
  have hhigh := not_high_of_not_half (not_half_toNat c)
  have hlow := not_low_of_not_half (not_half_toNat c)
  exact ⟨h.holds.cons (toNat_lt c) (by simp [hhigh]), by simp [hlow], h.plain⟩

theorem Spells.readsPlain (h : Spells text chars rest) (hplain : Plain text) :
    ∃ codes, ReadsPlain text chars rest codes := by
  induction hlength : text.length using Nat.strong_induction_on generalizing text chars with
  | _ length ih =>
  subst hlength
  cases hplain with
  | nil => cases h
  | @char c text hc hplain =>
    cases h with
    | close => exact ⟨[], .nil, by simp, hplain⟩
    | escape hescape hspells =>
      obtain ⟨code, hcode⟩ := denotes_of_escape? hescape
      have hshorter := Nat.lt_succ_of_lt (escape?_length hescape)
      obtain ⟨codes, hcodes⟩ := ih _ hshorter hspells (hplain.of_cutTo hcode.cut) rfl
      exact ⟨_, hcodes.escape hcode⟩
    | char _ _ _ hspells =>
      obtain ⟨codes, hcodes⟩ := ih _ (Nat.lt_succ_self _) hspells hplain rfl
      have hchar : ReadsPlain (c :: text) _ rest _ := hcodes.char c
      rw [charsOf_toNat hc] at hchar
      exact ⟨_, hchar⟩
  | @doubled text hplain =>
    cases h with
    | char _ _ _ h =>
      cases h with
      | char _ _ _ hspells =>
        have hshorter : text.length < (mark :: mark :: text).length := by
          simp only [List.length_cons]
          omega
        obtain ⟨codes, hcodes⟩ := ih _ hshorter hspells hplain rfl
        have hchar : ReadsPlain (mark :: mark :: text) _ rest _ := hcodes.char mark
        exact ⟨_, hchar⟩

/-! ## Numbers -/

theorem integerPart_spec {rest : Rest text} (h : integerPart text = some (digits, rest)) :
    (∀ c ∈ digits, c.isDigit = true) ∧ CutTo text rest.1 := by
  have hdigit : ∀ c : Char, c.isDigit = true → c ≠ mark := by
    rintro c hc rfl
    exact absurd hc (by decide)
  unfold integerPart at h
  split at h
  · cases h
    exact ⟨by simp, (CutTo.refl _).cons (by decide)⟩
  · next c tail _ =>
    split at h
    · next hc =>
      cases h
      refine ⟨List.forall_mem_cons.mpr ⟨hc, fun d hd => List.mem_takeWhile_imp hd⟩, ?_⟩
      exact (cutTo_dropWhile (by decide) tail).cons (hdigit c hc)
    · cases h
  · cases h

theorem cutTo_of_fraction? (h : fraction? text = some (digits, rest)) : CutTo text rest := by
  unfold fraction? at h
  split at h
  · next tail =>
    dsimp only at h
    split at h
    · cases h
    · cases h
      exact (cutTo_dropWhile (by decide) tail).cons (by decide)
  · cases h

theorem cutTo_of_exponentDigits? {value : Int}
    (h : exponentDigits? negative text = some (value, rest)) : CutTo text rest := by
  unfold exponentDigits? at h
  dsimp only at h
  split at h
  · cases h
  · obtain ⟨-, rfl⟩ := Prod.mk.inj (Option.some.inj h)
    exact cutTo_dropWhile (by decide) text

theorem cutTo_of_exponent? {value : Int} (h : exponent? text = some (value, rest)) :
    CutTo text rest := by
  unfold exponent? at h
  split at h
  · next sign tail =>
    split at h
    · next hsign =>
      have hne : sign ≠ mark := by
        rintro rfl
        exact absurd hsign (by decide)
      split at h
      · exact .cons hne (.cons (by decide) (cutTo_of_exponentDigits? h))
      · exact .cons hne (.cons (by decide) (cutTo_of_exponentDigits? h))
      · exact .cons hne (cutTo_of_exponentDigits? h)
    · cases h
  · cases h

def IsNumber : Json → Prop
  | .int value => isUnwritable value = false
  | .float value => IsRegular value
  | _ => False

theorem not_isUnwritable_natOf (negative : Bool) (hdigits : ∀ c ∈ digits, c.isDigit = true)
    (h : ¬ Numeral.maxDigits < digits.length) :
    isUnwritable (if negative then -(Numeral.natOf digits : Int) else Numeral.natOf digits) =
      false := by
  have habs : (if negative then -(Numeral.natOf digits : Int) else Numeral.natOf digits).natAbs =
      Numeral.natOf digits := by
    cases negative with
    | true => exact Int.natAbs_neg _
    | false => rfl
  have hlt : ∀ places, digits.length ≤ places → Numeral.natOf digits < Nat.pow 10 places :=
    fun places hplaces =>
      Nat.lt_of_lt_of_le (Numeral.natOf_lt hdigits) (Nat.pow_le_pow_right (by decide) hplaces)
  rw [isUnwritable, habs]
  exact decide_eq_false (Nat.not_le.mpr (hlt _ (Nat.not_lt.mp h)))

theorem readMagnitude_spec {rest : Rest text}
    (h : readMagnitude negative text = .ok (value, rest)) : IsNumber value ∧ CutTo text rest.1 := by
  cases readsMagnitude h with
  | point part fraction =>
    exact ⟨isRegular_decimal .., (integerPart_spec part).2.trans (cutTo_of_fraction? fraction)⟩
  | pointPower part fraction power =>
    have hpoint := (integerPart_spec part).2.trans (cutTo_of_fraction? fraction)
    exact ⟨isRegular_decimal .., hpoint.trans (cutTo_of_exponent? power)⟩
  | power part _ power =>
    exact ⟨isRegular_decimal .., (integerPart_spec part).2.trans (cutTo_of_exponent? power)⟩
  | whole part _ _ short =>
    obtain ⟨hdigits, hcut⟩ := integerPart_spec part
    exact ⟨not_isUnwritable_natOf negative hdigits short, hcut⟩

/-! ## Values -/

/-- Documents of at most so many levels in which every number is written as it is and
no key comes twice. -/
inductive Bounded : Nat → Json → Prop where
  | null {levels : Nat} : Bounded levels .null
  | bool {levels : Nat} (value : Bool) : Bounded levels (.bool value)
  | int {levels : Nat} {value : Int} : isUnwritable value = false → Bounded levels (.int value)
  | float {levels : Nat} {value : Binary64} : IsRegular value → Bounded levels (.float value)
  | str {levels : Nat} (text : String) : Bounded levels (.str text)
  | arr {levels : Nat} {items : List Json} :
    (∀ item ∈ items, Bounded levels item) → Bounded (levels + 1) (.arr items)
  | obj {levels : Nat} {fields : List (String × Json)} :
    (∀ field ∈ fields, Bounded levels field.2) → (fields.map Prod.fst).Nodup →
    Bounded (levels + 1) (.obj fields)

theorem Storable.bounded (h : Storable levels value) : Bounded levels value := by
  induction h with
  | null => exact .null
  | bool value => exact .bool value
  | int hvalue => exact .int hvalue
  | float hvalue => exact .float hvalue
  | str text => exact .str text
  | arr _ ih => exact .arr ih
  | obj _ hkeys ih =>
    rw [rereadFields_eq_map, List.map_map] at hkeys
    exact .obj ih (List.Nodup.of_map Text.reread (by rwa [List.map_map]))

theorem IsNumber.bounded (h : IsNumber value) (levels : Nat) :
    Bounded levels value ∧ value.reread = value := by
  cases value with
  | int => exact ⟨.int h, rfl⟩
  | float => exact ⟨.float h, rfl⟩
  | _ => cases h

structure IsRead (levels : Nat) (text : List Char) (value : Json) (rest : List Char) : Prop where
  bounded : Bounded levels value
  reread : Plain text → value.reread = value
  plain : Plain text → Plain rest

theorem IsRead.behind (hcut : CutTo text start) (h : IsRead levels start value rest) :
    IsRead levels text value rest :=
  ⟨h.bounded, fun hplain => h.reread (hplain.of_cutTo hcut), fun hplain => h.plain (hplain.of_cutTo hcut)⟩

theorem Starts.cutTo_front (h : Starts text c rest) : CutTo text (c :: rest) := by
  have hcut : CutTo text (text.dropWhile isSpace) := cutTo_dropWhile (by decide) text
  rwa [h] at hcut

theorem Starts.cutTo (h : Starts text c rest) (hc : c ≠ mark) : CutTo text rest :=
  h.cutTo_front.trans ((CutTo.refl _).cons hc)

theorem isRead_word {word : List Char} (hmem : (word, value) ∈ words) (levels : Nat)
    (rest : List Char) : IsRead levels (word ++ rest) value rest := by
  have hnan : IsRegular (.nan false) := rfl
  have hinfinite (negative : Bool) : IsRegular (.infinite negative) := trivial
  obtain ⟨hmark, hbounded, hkept⟩ : mark ∉ word ∧ Bounded levels value ∧ value.reread = value := by
    simp only [words, List.mem_cons, Prod.mk.injEq, List.not_mem_nil, or_false] at hmem
    rcases hmem with ⟨rfl, rfl⟩ | ⟨rfl, rfl⟩ | ⟨rfl, rfl⟩ | ⟨rfl, rfl⟩ | ⟨rfl, rfl⟩ | ⟨rfl, rfl⟩
    · exact ⟨by decide, .null, rfl⟩
    · exact ⟨by decide, .bool true, rfl⟩
    · exact ⟨by decide, .bool false, rfl⟩
    · exact ⟨by decide, .float hnan, rfl⟩
    · exact ⟨by decide, .float (hinfinite false), rfl⟩
    · exact ⟨by decide, .float (hinfinite true), rfl⟩
  exact ⟨hbounded, fun _ => hkept, fun hplain => hplain.of_cutTo ⟨word, rfl, hmark⟩⟩

theorem isRead_of_readMagnitude {rest : Rest text} (levels : Nat)
    (h : readMagnitude negative text = .ok (value, rest)) :
    IsRead levels text value rest.1 := by
  obtain ⟨hnumber, hcut⟩ := readMagnitude_spec h
  obtain ⟨hbounded, hkept⟩ := hnumber.bounded levels
  exact ⟨hbounded, fun _ => hkept, fun hplain => hplain.of_cutTo hcut⟩

theorem Scalar.isRead (h : Scalar text value rest) (levels : Nat) :
    IsRead levels text value rest := by
  cases h with
  | word hmem => exact isRead_word hmem levels rest
  | @string text chars rest hspells =>
    have hplain (h : Plain ('"' :: text)) :=
      hspells.readsPlain (h.of_cutTo ((CutTo.refl _).cons (by decide)))
    refine ⟨.str _, fun h => ?_, fun h => ?_⟩
    · obtain ⟨codes, hcodes⟩ := hplain h
      rw [Json.reread, hcodes.holds.reread]
    · obtain ⟨codes, hcodes⟩ := hplain h
      exact hcodes.plain
  | number negative _ hread =>
    obtain ⟨_, hread⟩ := hread
    have hsign (tail : List Char) : CutTo ((if negative then ['-'] else []) ++ tail) tail :=
      ⟨_, rfl, by cases negative <;> decide⟩
    exact (isRead_of_readMagnitude levels hread).behind (hsign _)

/-! ## Containers -/

structure AreRead (levels : Nat) (text : List Char) (items : List Json) (rest : List Char) : Prop where
  bounded : ∀ item ∈ items, Bounded levels item
  reread : Plain text → ∀ item ∈ items, item.reread = item
  plain : Plain text → Plain rest

theorem AreRead.isRead {inner : List Char} (hcut : CutTo text inner)
    (h : AreRead levels inner items rest) :
    IsRead (levels + 1) text (.arr items) rest := by
  refine ⟨.arr h.bounded, fun hplain => ?_, fun hplain => h.plain (hplain.of_cutTo hcut)⟩
  rw [Json.reread, rereadItems_eq_map]
  have hitems := List.map_congr_left (h.reread (hplain.of_cutTo hcut))
  exact congrArg Json.arr (hitems.trans (List.map_id _))

theorem IsRead.areRead (h : IsRead levels text item left) (hcut : CutTo left rest) :
    AreRead levels text [item] rest :=
  ⟨by simpa using h.bounded, by simpa using h.reread, fun hplain => (h.plain hplain).of_cutTo hcut⟩

theorem IsRead.cons (h : IsRead levels text item left) (hcut : CutTo left tail)
    (hitems : AreRead levels tail items rest) :
    AreRead levels text (item :: items) rest := by
  have htail (hplain : Plain text) : Plain tail := (h.plain hplain).of_cutTo hcut
  refine ⟨List.forall_mem_cons.mpr ⟨h.bounded, hitems.bounded⟩, fun hplain => ?_, fun hplain => ?_⟩
  · exact List.forall_mem_cons.mpr ⟨h.reread hplain, hitems.reread (htail hplain)⟩
  · exact hitems.plain (htail hplain)

/-- Members that were read from a text that is plain under some condition. -/
structure Members (levels : Nat) (plain : Prop) (fields : List (String × Json)) : Prop where
  bounded : ∀ field ∈ fields, Bounded levels field.2
  nodup : (fields.map Prod.fst).Nodup
  reread : plain → ∀ field ∈ fields, Text.reread field.1 = field.1 ∧ field.2.reread = field.2

theorem Members.nil (levels : Nat) (plain : Prop) : Members levels plain [] :=
  ⟨by simp, List.nodup_nil, by simp⟩

theorem Members.set {plain : Prop} {key : String} (h : Members levels plain fields)
    (hvalue : Bounded levels value)
    (hreread : plain → Text.reread key = key ∧ value.reread = value) :
    Members levels plain (Fields.set key value fields) := by
  refine ⟨fun field hfield => ?_, Fields.nodup_set h.nodup, fun hplain field hfield => ?_⟩
  · rcases Fields.mem_of_mem_set hfield with rfl | hfield
    · exact hvalue
    · exact h.bounded field hfield
  · rcases Fields.mem_of_mem_set hfield with rfl | hfield
    · exact hreread hplain
    · exact h.reread hplain field hfield

theorem rereadFields_eq_self
    (h : ∀ field ∈ fields, Text.reread field.1 = field.1 ∧ field.2.reread = field.2) :
    rereadFields fields = fields := by
  rw [rereadFields_eq_map]
  refine (List.map_congr_left fun field hfield => ?_).trans (List.map_id _)
  obtain ⟨hkey, hvalue⟩ := h field hfield
  rw [hkey, hvalue]
  rfl

theorem Members.isRead (h : Members levels (Plain text) fields) (hplain : Plain text → Plain rest) :
    IsRead (levels + 1) text (.obj fields) rest := by
  refine ⟨.obj h.bounded h.nodup, fun htext => ?_, hplain⟩
  rw [Json.reread, rereadFields_eq_self (h.reread htext)]

theorem Members.field {plain : Prop} {quoted keyLeft : List Char} {before : List (String × Json)}
    {key : String} (h : Members levels plain before) (hplain : plain → Plain text)
    (hquote : Starts text '"' quoted) (hkey : Spells quoted key.toList keyLeft)
    (hcolon : Starts keyLeft ':' start) (hvalue : IsRead levels start value left) :
    Members levels plain (Fields.set key value before) ∧ (plain → Plain left) := by
  have hname (hyes : plain) : Text.reread key = key ∧ Plain start := by
    obtain ⟨codes, hcodes⟩ := hkey.readsPlain ((hplain hyes).of_cutTo (hquote.cutTo (by decide)))
    have hreread := hcodes.holds.reread
    rw [String.ofList_toList] at hreread
    exact ⟨hreread, hcodes.plain.of_cutTo (hcolon.cutTo (by decide))⟩
  refine ⟨h.set hvalue.bounded fun hyes => ?_, fun hyes => hvalue.plain (hname hyes).2⟩
  exact ⟨(hname hyes).1, hvalue.reread (hname hyes).2⟩

def Part.IsRead (levels : Nat) : Part → List Char → List Char → Prop
  | .value found, text, rest => Json.IsRead levels text found rest
  | .items found, text, rest => AreRead levels text found rest
  | .fields before found, text, rest => ∀ plain : Prop, Members levels plain before →
    (plain → Plain text) → Members levels plain found ∧ (plain → Plain rest)

theorem Derives.isRead {part : Part} (h : Derives levels part text rest) :
    part.IsRead levels text rest := by
  induction h with
  | scalar hstarts _ _ hscalar => exact (hscalar.isRead _).behind hstarts.cutTo_front
  | emptyArr hopen hclose =>
    have hcut := (hopen.cutTo (by decide)).trans (hclose.cutTo (by decide))
    exact ⟨.arr (by simp), fun _ => rfl, fun hplain => hplain.of_cutTo hcut⟩
  | arr hopen _ _ _ ih => exact AreRead.isRead (hopen.cutTo (by decide)) ih
  | emptyObj hopen hclose =>
    have hcut := (hopen.cutTo (by decide)).trans (hclose.cutTo (by decide))
    exact ⟨.obj (by simp) List.nodup_nil, fun _ => rfl, fun hplain => hplain.of_cutTo hcut⟩
  | obj hopen _ _ ih =>
    obtain ⟨hmembers, hplain⟩ := ih _ (Members.nil _ _) fun hplain =>
      Plain.of_cutTo hplain (hopen.cutTo (by decide))
    exact hmembers.isRead hplain
  | lastItem _ hclose ih => exact IsRead.areRead ih (hclose.cutTo (by decide))
  | nextItem _ hcomma _ ihvalue ihitems => exact IsRead.cons ihvalue (hcomma.cutTo (by decide)) ihitems
  | lastField hquote hkey hcolon _ hclose ih =>
    intro plain hbefore hplain
    obtain ⟨hset, hleft⟩ := hbefore.field hplain hquote hkey hcolon ih
    exact ⟨hset, fun hyes => (hleft hyes).of_cutTo (hclose.cutTo (by decide))⟩
  | nextField hquote hkey hcolon _ hcomma _ ihvalue ihfields =>
    intro plain hbefore hplain
    obtain ⟨hset, hleft⟩ := hbefore.field hplain hquote hkey hcolon ihvalue
    exact ihfields plain hset fun hyes => (hleft hyes).of_cutTo (hcomma.cutTo (by decide))

/-! ## Documents -/

/-- Documents of at most so many levels that are read back just as they are. -/
structure Kept (levels : Nat) (value : Json) : Prop where
  bounded : Bounded levels value
  reread : value.reread = value

theorem kept_of_isStorable (h : isStorable levels value = true) (hreread : value.reread = value) :
    Kept levels value :=
  ⟨(storable_of_isStorable levels h).bounded, hreread⟩

theorem kept_arr_iff : Kept (levels + 1) (.arr items) ↔ ∀ item ∈ items, Kept levels item := by
  constructor
  · rintro ⟨hbounded, hreread⟩ item hitem
    cases hbounded with
    | arr hitems =>
      rw [Json.reread, rereadItems_eq_map] at hreread
      have hsame := List.map_inj_left.mp ((Json.arr.inj hreread).trans (List.map_id _).symm)
      exact ⟨hitems item hitem, hsame item hitem⟩
  · intro hitems
    have hread : AreRead levels [] items [] :=
      ⟨fun item hitem => (hitems item hitem).bounded, fun _ item hitem => (hitems item hitem).reread, id⟩
    have hwhole := hread.isRead (CutTo.refl _)
    exact ⟨hwhole.bounded, hwhole.reread .nil⟩

theorem kept_obj_iff :
    Kept (levels + 1) (.obj fields) ↔ (fields.map Prod.fst).Nodup ∧
      ∀ field ∈ fields, Text.reread field.1 = field.1 ∧ Kept levels field.2 := by
  constructor
  · rintro ⟨hbounded, hreread⟩
    cases hbounded with
    | obj hfields hkeys =>
      rw [Json.reread, rereadFields_eq_map] at hreread
      have hsame := List.map_inj_left.mp ((Json.obj.inj hreread).trans (List.map_id _).symm)
      refine ⟨hkeys, fun field hfield => ?_⟩
      obtain ⟨hkey, hvalue⟩ := Prod.mk.inj (hsame field hfield)
      exact ⟨hkey, hfields field hfield, hvalue⟩
  · rintro ⟨hkeys, hfields⟩
    refine ⟨.obj (fun field hfield => (hfields field hfield).2.bounded) hkeys, ?_⟩
    rw [Json.reread, rereadFields_eq_self fun field hfield =>
      ⟨(hfields field hfield).1, (hfields field hfield).2.reread⟩]

theorem Kept.storable (h : Kept levels value) : Storable levels value := by
  obtain ⟨hbounded, hreread⟩ := h
  induction hbounded with
  | null => exact .null
  | bool value => exact .bool value
  | int hvalue => exact .int hvalue
  | float hvalue => exact .float hvalue
  | str text => exact .str text
  | @arr levels items hitems ih =>
    have hkept := kept_arr_iff.mp ⟨.arr hitems, hreread⟩
    exact .arr fun item hitem => ih item hitem (hkept item hitem).reread
  | @obj levels fields hfields hkeys ih =>
    have hkept := (kept_obj_iff.mp ⟨.obj hfields hkeys, hreread⟩).2
    refine .obj (fun field hfield => ih field hfield (hkept field hfield).2.reread) ?_
    rwa [Json.obj.inj hreread]

theorem Kept.parse_pretty (h : Kept maxDepth value) : parse value.pretty = .ok value := by
  rw [Json.parse_pretty h.storable, h.reread]

theorem bounded_of_parse {text : String} (h : parse text = .ok value) : Bounded maxDepth value := by
  obtain ⟨rest, hread, -⟩ := derives_of_parse h
  exact hread.isRead.bounded

/-- A document that was read from a plain text is read back just as it is. -/
theorem kept_of_parse {text : String} (hplain : Plain text.toList) (h : parse text = .ok value) :
    Kept maxDepth value := by
  obtain ⟨rest, hread, -⟩ := derives_of_parse h
  exact ⟨hread.isRead.bounded, hread.isRead.reread hplain⟩

end Json

end Sitecheck
