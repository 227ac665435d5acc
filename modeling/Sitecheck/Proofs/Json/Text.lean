import Sitecheck.Json.Reader
import Sitecheck.Json.Writer
import Sitecheck.Proofs.Text

/-!
# Texts written and read back

A text is written code point by code point.  Read back, it has the same code
points, except that two halves which follow each other become the one character
that they are halves of (`joined`).
-/

namespace Sitecheck

namespace Text

def isHigh (unit : Nat) : Bool := 0xd800 ≤ unit && unit ≤ 0xdbff

def isLow (unit : Nat) : Bool := 0xdc00 ≤ unit && unit ≤ 0xdfff

def pair (high low : Nat) : Nat := 0x10000 + (high - 0xd800) * 0x400 + (low - 0xdc00)

theorem le_pair (high low : Nat) : 0x10000 ≤ pair high low := by
  unfold pair
  omega

/-- Code points with halves that follow each other put together. -/
def joined : List Nat → List Nat
  | [] => []
  | [code] => [code]
  | first :: second :: rest =>
    if isHigh first && isLow second then pair first second :: joined rest
    else first :: joined (second :: rest)

/-- A text as it is when it has been written and read back. -/
def reread (text : String) : String := String.ofList ((joined (codes text)).flatMap charsOf)

end Text

namespace Json

variable {unit : Nat} {rest point text chars : List Char}

open Text

/-! ## Units -/

theorem hexValue?_digitChar {digit : Nat} (h : digit < 16) :
    hexValue? digit.digitChar = some digit := by
  have hall : ∀ digit < 16, hexValue? (Nat.digitChar digit) = some digit := by decide
  exact hall digit h

theorem hexDigits_succ (width n : Nat) :
    hexDigits (width + 2) n = hexDigits (width + 1) (n / 16) ++ [(n % 16).digitChar] := by
  unfold hexDigits NumberFormat.pad
  by_cases h : n < 16
  · have hzero : n / 16 = 0 := by omega
    have hmod : n % 16 = n := by omega
    rw [Nat.toDigits_of_lt_base h, hzero, hmod, Nat.toDigits_zero]
    simp [List.replicate_succ']
  · have hlength : width + 2 - ((Nat.toDigits 16 (n / 16)).length + 1) =
        width + 1 - (Nat.toDigits 16 (n / 16)).length := by omega
    rw [Nat.toDigits_of_base_le (by decide) (by omega : 16 ≤ n), List.length_append,
      List.length_singleton, hlength, List.append_assoc]

theorem hexDigits_four (h : unit < 0x10000) :
    hexDigits 4 unit =
      [(unit / 16 / 16 / 16).digitChar, (unit / 16 / 16 % 16).digitChar, (unit / 16 % 16).digitChar,
        (unit % 16).digitChar] := by
  have hone : hexDigits 1 (unit / 16 / 16 / 16) = [(unit / 16 / 16 / 16).digitChar] := by
    rw [hexDigits, Nat.toDigits_of_lt_base (by omega)]
    rfl
  rw [hexDigits_succ, hexDigits_succ, hexDigits_succ, hone]
  rfl

theorem unit?_hexDigits (h : unit < 0x10000) (rest : List Char) :
    unit? (hexDigits 4 unit ++ rest) = some (unit, rest) := by
  have hvalue : (((unit / 16 / 16 / 16 * 16 + unit / 16 / 16 % 16) * 16 + unit / 16 % 16) * 16 +
      unit % 16) = unit := by omega
  rw [hexDigits_four h]
  simp only [List.cons_append, List.nil_append, unit?, Option.bind_eq_bind,
    hexValue?_digitChar (show unit / 16 / 16 / 16 < 16 by omega),
    hexValue?_digitChar (show unit / 16 / 16 % 16 < 16 by omega),
    hexValue?_digitChar (show unit / 16 % 16 < 16 by omega),
    hexValue?_digitChar (show unit % 16 < 16 by omega), Option.bind_some, hvalue]

/-- A text that begins with the second half of a pair, written as an escape. -/
def BeginsLow (text : List Char) : Prop :=
  ∃ more low rest, text = '\\' :: 'u' :: more ∧ unit? more = some (low, rest) ∧ isLow low = true

theorem escape?_unit (h : unit < 0x10000) (hrest : isHigh unit = true → ¬ BeginsLow rest) :
    escape? ('u' :: (hexDigits 4 unit ++ rest)) = some (charsOf unit, rest) := by
  simp only [escape?, unit?_hexDigits h]
  split
  · next hhigh =>
    have hnot := hrest hhigh
    split
    · next more =>
      split
      · next low tail hlow =>
        exact if_neg fun hrange => hnot ⟨more, low, tail, rfl, hlow, hrange⟩
      · rfl
    · rfl
  · rfl

theorem escape?_pair {high low : Nat} (hhigh : isHigh high = true) (hlow : isLow low = true)
    (rest : List Char) :
    escape? ('u' :: (hexDigits 4 high ++ '\\' :: 'u' :: (hexDigits 4 low ++ rest))) =
      some (charsOf (pair high low), rest) := by
  have hhigh' : high < 0x10000 := by
    simp only [isHigh, Bool.and_eq_true, decide_eq_true_eq] at hhigh
    omega
  have hlow' : low < 0x10000 := by
    simp only [isLow, Bool.and_eq_true, decide_eq_true_eq] at hlow
    omega
  have hsecond := unit?_hexDigits hlow' rest
  rw [escape?, unit?_hexDigits hhigh']
  refine (if_pos hhigh).trans ?_
  simp only [hsecond]
  exact if_pos hlow

/-! ## Texts -/

def ReadsText (text chars rest : List Char) : Prop :=
  ∃ h, readString text = some (chars, ⟨rest, h⟩)

theorem readsText_quote (rest : List Char) : ReadsText ('"' :: rest) [] rest := by
  refine ⟨Nat.lt_succ_self _, ?_⟩
  rw [readString]

theorem ReadsText.escape {escaped : List Char} (hescape : escape? escaped = some (point, text))
    (h : ReadsText text chars rest) :
    ReadsText ('\\' :: escaped) (point ++ chars) rest := by
  obtain ⟨hlength, hread⟩ := h
  refine ⟨?_, ?_⟩
  · have hshorter := escape?_length hescape
    simp only [List.length_cons]
    omega
  · rw [readString]
    split
    · next hnone => simp [hescape] at hnone
    · next point' tail hsome =>
      rw [hescape] at hsome
      cases hsome
      simp only [hread]
      rfl

theorem ReadsText.plain {c : Char} (hquote : c ≠ '"') (hslash : c ≠ '\\') (hblank : ¬ c < ' ')
    (h : ReadsText text chars rest) :
    ReadsText (c :: text) (c :: chars) rest := by
  obtain ⟨hlength, hread⟩ := h
  refine ⟨?_, ?_⟩
  · simp only [List.length_cons]
    omega
  · rw [readString.eq_4 _ _ hquote hslash, if_neg hblank]
    simp only [hread]
    rfl

/-! ## Code points -/

def escapeCode (code : Nat) : List Char :=
  if code < 0x7f then escapeChar (Char.ofNat code) else (units code).flatMap escapeUnit

/-- The ways in which a code point is written. -/
inductive Escape (code : Nat) : List Char → Prop where
  | plain {c : Char} :
    charsOf code = [c] → c ≠ '"' → c ≠ '\\' → ' ' ≤ c → c ≤ '~' → Escape code [c]
  | short {name c : Char} :
    charsOf code = [c] → name ≠ 'u' → shortEscape? name = some c → Escape code ['\\', name]
  | unit : code < 0x10000 → Escape code (escapeUnit code)
  | pair {high low : Nat} :
    isHigh high = true → isLow low = true → Text.pair high low = code →
      Escape code (escapeUnit high ++ escapeUnit low)

theorem charsOf_ascii {code : Nat} (h : code < 0x7f) : charsOf code = [Char.ofNat code] := by
  have hhalf : isHalf code = false := by
    simp only [isHalf, Bool.and_eq_false_iff, decide_eq_false_iff_not]
    omega
  have hmark : code ≠ mark.toNat := by
    have : mark.toNat = 0x10ffff := by decide
    omega
  simp [charsOf, hhalf, hmark]

theorem escape_units {code : Nat} (h : code < 0x110000) :
    Escape code ((units code).flatMap escapeUnit) := by
  unfold units
  by_cases hsmall : code < 0x10000
  · simpa [hsmall] using Escape.unit hsmall
  · have hhigh : isHigh (0xd800 + (code - 0x10000) / 0x400) = true := by
      simp only [isHigh, Bool.and_eq_true, decide_eq_true_eq]
      omega
    have hlow : isLow (0xdc00 + (code - 0x10000) % 0x400) = true := by
      simp only [isLow, Bool.and_eq_true, decide_eq_true_eq]
      omega
    have hpair : Text.pair (0xd800 + (code - 0x10000) / 0x400) (0xdc00 + (code - 0x10000) % 0x400) =
        code := by
      unfold Text.pair
      omega
    simpa [hsmall] using Escape.pair hhigh hlow hpair

theorem escape_escapeCode {code : Nat} (h : code < 0x110000) : Escape code (escapeCode code) := by
  unfold escapeCode
  by_cases hascii : code < 0x7f
  · have hchars := charsOf_ascii hascii
    have hvalid : code.isValidChar := Or.inl (by omega)
    have hnat : (Char.ofNat code).toNat = code := by
      rw [Char.ofNat, dif_pos hvalid]
      rfl
    rw [if_pos hascii]
    unfold escapeChar
    split_ifs with hquote hslash hline hreturn htab hfeed hback hplain
    · exact Escape.short (hquote ▸ hchars) (by decide) rfl
    · exact Escape.short (hslash ▸ hchars) (by decide) rfl
    · exact Escape.short (hline ▸ hchars) (by decide) rfl
    · exact Escape.short (hreturn ▸ hchars) (by decide) rfl
    · exact Escape.short (htab ▸ hchars) (by decide) rfl
    · exact Escape.short (hfeed ▸ hchars) (by decide) rfl
    · exact Escape.short (hback ▸ hchars) (by decide) rfl
    · simp only [Bool.and_eq_true, decide_eq_true_eq] at hplain
      exact Escape.plain hchars hquote hslash hplain.1 hplain.2
    · rw [hnat]
      exact escape_units h
  · rw [if_neg hascii]
    exact escape_units h

theorem escapeCode_half {code : Nat} (h : isHalf code = true) : escapeCode code = escapeUnit code := by
  simp only [isHalf, Bool.and_eq_true, decide_eq_true_eq] at h
  have hascii : ¬ code < 0x7f := by omega
  have hsmall : code < 0x10000 := by omega
  simp [escapeCode, hascii, units, hsmall]

/-- Only the second half of a pair is written so that a half before it is read with it. -/
theorem Escape.isLow {code : Nat} (he : Escape code chars) (h : BeginsLow (chars ++ text)) :
    Text.isLow code = true := by
  obtain ⟨more, low, rest, htext, hunit, hlow⟩ := h
  cases he with
  | plain _ _ hslash =>
    simp only [List.singleton_append, List.cons.injEq] at htext
    exact absurd htext.1 hslash
  | short _ hname =>
    simp only [List.cons_append, List.nil_append, List.cons.injEq] at htext
    exact absurd htext.2.1 hname
  | unit hsmall =>
    simp only [escapeUnit, List.cons_append, List.cons.injEq, true_and] at htext
    rw [← htext, unit?_hexDigits hsmall] at hunit
    cases hunit
    exact hlow
  | pair hhigh =>
    simp only [escapeUnit, List.cons_append, List.append_assoc, List.cons.injEq, true_and] at htext
    simp only [isHigh, Bool.and_eq_true, decide_eq_true_eq] at hhigh
    rw [← htext, unit?_hexDigits (by omega)] at hunit
    cases hunit
    simp only [Text.isLow, Bool.and_eq_true, decide_eq_true_eq] at hlow
    omega

theorem Escape.readsText {code : Nat} {out : List Char} (he : Escape code chars)
    (hnext : isHigh code = true → ¬ BeginsLow text) (h : ReadsText text out rest) :
    ReadsText (chars ++ text) (charsOf code ++ out) rest := by
  cases he with
  | plain hchars hquote hslash hblank =>
    rw [hchars]
    exact h.plain hquote hslash (Char.not_lt.mpr hblank)
  | @short name c hchars hname hshort =>
    have hescape : escape? (name :: text) = some ([c], text) := by
      rw [escape?.eq_2 _ _ hname, hshort]
      rfl
    rw [hchars]
    exact h.escape hescape
  | unit hsmall =>
    exact h.escape (escape?_unit hsmall hnext)
  | pair hhigh hlow hpair =>
    have hescape := escape?_pair hhigh hlow text
    rw [hpair] at hescape
    simpa [escapeUnit] using h.escape hescape

theorem readsText_escapes {codes : List Nat} (hcodes : ∀ code ∈ codes, code < 0x110000)
    (rest : List Char) :
    ReadsText (codes.flatMap escapeCode ++ '"' :: rest) ((joined codes).flatMap charsOf) rest := by
  fun_induction joined codes with
  | case1 => exact readsText_quote rest
  | case2 code =>
    have hcode := escape_escapeCode (hcodes code (by simp))
    have hquote : ¬ BeginsLow ('"' :: rest) := by
      rintro ⟨more, low, tail, htext, -⟩
      simp at htext
    simpa using hcode.readsText (fun _ => hquote) (readsText_quote rest)
  | case3 first second codes h ih =>
    obtain ⟨hhigh, hlow⟩ := Bool.and_eq_true_iff.mp h
    have hfirst : escapeCode first = escapeUnit first := by
      simp only [isHigh, Bool.and_eq_true, decide_eq_true_eq] at hhigh
      refine escapeCode_half ?_
      simp only [isHalf, Bool.and_eq_true, decide_eq_true_eq]
      omega
    have hsecond : escapeCode second = escapeUnit second := by
      simp only [Text.isLow, Bool.and_eq_true, decide_eq_true_eq] at hlow
      refine escapeCode_half ?_
      simp only [isHalf, Bool.and_eq_true, decide_eq_true_eq]
      omega
    have hpair : Escape (Text.pair first second) (escapeUnit first ++ escapeUnit second) :=
      Escape.pair hhigh hlow rfl
    have htail := ih fun code hmem => hcodes code (by simp [hmem])
    have hnext : isHigh (Text.pair first second) = true →
        ¬ BeginsLow (codes.flatMap escapeCode ++ '"' :: rest) := by
      intro hno
      have hlarge := le_pair first second
      simp only [isHigh, Bool.and_eq_true, decide_eq_true_eq] at hno
      omega
    simpa [hfirst, hsecond] using hpair.readsText hnext htail
  | case4 first second codes h ih =>
    have hfirst := escape_escapeCode (hcodes first (by simp))
    have hsecond := escape_escapeCode (hcodes second (by simp))
    have htail := ih fun code hmem => hcodes code (List.mem_cons_of_mem _ hmem)
    have hnext : isHigh first = true →
        ¬ BeginsLow ((second :: codes).flatMap escapeCode ++ '"' :: rest) := by
      intro hhigh hbegins
      rw [List.flatMap_cons, List.append_assoc] at hbegins
      exact h (Bool.and_eq_true_iff.mpr ⟨hhigh, hsecond.isLow hbegins⟩)
    simpa using hfirst.readsText hnext htail

/-! ## Quoted texts -/

theorem code_lt (point : List Char) : code point < 0x110000 := by
  have hchar : ∀ c : Char, c.toNat < 0x110000 := by
    intro c
    have hvalid : c.toNat < 0xd800 ∨ 0xdfff < c.toNat ∧ c.toNat < 0x110000 := c.valid
    omega
  unfold code
  split
  · next d =>
    unfold half?
    split
    · simp only [Option.getD_some]
      have := hchar d
      omega
    · exact hchar d
  · exact hchar _
  · decide

theorem escapePoint_singleton (c : Char) : escapePoint [c] = escapeCode c.toNat := by
  unfold escapePoint escapeCode
  by_cases hascii : c.toNat < 0x7f
  · rw [if_pos hascii, Char.ofNat_toNat]
  · have hne : ∀ d : Char, d.toNat < 0x7f → c ≠ d := by
      rintro d hd rfl
      exact hascii hd
    have hplain : (decide (' ' ≤ c) && decide (c ≤ '~')) = false := by
      have hbound : ¬ c ≤ '~' := fun hle => hascii (Nat.lt_succ_of_le hle)
      simp [hbound]
    rw [if_neg hascii]
    simp only [escapeChar, hplain, hne '"' (by decide), hne '\\' (by decide), hne '\n' (by decide),
      hne '\r' (by decide), hne '\t' (by decide), hne '\x0c' (by decide), hne '\x08' (by decide),
      if_false, Bool.false_eq_true]

theorem escapePoint_marked {d : Char} (h : isMarked d = true) :
    escapePoint [mark, d] = escapeCode (code [mark, d]) := by
  have hlarge : ¬ code [mark, d] < 0x7f := by
    have hmark : mark.toNat = 0x10ffff := by decide
    simp only [code, half?]
    split_ifs with hhalf
    · simp only [Bool.and_eq_true, decide_eq_true_eq] at hhalf
      rw [Option.getD_some]
      omega
    · simp only [isMarked, half?, hhalf, Bool.or_eq_true, decide_eq_true_eq] at h
      have hd : d = mark := by simpa using h
      rw [Option.getD_none, hd]
      omega
  rw [escapeCode, if_neg hlarge, escapePoint]
  simp

theorem mem_points_cases (h : point ∈ points text) :
    (∃ c, point = [c]) ∨ ∃ d, isMarked d = true ∧ point = [mark, d] := by
  fun_induction points text with
  | case1 => simp at h
  | case2 c => exact Or.inl ⟨c, List.mem_singleton.mp h⟩
  | case3 c d rest hmarked ih =>
    obtain ⟨hc, hd⟩ := Bool.and_eq_true_iff.mp hmarked
    rcases List.mem_cons.mp h with hpoint | h
    · exact Or.inr ⟨d, hd, by rw [hpoint, of_decide_eq_true hc]⟩
    · exact ih h
  | case4 c d rest _ ih =>
    rcases List.mem_cons.mp h with hpoint | h
    · exact Or.inl ⟨c, hpoint⟩
    · exact ih h

theorem escapePoint_eq_escapeCode (h : point ∈ points text) :
    escapePoint point = escapeCode (code point) := by
  obtain ⟨c, rfl⟩ | ⟨d, hd, rfl⟩ := mem_points_cases h
  · exact escapePoint_singleton c
  · exact escapePoint_marked hd

theorem readsText_quoted (text : String) (rest : List Char) :
    ∃ chars, quote text rest = '"' :: chars ∧ ReadsText chars (reread text).toList rest := by
  have hquote : (points text.toList).flatMap escapePoint = (codes text).flatMap escapeCode := by
    rw [codes, List.flatMap_map]
    exact List.flatMap_congr fun point hpoint => escapePoint_eq_escapeCode hpoint
  have hcodes : ∀ code ∈ codes text, code < 0x110000 := by
    intro code hcode
    obtain ⟨point, -, rfl⟩ := List.mem_map.mp hcode
    exact code_lt point
  refine ⟨_, by rw [quote, hquote], ?_⟩
  rw [reread, String.toList_ofList]
  exact readsText_escapes hcodes rest

end Json

namespace Text

variable {text : String}

/-! ## Texts that are kept -/

theorem points_eq_map {text : List Char} (h : mark ∉ text) : points text = text.map fun c => [c] := by
  fun_induction points text with
  | case1 | case2 => rfl
  | case3 c d rest hmarked =>
    have hc : c = mark := of_decide_eq_true (Bool.and_eq_true_iff.mp hmarked).1
    exact absurd (hc ▸ List.mem_cons_self) h
  | case4 c d rest _ ih =>
    rw [ih fun hmem => h (List.mem_cons_of_mem c hmem)]
    rfl

theorem not_half_toNat (c : Char) : isHalf c.toNat = false := by
  have hvalid : c.toNat < 0xd800 ∨ 0xdfff < c.toNat ∧ c.toNat < 0x110000 := c.valid
  simp only [isHalf, Bool.and_eq_false_iff, decide_eq_false_iff_not]
  omega

theorem joined_of_not_half {codes : List Nat} (h : ∀ code ∈ codes, isHalf code = false) :
    joined codes = codes := by
  fun_induction joined codes with
  | case1 | case2 => rfl
  | case3 first second rest hpair =>
    have hfirst := h first List.mem_cons_self
    simp only [isHalf, isHigh, isLow, Bool.and_eq_true, Bool.and_eq_false_iff, decide_eq_true_eq,
      decide_eq_false_iff_not] at hfirst hpair
    omega
  | case4 first second rest _ ih => rw [ih fun code hcode => h code (List.mem_cons_of_mem _ hcode)]

theorem isScalar_of_not_mem (h : mark ∉ text.toList) : isScalar text = true := by
  rw [isScalar, points_eq_map h, List.all_map]
  simp [halfOf?]

theorem reread_of_not_mem (h : mark ∉ text.toList) : reread text = text := by
  have hcodes : codes text = text.toList.map Char.toNat := by
    rw [codes, points_eq_map h, List.map_map]
    rfl
  have hjoined : joined (codes text) = codes text := by
    refine joined_of_not_half fun code hcode => ?_
    rw [hcodes] at hcode
    obtain ⟨c, -, rfl⟩ := List.mem_map.mp hcode
    exact not_half_toNat c
  have hchars : (text.toList.map Char.toNat).flatMap charsOf = text.toList := by
    rw [List.flatMap_map]
    refine (List.flatMap_congr fun c hc => ?_).trans (List.flatMap_singleton' _)
    have hmark : c.toNat ≠ mark.toNat := fun heq => h (Char.toNat_inj.mp heq ▸ hc)
    simp [charsOf, not_half_toNat, hmark]
  rw [reread, hjoined, hcodes, hchars, String.ofList_toList]

end Text

end Sitecheck
