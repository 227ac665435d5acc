import Mathlib.Data.List.TakeWhile
import Sitecheck.Json.Reader
import Sitecheck.Json.Writer

/-!
# Literals of a script

How a script reads a literal in single quotes: as UTF-16 units, by the rules for
strict code, in which a backslash before a digit is refused.  Writing a backslash
before each quote and each backslash is the tightest way to have a text read back
(`tight_or_loose`), so whatever leaves no room to spare is read back exactly if it
is written like that (`literal?_eq_some_iff_escaped`).
-/

namespace Sitecheck.Spec.Script

variable {c : Char} {text rest : List Char} {units : List Nat}

/-! ## Characters -/

def isLineEnd (c : Char) : Bool := c = '\n' || c = '\r' || c = '\u2028' || c = '\u2029'

/-- The line ends that a literal cannot hold as they are. -/
def isBreak (c : Char) : Bool := c = '\n' || c = '\r'

def charUnits (c : Char) : List Nat := Json.units c.toNat

def textUnits (text : List Char) : List Nat := text.flatMap charUnits

@[simp] theorem textUnits_nil : textUnits [] = [] := rfl

@[simp] theorem textUnits_cons (c : Char) (text : List Char) :
    textUnits (c :: text) = charUnits c ++ textUnits text := rfl

@[simp] theorem textUnits_append (front text : List Char) :
    textUnits (front ++ text) = textUnits front ++ textUnits text := by
  simp [textUnits]

theorem charUnits_pos (c : Char) : 0 < (charUnits c).length := by
  simp only [charUnits, Json.units]
  split <;> simp

theorem length_le_textUnits (text : List Char) : text.length ≤ (textUnits text).length := by
  induction text with
  | nil => simp
  | cons c =>
    have := charUnits_pos c
    simp only [List.length_cons, textUnits_cons, List.length_append]
    omega

private theorem toNat_range (c : Char) :
    c.toNat < 0xd800 ∨ 0xdfff < c.toNat ∧ c.toNat < 0x110000 := c.valid

theorem charUnits_append_inj {d : Char} {front back : List Nat}
    (h : charUnits c ++ front = charUnits d ++ back) : c = d ∧ front = back := by
  have hc := toNat_range c
  have hd := toNat_range d
  simp only [charUnits, Json.units] at h
  -- a unit of a pair lies where no character does, so both are pairs or neither is
  split at h <;> split at h <;> simp only [List.cons_append, List.nil_append, List.cons.injEq] at h
  · exact ⟨Char.toNat_inj.mp h.1, h.2⟩
  · omega
  · omega
  · refine ⟨Char.toNat_inj.mp ?_, h.2.2⟩
    omega

theorem textUnits_injective {first second : List Char} (h : textUnits first = textUnits second) :
    first = second := by
  induction first generalizing second with
  | nil =>
    cases second with
    | nil => rfl
    | cons d =>
      have hpos := charUnits_pos d
      have hlength := congrArg List.length h
      simp only [textUnits_cons, textUnits_nil, List.length_append, List.length_nil] at hlength
      omega
  | cons c first ih =>
    cases second with
    | nil =>
      have hpos := charUnits_pos c
      have hlength := congrArg List.length h
      simp only [textUnits_cons, textUnits_nil, List.length_append, List.length_nil] at hlength
      omega
    | cons =>
      obtain ⟨rfl, hrest⟩ := charUnits_append_inj h
      rw [ih hrest]

/-! ## Literals -/

def braced? (text : List Char) : Option (Nat × List Char) :=
  let digits := text.takeWhile fun c => (Json.hexValue? c).isSome
  let code := digits.foldl (fun code c => code * 16 + (Json.hexValue? c).getD 0) 0
  match text.dropWhile fun c => (Json.hexValue? c).isSome with
  | '\x7d' :: rest => if digits ≠ [] ∧ code ≤ 0x10ffff then some (code, rest) else none
  | _ => none

/-- The code point that a letter after a backslash stands for. -/
def control (c : Char) : Nat :=
  match c with
  | 'b' => 8
  | 't' => 9
  | 'n' => 10
  | 'v' => 11
  | 'f' => 12
  | 'r' => 13
  | c => c.toNat

/-- The units that are written after a backslash. -/
def escape? : List Char → Option (List Nat × List Char)
  | [] => none
  | c :: rest =>
    if c = 'x' then
      match rest with
      | a :: b :: rest => do
        let a ← Json.hexValue? a
        let b ← Json.hexValue? b
        some ([a * 16 + b], rest)
      | _ => none
    else if c = 'u' then
      match rest with
      | '\x7b' :: rest => (braced? rest).map fun (code, rest) => (Json.units code, rest)
      | rest => (Json.unit? rest).map fun (unit, rest) => ([unit], rest)
    else if c = '\r' then
      match rest with
      | '\n' :: rest => some ([], rest)
      | rest => some ([], rest)
    else if isLineEnd c then some ([], rest)
    else if c = '0' then
      match rest with
      | d :: _ => if d.isDigit then none else some ([0], rest)
      | [] => some ([0], rest)
    else if c.isDigit then none
    else some (Json.units (control c), rest)

theorem quote_not_mem_of_hexValue? (h : ∀ c ∈ text, (Json.hexValue? c).isSome = true) :
    '\'' ∉ text := fun hmem => absurd (h _ hmem) (by decide)

theorem eq_append_of_braced? {code : Nat} (h : braced? text = some (code, rest)) :
    ∃ digits, text = digits ++ '\x7d' :: rest ∧ digits ≠ [] ∧ '\'' ∉ digits := by
  unfold braced? at h
  dsimp only at h
  split at h
  · next rest' hrest =>
    split at h
    · next hcode =>
      cases h
      refine ⟨text.takeWhile fun c => (Json.hexValue? c).isSome, ?_, hcode.1, ?_⟩
      · rw [← hrest, List.takeWhile_append_dropWhile]
      · exact quote_not_mem_of_hexValue? fun c hc =>
          List.mem_takeWhile_imp (l := text) hc
    · cases h
  · cases h

theorem eq_append_of_unit? {unit : Nat} (h : Json.unit? text = some (unit, rest)) :
    ∃ digits, text = digits ++ rest ∧ digits.length = 4 ∧ '\'' ∉ digits := by
  unfold Json.unit? at h
  split at h
  · next a b c d rest' =>
    simp only [bind, Option.bind_eq_some_iff, Option.some.injEq, Prod.mk.injEq] at h
    obtain ⟨_, ha, _, hb, _, hc, _, hd, -, rfl⟩ := h
    exact ⟨[a, b, c, d], rfl, rfl, quote_not_mem_of_hexValue? (by simp [ha, hb, hc, hd])⟩
  · cases h

def marks (text : List Char) : Nat :=
  text.countP fun c => c = '\'' || c = '\\' || isBreak c

@[simp] theorem marks_append (front text : List Char) :
    marks (front ++ text) = marks front + marks text := by
  simp [marks]

theorem marks_le_length (text : List Char) : marks text ≤ text.length := List.countP_le_length

theorem length_units_le (code : Nat) : (Json.units code).length ≤ 2 := by
  unfold Json.units
  split <;> simp

private theorem loose_of_length {used : List Char} (h : 2 * units.length ≤ used.length) :
    2 * units.length + marks used ≤ 2 * (textUnits used).length := by
  have hmarks := marks_le_length used
  have hunits := length_le_textUnits used
  omega

private theorem units_control (c : Char) :
    Json.units (control c) = charUnits c ∨ (Json.units (control c)).length = 1 := by
  unfold control
  split
  case h_7 => exact Or.inl rfl
  all_goals exact Or.inr rfl

/-- An escape is that of a quote or a backslash, or it has no quote and takes more room
than its units need. -/
theorem escape?_cases (h : escape? text = some (units, rest)) :
    (∃ c, (c = '\'' ∨ c = '\\') ∧ text = c :: rest ∧ units = charUnits c) ∨
      ∃ used, text = used ++ rest ∧ '\'' ∉ used ∧
        2 * units.length + marks used ≤ 2 * (textUnits used).length := by
  cases text with
  | nil => simp [escape?] at h
  | cons c =>
    unfold escape? at h
    dsimp only at h
    split at h
    · -- two hexadecimal digits
      next hx =>
      subst hx
      split at h
      · next a b rest' =>
        simp only [bind, Option.bind_eq_some_iff, Option.some.injEq, Prod.mk.injEq] at h
        obtain ⟨_, ha, _, hb, rfl, rfl⟩ := h
        have hdigits : '\'' ∉ [a, b] := quote_not_mem_of_hexValue? (by simp [ha, hb])
        exact Or.inr ⟨['x', a, b], rfl, by simpa using hdigits, loose_of_length (by simp)⟩
      · cases h
    split at h
    · -- a code point in braces, or four digits
      next hu =>
      subst hu
      split at h
      · obtain ⟨⟨code, rest''⟩, hbraced, heq⟩ := Option.map_eq_some_iff.mp h
        cases heq
        obtain ⟨digits, rfl, hdigits, hquote⟩ := eq_append_of_braced? hbraced
        refine Or.inr ⟨'u' :: '\x7b' :: (digits ++ ['\x7d']), by simp, by simp [hquote],
          loose_of_length ?_⟩
        have hpos := List.length_pos_iff.mpr hdigits
        have hunits := length_units_le code
        simp only [List.length_cons, List.length_append, List.length_nil]
        omega
      · obtain ⟨⟨unit, rest''⟩, hunit, heq⟩ := Option.map_eq_some_iff.mp h
        cases heq
        obtain ⟨digits, rfl, hdigits, hquote⟩ := eq_append_of_unit? hunit
        exact Or.inr ⟨'u' :: digits, by simp, by simp [hquote], loose_of_length (by simp [hdigits])⟩
    split at h
    · -- a line end goes without a trace
      next hreturn =>
      subst hreturn
      split at h
      · cases h
        exact Or.inr ⟨['\r', '\n'], rfl, by simp, loose_of_length (by simp)⟩
      · cases h
        exact Or.inr ⟨['\r'], rfl, by simp, loose_of_length (by simp)⟩
    split at h
    · next hend =>
      have hquote : c ≠ '\'' := by
        rintro rfl
        cases hend
      cases h
      exact Or.inr ⟨[c], rfl, by simp [hquote.symm], loose_of_length (by simp)⟩
    split at h
    · next hzero =>
      subst hzero
      have hused : 2 * [0].length + marks ['0'] ≤ 2 * (textUnits ['0']).length := by decide
      split at h
      · split at h
        · cases h
        · cases h
          exact Or.inr ⟨['0'], rfl, by simp, hused⟩
      · cases h
        exact Or.inr ⟨['0'], rfl, by simp, hused⟩
    split at h
    · cases h
    · next hreturn hend hzero hdigit =>
      cases h
      by_cases hmark : c = '\'' ∨ c = '\\'
      · refine Or.inl ⟨c, hmark, rfl, ?_⟩
        rcases hmark with rfl | rfl <;> rfl
      · have hnone : marks [c] = 0 := by
          simp only [isLineEnd, Bool.or_eq_true, decide_eq_true_eq, not_or] at hend hmark
          simp [marks, isBreak, hmark, hend]
        refine Or.inr ⟨[c], rfl, by simp [Ne.symm (not_or.mp hmark).1], ?_⟩
        have hpos := charUnits_pos c
        rw [hnone, textUnits_cons, textUnits_nil, List.append_nil]
        rcases units_control c with heq | hone
        · rw [heq]
          omega
        · omega

theorem escape?_shorter (h : escape? text = some (units, rest)) : rest.length ≤ text.length := by
  rcases escape?_cases h with ⟨c, -, rfl, -⟩ | ⟨used, rfl, -⟩ <;> simp

/-- The units of a literal, read from behind its opening quote, and what follows
its closing quote. -/
def literal? : List Char → Option (List Nat × List Char)
  | [] => none
  | c :: text =>
    if c = '\'' then some ([], text)
    else if c = '\\' then
      match _escape : escape? text with
      | none => none
      | some (units, rest) => (literal? rest).map fun (more, rest) => (units ++ more, rest)
    else if isBreak c then none
    else (literal? text).map fun (more, rest) => (charUnits c ++ more, rest)
termination_by text => text.length
decreasing_by
  · have := escape?_shorter _escape
    simp only [List.length_cons]
    omega
  · simp

def literalAt? : List Char → Option (List Nat × List Char)
  | '\'' :: text => literal? text
  | _ => none

/-! ## Texts written as literals -/

def escaped (text : List Char) : List Char :=
  text.flatMap fun c => if c = '\'' ∨ c = '\\' then ['\\', c] else [c]

@[simp] theorem escaped_nil : escaped [] = [] := rfl

theorem escaped_cons (c : Char) (text : List Char) :
    escaped (c :: text) =
      (if c = '\'' ∨ c = '\\' then ['\\', c] else [c]) ++ escaped text := rfl

theorem literal?_quote (text : List Char) : literal? ('\'' :: text) = some ([], text) := by
  rw [literal?]
  simp

theorem literal?_char (hquote : c ≠ '\'') (hbackslash : c ≠ '\\') (hbreak : isBreak c = false)
    (text : List Char) :
    literal? (c :: text) = (literal? text).map fun (more, rest) => (charUnits c ++ more, rest) := by
  rw [literal?]
  simp [hquote, hbackslash, hbreak]

theorem literal?_escape (h : escape? text = some (units, rest)) :
    literal? ('\\' :: text) = (literal? rest).map fun (more, rest) => (units ++ more, rest) := by
  rw [literal?]
  simp only [Char.reduceEq, ↓reduceIte]
  split
  · next hnone => simp [h] at hnone
  · next units' rest' hsome =>
    rw [h] at hsome
    cases hsome
    rfl

theorem escape?_mark (h : c = '\'' ∨ c = '\\') (text : List Char) :
    escape? (c :: text) = some (charUnits c, text) := by
  rcases h with rfl | rfl <;> rfl

theorem literal?_escaped_append (h : ∀ c ∈ text, isBreak c = false) (rest : List Char) :
    literal? (escaped text ++ rest) =
      (literal? rest).map fun (more, rest) => (textUnits text ++ more, rest) := by
  induction text with
  | nil => simp
  | cons c text ih =>
    have ih := ih fun d hd => h d (List.mem_cons_of_mem _ hd)
    rw [escaped_cons]
    split
    · next hmark =>
      simp only [List.cons_append, List.nil_append]
      rw [literal?_escape (escape?_mark hmark _), ih, Option.map_map]
      simp [Function.comp_def]
    · next hmark =>
      obtain ⟨hquote, hbackslash⟩ := not_or.mp hmark
      simp only [List.cons_append, List.nil_append]
      rw [literal?_char hquote hbackslash (h c (by simp)), ih, Option.map_map]
      simp [Function.comp_def]

theorem marks_cons (c : Char) (text : List Char) :
    marks (c :: text) = (if c = '\'' ∨ c = '\\' ∨ isBreak c then 1 else 0) + marks text := by
  simp only [marks, List.countP_cons, Bool.or_eq_true, decide_eq_true_eq, or_assoc]
  omega

theorem marks_of_plain (hmark : ¬ (c = '\'' ∨ c = '\\')) (hbreak : isBreak c = false)
    (text : List Char) : marks (c :: text) = marks text := by
  obtain ⟨hquote, hbackslash⟩ := not_or.mp hmark
  simp [marks_cons, hquote, hbackslash, hbreak]

theorem two_mul_textUnits_escaped (h : ∀ c ∈ text, isBreak c = false) :
    2 * (textUnits text).length + marks (escaped text) = 2 * (textUnits (escaped text)).length := by
  induction text with
  | nil => rfl
  | cons c text ih =>
    have ih := ih fun d hd => h d (List.mem_cons_of_mem _ hd)
    rw [escaped_cons]
    split
    · next hmark =>
      have hslash : (charUnits '\\').length = 1 := rfl
      have hmarks : marks ('\\' :: c :: escaped text) = 2 + marks (escaped text) := by
        rcases hmark with rfl | rfl <;> simp [marks_cons] <;> omega
      simp only [List.cons_append, List.nil_append, textUnits_cons, List.length_append]
      omega
    · next hmark =>
      have hmarks := marks_of_plain hmark (h c (by simp)) (escaped text)
      simp only [List.cons_append, List.nil_append, textUnits_cons, List.length_append]
      omega

/-- The characters are a text without breaks, escaped, and the units are its own. -/
def Tight (body : List Char) (units : List Nat) : Prop :=
  ∃ value, body = escaped value ∧ units = textUnits value ∧ ∀ c ∈ value, isBreak c = false

/-- The characters take more room than the units need. -/
def Loose (body : List Char) (units : List Nat) : Prop :=
  2 * units.length + marks body < 2 * (textUnits body).length

theorem room_of_tight_or_loose {body : List Char} (h : Tight body units ∨ Loose body units) :
    2 * units.length + marks body ≤ 2 * (textUnits body).length := by
  rcases h with ⟨value, rfl, rfl, hbreak⟩ | hloose
  · exact Nat.le_of_eq (two_mul_textUnits_escaped hbreak)
  · exact Nat.le_of_lt hloose

/-- A literal that is read is an escaped text, or it takes more room than it
needs for its units. -/
theorem tight_or_loose (h : literal? text = some (units, rest)) :
    ∃ body, text = body ++ '\'' :: rest ∧ (Tight body units ∨ Loose body units) := by
  fun_induction literal? text generalizing units rest with
  | case1 => cases h
  | case2 =>
    cases h
    exact ⟨[], rfl, Or.inl ⟨[], rfl, rfl, by simp⟩⟩
  | case3 => cases h
  | case4 text front after hescape hquote ih =>
    obtain ⟨⟨more, rest'⟩, hread, heq⟩ := Option.map_eq_some_iff.mp h
    cases heq
    obtain ⟨body, rfl, hbody⟩ := ih hread
    have hslash : (charUnits '\\').length = 1 := rfl
    rcases escape?_cases hescape with ⟨c, hmark, rfl, rfl⟩ | ⟨used, rfl, -, hused⟩
    · refine ⟨'\\' :: c :: body, rfl, ?_⟩
      rcases hbody with ⟨value, rfl, rfl, hbreak⟩ | hloose
      · refine Or.inl ⟨c :: value, by simp [escaped_cons, hmark], rfl, ?_⟩
        intro d hd
        rcases List.mem_cons.mp hd with rfl | hd
        · rcases hmark with rfl | rfl <;> rfl
        · exact hbreak d hd
      · have hmarks : marks ('\\' :: c :: body) = 2 + marks body := by
          rcases hmark with rfl | rfl <;> simp [marks_cons] <;> omega
        simp only [Loose] at hloose
        simp only [Loose, textUnits_cons, List.length_append]
        omega
    · -- the backslash itself is the room to spare
      refine ⟨'\\' :: (used ++ body), by simp, Or.inr ?_⟩
      have hroom := room_of_tight_or_loose hbody
      have hmarks : marks ('\\' :: (used ++ body)) = 1 + (marks used + marks body) := by
        simp [marks_cons]
      simp only [Loose, textUnits_cons, textUnits_append, List.length_append]
      omega
  | case5 => cases h
  | case6 c text hquote hbackslash hbreak ih =>
    obtain ⟨⟨more, rest'⟩, hread, heq⟩ := Option.map_eq_some_iff.mp h
    cases heq
    obtain ⟨body, rfl, hbody⟩ := ih hread
    have hplain : ¬ (c = '\'' ∨ c = '\\') := not_or.mpr ⟨hquote, hbackslash⟩
    have hbreak : isBreak c = false := by simpa using hbreak
    refine ⟨c :: body, rfl, ?_⟩
    rcases hbody with ⟨value, rfl, rfl, hvalue⟩ | hloose
    · refine Or.inl ⟨c :: value, by simp [escaped_cons, hplain], rfl, ?_⟩
      intro d hd
      rcases List.mem_cons.mp hd with rfl | hd
      · exact hbreak
      · exact hvalue d hd
    · have hmarks := marks_of_plain hplain hbreak body
      simp only [Loose] at hloose
      simp only [Loose, textUnits_cons, List.length_append]
      omega

theorem literal?_eq_some_iff_escaped {raw value : List Char}
    (hroom : 2 * (textUnits raw).length ≤ 2 * (textUnits value).length + marks raw)
    (rest : List Char) :
    literal? (raw ++ '\'' :: rest) = some (textUnits value, rest) ↔
      raw = escaped value ∧ ∀ c ∈ value, isBreak c = false := by
  constructor
  · intro h
    obtain ⟨body, heq, hbody⟩ := tight_or_loose h
    obtain rfl : raw = body := List.append_cancel_right heq
    rcases hbody with ⟨text, rfl, hunits, hbreak⟩ | hloose
    · obtain rfl := textUnits_injective hunits
      exact ⟨rfl, hbreak⟩
    · simp only [Loose] at hloose
      omega
  · rintro ⟨rfl, hbreak⟩
    rw [literal?_escaped_append hbreak, literal?_quote]
    simp

end Sitecheck.Spec.Script
