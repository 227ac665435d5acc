import Sitecheck.Proofs.Json.RoundTrip

/-!
# Documents in files

A document that reads back is written to its end (`Storable.draft`).  Everything
in it that is not printable is escaped, so that it can always be put into a file
(`isScalar_pretty`), and since it has no returns (`return_not_mem_pretty`) the
file gives back exactly what was put into it.
-/

namespace Sitecheck.Json

variable {layout : Layout} {depth levels : Nat} {items : List Json} {fields : List (String × Json)}
  {value : Json} {c : Char} {text front back rest : List Char}

/-! ## Writing to the end -/

theorem draftItems_eq_none (h : ∀ item ∈ items, draftValue layout depth item = none)
    (lead : List Char) :
    draftItems layout depth lead items = none := by
  induction items generalizing lead with
  | nil => rfl
  | cons item items ih =>
    have htail := ih (fun i hi => h i (List.mem_cons_of_mem _ hi)) (layout.comma ++ layout.lead depth)
    have hitem := h item List.mem_cons_self
    unfold draftItems
    rw [hitem, htail]
    cases item <;> rfl

theorem draftFields_eq_none (h : ∀ field ∈ fields, draftValue layout depth field.2 = none)
    (lead : List Char) :
    draftFields layout depth lead fields = none := by
  induction fields generalizing lead with
  | nil => rfl
  | cons field fields ih =>
    have htail := ih (fun f hf => h f (List.mem_cons_of_mem _ hf)) (layout.comma ++ layout.lead depth)
    have hfield := h field List.mem_cons_self
    unfold draftFields
    rw [hfield, htail]
    rfl

theorem Storable.draftValue (hs : Storable levels value) (layout : Layout) (depth : Nat) :
    Json.draftValue layout depth value = none := by
  induction hs generalizing depth with
  | null | bool | float | str => rfl
  | int hvalue =>
    rw [Json.draftValue, hvalue]
    rfl
  | arr _ ih => exact draftItems_eq_none (fun item hitem => ih item hitem (depth + 1)) _
  | obj _ _ ih => exact draftFields_eq_none (fun field hfield => ih field hfield (depth + 1)) _

theorem Storable.draft (hs : Storable levels value) : value.draft = none := by
  rw [Json.draft, hs.draftValue]
  rfl

/-! ## Characters -/

def isPrintable (c : Char) : Bool := c = '\n' || ' ' ≤ c && c ≤ '~'

def Printable (text : List Char) : Prop := ∀ c ∈ text, isPrintable c = true

theorem printable_nil : Printable [] := by simp [Printable]

theorem printable_cons : Printable (c :: text) ↔ isPrintable c = true ∧ Printable text := by
  simp [Printable]

theorem printable_append : Printable (front ++ back) ↔ Printable front ∧ Printable back := by
  simp [Printable, or_imp, forall_and]

theorem printable_lead (layout : Layout) (depth : Nat) : Printable (layout.lead depth) := by
  cases layout with
  | line => exact printable_nil
  | block =>
    refine printable_cons.mpr ⟨rfl, fun c hc => ?_⟩
    rw [List.eq_of_mem_replicate hc]
    rfl

theorem printable_comma (layout : Layout) : Printable layout.comma := by
  cases layout <;> simp [Printable, Layout.comma, isPrintable]

theorem printable_escapeUnit {unit : Nat} (h : unit < 0x10000) : Printable (escapeUnit unit) := by
  have hdigit : ∀ digit < 16, isPrintable (Nat.digitChar digit) = true := by decide
  rw [escapeUnit, hexDigits_four h]
  intro c hc
  simp only [List.mem_cons, List.not_mem_nil, or_false] at hc
  rcases hc with rfl | rfl | rfl | rfl | rfl | rfl
  · rfl
  · rfl
  all_goals exact hdigit _ (by omega)

theorem Escape.printable {code : Nat} {chars : List Char} (h : Escape code chars) :
    Printable chars := by
  cases h with
  | plain _ _ _ hlow hhigh => simp [Printable, isPrintable, hlow, hhigh]
  | @short name c _ _ hshort =>
    have hname : isPrintable name = true := by
      unfold shortEscape? at hshort
      split at hshort
      all_goals first | rfl | cases hshort
    exact printable_cons.mpr ⟨rfl, printable_cons.mpr ⟨hname, printable_nil⟩⟩
  | unit hsmall => exact printable_escapeUnit hsmall
  | pair hhigh hlow =>
    simp only [Text.isHigh, Text.isLow, Bool.and_eq_true, decide_eq_true_eq] at hhigh hlow
    exact printable_append.mpr
      ⟨printable_escapeUnit (by omega), printable_escapeUnit (by omega)⟩

theorem printable_quote (text : String) (h : Printable rest) : Printable (quote text rest) := by
  have hpoint : ∀ point ∈ Text.points text.toList, Printable (escapePoint point) := by
    intro point hpoint
    rw [escapePoint_eq_escapeCode hpoint]
    exact (escape_escapeCode (code_lt point)).printable
  have hpoints : Printable ((Text.points text.toList).flatMap escapePoint) := by
    intro c hc
    obtain ⟨point, hmem, hc⟩ := List.mem_flatMap.mp hc
    exact hpoint point hmem c hc
  have hquote : isPrintable '"' = true := rfl
  exact printable_cons.mpr ⟨hquote, printable_append.mpr ⟨hpoints, printable_cons.mpr ⟨hquote, h⟩⟩⟩

def isNumeric (c : Char) : Bool := c.isDigit || "+-.INaefinty".toList.contains c

def Numeric (text : List Char) : Prop := ∀ c ∈ text, isNumeric c = true

theorem Numeric.printable (h : Numeric text) : Printable text := by
  intro c hc
  rcases Bool.or_eq_true_iff.mp (h c hc) with hdigit | hother
  · have hbounds : 48 ≤ c.toNat ∧ c.toNat ≤ 57 := Char.isDigit_iff_toNat.mp hdigit
    have hlow : ' ' ≤ c := show 32 ≤ c.toNat by omega
    have hhigh : c ≤ '~' := show c.toNat ≤ 126 by omega
    simp [isPrintable, hlow, hhigh]
  · have hall : ∀ c ∈ "+-.INaefinty".toList, isPrintable c = true :=
      List.all_eq_true.mp (by decide)
    exact hall c (List.contains_iff_mem.mp hother)

theorem numeric_nil : Numeric [] := by simp [Numeric]

theorem numeric_cons : Numeric (c :: text) ↔ isNumeric c = true ∧ Numeric text := by
  simp [Numeric]

theorem numeric_append : Numeric (front ++ back) ↔ Numeric front ∧ Numeric back := by
  simp [Numeric, or_imp, forall_and]

theorem numeric_digits {digits : List Char} (h : ∀ c ∈ digits, c.isDigit = true) : Numeric digits :=
  fun c hc => by simp [isNumeric, h c hc]

theorem numeric_signed (negative : Bool) (h : Numeric text) :
    Numeric ((if negative then ['-'] else []) ++ text) := by
  cases negative with
  | true => exact numeric_cons.mpr ⟨by decide, h⟩
  | false => exact h

theorem numeric_intText (value : Int) : Numeric (intText value) := by
  rw [intText]
  simpa using numeric_signed (decide (value < 0)) (numeric_digits (isDigit_toDigits value.natAbs))

theorem numeric_exponentText (power : Int) : Numeric (NumberFormat.exponentText power) := by
  have hsign : isNumeric (if power < 0 then '-' else '+') = true := by split <;> rfl
  refine numeric_cons.mpr ⟨by decide, numeric_cons.mpr ⟨hsign, numeric_append.mpr ⟨?_, ?_⟩⟩⟩
  · intro c hc
    rw [List.eq_of_mem_replicate hc]
    rfl
  · exact numeric_digits (isDigit_toDigits _)

theorem numeric_parts {parts : Numeral.Parts} (h : parts.IsFractional) : Numeric parts.text := by
  obtain ⟨hwhole, hfraction⟩ := List.forall_mem_append.mp h.digits
  refine numeric_append.mpr ⟨numeric_append.mpr ⟨numeric_digits hwhole, ?_⟩, ?_⟩
  · split
    · exact numeric_nil
    · exact numeric_cons.mpr ⟨by decide, numeric_digits hfraction⟩
  · cases parts.power with
    | none => exact numeric_nil
    | some power => exact numeric_exponentText power

theorem numeric_float {value : Binary64} (h : IsRegular value) : Numeric (numbers.write value).toList := by
  cases value with
  | nan =>
    cases h
    exact List.all_eq_true.mp (by decide)
  | infinite negative => cases negative <;> exact List.all_eq_true.mp (by decide)
  | finite negative mantissa exponent =>
    rw [NumberFormat.write, String.toList_ofList]
    refine numeric_signed negative ?_
    rcases Nat.eq_zero_or_pos mantissa with rfl | hpos
    · exact List.all_eq_true.mp rfl
    · obtain ⟨parts, hparts, htext, -⟩ := numbers.magnitude_spec exponent hpos h.lt
      rw [← htext]
      exact numeric_parts hparts

theorem printable_writeItems
    (hitems : ∀ item ∈ items, ∀ rest, Printable rest → Printable (writeValue layout depth item rest))
    (h : Printable rest) : Printable (writeItems layout depth items rest) := by
  induction items with
  | nil => exact h
  | cons item items ih =>
    have htail := ih fun i hi => hitems i (List.mem_cons_of_mem _ hi)
    rw [writeItems, printable_append, printable_append]
    exact ⟨⟨printable_comma layout, printable_lead layout depth⟩,
      hitems item List.mem_cons_self _ htail⟩

theorem printable_writeField {field : String × Json}
    (h : Printable (writeValue layout depth field.2 rest)) :
    Printable (writeField layout depth field rest) := by
  rw [writeField]
  exact printable_quote _ (printable_cons.mpr ⟨by decide, printable_cons.mpr ⟨by decide, h⟩⟩)

theorem printable_writeFields (hfields : ∀ field ∈ fields, ∀ rest, Printable rest →
      Printable (writeValue layout depth field.2 rest)) (h : Printable rest) :
    Printable (writeFields layout depth fields rest) := by
  induction fields with
  | nil => exact h
  | cons field fields ih =>
    have htail := ih fun f hf => hfields f (List.mem_cons_of_mem _ hf)
    rw [writeFields, printable_append, printable_append]
    exact ⟨⟨printable_comma layout, printable_lead layout depth⟩,
      printable_writeField (hfields field List.mem_cons_self _ htail)⟩

theorem printable_close {close : Char} (hclose : isPrintable close = true) (layout : Layout)
    (depth : Nat) (h : Printable rest) : Printable (layout.lead depth ++ close :: rest) := by
  rw [printable_append, printable_cons]
  exact ⟨printable_lead layout depth, hclose, h⟩

/-- Every number in the value can be written. -/
inductive Regular : Json → Prop where
  | null : Regular .null
  | bool (value : Bool) : Regular (.bool value)
  | int (value : Int) : Regular (.int value)
  | float {value : Binary64} : IsRegular value → Regular (.float value)
  | str (text : String) : Regular (.str text)
  | arr {items : List Json} : (∀ item ∈ items, Regular item) → Regular (.arr items)
  | obj {fields : List (String × Json)} : (∀ field ∈ fields, Regular field.2) → Regular (.obj fields)

theorem Storable.regular (hs : Storable levels value) : Regular value := by
  induction hs with
  | null => exact .null
  | bool value => exact .bool value
  | int => exact .int _
  | float hvalue => exact .float hvalue
  | str text => exact .str text
  | arr _ ih => exact .arr ih
  | obj _ _ ih => exact .obj ih

theorem Regular.printable (hs : Regular value) (layout : Layout) (depth : Nat) (rest : List Char)
    (h : Printable rest) : Printable (writeValue layout depth value rest) := by
  induction hs generalizing depth rest with
  | null => simpa [writeValue, printable_cons, isPrintable] using h
  | bool value => cases value <;> simpa [writeValue, printable_cons, isPrintable] using h
  | int => exact printable_append.mpr ⟨(numeric_intText _).printable, h⟩
  | float hvalue => exact printable_append.mpr ⟨(numeric_float hvalue).printable, h⟩
  | str text => exact printable_quote text h
  | @arr items hitems ih =>
    cases items with
    | nil => simpa [writeValue, printable_cons, isPrintable] using h
    | cons item =>
      have htail := printable_writeItems
        (fun i hi => ih i (List.mem_cons_of_mem _ hi) (depth + 1))
        (printable_close (by rfl : isPrintable ']' = true) layout depth h)
      rw [writeValue, printable_cons, printable_append]
      exact ⟨by decide, printable_lead layout (depth + 1),
        ih item List.mem_cons_self (depth + 1) _ htail⟩
  | @obj fields hfields ih =>
    cases fields with
    | nil => simpa [writeValue, printable_cons, isPrintable] using h
    | cons field =>
      have htail := printable_writeFields
        (fun f hf => ih f (List.mem_cons_of_mem _ hf) (depth + 1))
        (printable_close (by rfl : isPrintable '\x7d' = true) layout depth h)
      rw [writeValue, printable_cons, printable_append]
      exact ⟨by decide, printable_lead layout (depth + 1),
        printable_writeField (ih field List.mem_cons_self (depth + 1) _ htail)⟩

theorem not_mem_pretty (hs : Regular value) (hc : isPrintable c = false) :
    c ∉ value.pretty.toList := by
  intro hmem
  rw [pretty, write, String.toList_ofList] at hmem
  rw [hs.printable (.block 2) 0 [] printable_nil c hmem] at hc
  cases hc

theorem return_not_mem_pretty (hs : Storable levels value) : '\r' ∉ value.pretty.toList :=
  not_mem_pretty hs.regular rfl

theorem isScalar_pretty (hs : Storable levels value) : Text.isScalar value.pretty = true :=
  Text.isScalar_of_not_mem (not_mem_pretty hs.regular (by decide))

/-! ## Documents that are written whole -/

/-- A document that is written to its end, in printable characters. -/
structure Writes (value : Json) : Prop where
  regular : Regular value
  ended : ∀ layout depth, draftValue layout depth value = none

theorem writes_obj (h : ∀ field ∈ fields, Writes field.2) : Writes (.obj fields) :=
  ⟨.obj fun field hfield => (h field hfield).regular, fun layout depth =>
    draftFields_eq_none (fun field hfield => (h field hfield).ended layout (depth + 1)) _⟩

theorem Writes.draft (h : Writes value) : value.draft = none := by
  rw [Json.draft, h.ended]
  rfl

end Sitecheck.Json
