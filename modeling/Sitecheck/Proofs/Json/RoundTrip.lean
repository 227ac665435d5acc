import Sitecheck.Json.Access
import Sitecheck.Proofs.Fields
import Sitecheck.Proofs.Json.Number
import Sitecheck.Proofs.Json.Text

/-!
# Documents written and read back

A document reads back as itself, with every text in it read back (`parse_write`),
and just as itself if no text has a half of a character (`Whole.reread_eq`).  The
readers are followed through a text that has something behind it: what a value
leaves is what was written after it.
-/

namespace Sitecheck

namespace Json

variable {value found : Json} {levels depth : Nat} {c : Char} {blanks text rest : List Char}
  {layout : Layout}

mutual

/-- A document as it is when it has been written and read back. -/
def reread : Json → Json
  | .str text => .str (Text.reread text)
  | .arr items => .arr (rereadItems items)
  | .obj fields => .obj (rereadFields fields)
  | value => value

def rereadItems : List Json → List Json
  | [] => []
  | item :: items => item.reread :: rereadItems items

def rereadFields : List (String × Json) → List (String × Json)
  | [] => []
  | (key, value) :: fields => (Text.reread key, value.reread) :: rereadFields fields

end

theorem rereadItems_eq_map (items : List Json) : rereadItems items = items.map reread := by
  induction items with
  | nil => rfl
  | cons item items ih => rw [rereadItems, ih, List.map_cons]

theorem rereadFields_eq_map (fields : List (String × Json)) :
    rereadFields fields = fields.map fun field => (Text.reread field.1, field.2.reread) := by
  induction fields with
  | nil => rfl
  | cons field fields ih => rw [rereadFields, ih, List.map_cons]

/-- Documents without halves of characters. -/
inductive Whole : Json → Prop where
  | null : Whole .null
  | bool (value : Bool) : Whole (.bool value)
  | int (value : Int) : Whole (.int value)
  | float (value : Binary64) : Whole (.float value)
  | str {text : String} : Text.mark ∉ text.toList → Whole (.str text)
  | arr {items : List Json} : (∀ item ∈ items, Whole item) → Whole (.arr items)
  | obj {fields : List (String × Json)} : (∀ field ∈ fields, Text.mark ∉ field.1.toList) →
    (∀ field ∈ fields, Whole field.2) → Whole (.obj fields)

theorem Whole.reread_eq (h : Whole value) : value.reread = value := by
  induction h with
  | null | bool | int | float => rfl
  | str htext => rw [reread, Text.reread_of_not_mem htext]
  | arr _ ih =>
    rw [reread, rereadItems_eq_map]
    exact congrArg Json.arr ((List.map_congr_left ih).trans (List.map_id _))
  | obj hkeys _ ih =>
    rw [reread, rereadFields_eq_map]
    refine congrArg Json.obj ((List.map_congr_left fun field hfield => ?_).trans (List.map_id _))
    rw [Text.reread_of_not_mem (hkeys field hfield), ih field hfield]
    rfl

/-- Numbers that are read as they are written: what is no number has no sign. -/
def IsRegular : Binary64 → Prop
  | .nan negative => negative = false
  | .infinite _ => True
  | .finite _ mantissa exponent => Binary64.Fits mantissa exponent

/-- Documents of at most so many levels that are read as they are written. -/
inductive Storable : Nat → Json → Prop where
  | null {levels : Nat} : Storable levels .null
  | bool {levels : Nat} (value : Bool) : Storable levels (.bool value)
  | int {levels : Nat} {value : Int} : isUnwritable value = false → Storable levels (.int value)
  | float {levels : Nat} {value : Binary64} : IsRegular value → Storable levels (.float value)
  | str {levels : Nat} (text : String) : Storable levels (.str text)
  | arr {levels : Nat} {items : List Json} :
    (∀ item ∈ items, Storable levels item) → Storable (levels + 1) (.arr items)
  | obj {levels : Nat} {fields : List (String × Json)} :
    (∀ field ∈ fields, Storable levels field.2) →
    ((rereadFields fields).map Prod.fst).Nodup → Storable (levels + 1) (.obj fields)

theorem Storable.map {α : Type} {f : α → Json} (h : ∀ a, Storable levels (f a)) (items : List α) :
    Storable (levels + 1) (.arr (items.map f)) := by
  refine .arr fun item hitem => ?_
  obtain ⟨a, -, rfl⟩ := List.mem_map.mp hitem
  exact h a

mutual

/-- A test that documents without fractions are read as they are written. -/
def isStorable : Nat → Json → Bool
  | _, .int value => !isUnwritable value
  | _, .float _ | 0, .arr _ | 0, .obj _ => false
  | levels + 1, .arr items => areStorable levels items
  | levels + 1, .obj fields =>
    haveStorable levels fields && decide ((rereadFields fields).map Prod.fst).Nodup
  | _, _ => true

def areStorable (levels : Nat) : List Json → Bool
  | [] => true
  | item :: items => isStorable levels item && areStorable levels items

def haveStorable (levels : Nat) : List (String × Json) → Bool
  | [] => true
  | (_, value) :: fields => isStorable levels value && haveStorable levels fields

end

mutual

theorem storable_of_isStorable (levels : Nat) {value : Json} (h : isStorable levels value = true) :
    Storable levels value := by
  cases value with
  | null => exact .null
  | bool value => exact .bool value
  | str text => exact .str text
  | int => exact .int (by simpa [isStorable] using h)
  | float => simp [isStorable] at h
  | arr =>
    cases levels with
    | zero => simp [isStorable] at h
    | succ => exact .arr (storable_of_areStorable (by simpa [isStorable] using h))
  | obj =>
    cases levels with
    | zero => simp [isStorable] at h
    | succ =>
      rw [isStorable, Bool.and_eq_true, decide_eq_true_iff] at h
      exact .obj (storable_of_haveStorable h.1) h.2

theorem storable_of_areStorable {levels : Nat} {items : List Json}
    (h : areStorable levels items = true) : ∀ item ∈ items, Storable levels item := by
  cases items with
  | nil => simp
  | cons =>
    rw [areStorable, Bool.and_eq_true] at h
    exact List.forall_mem_cons.mpr ⟨storable_of_isStorable _ h.1, storable_of_areStorable h.2⟩

theorem storable_of_haveStorable {levels : Nat} {fields : List (String × Json)}
    (h : haveStorable levels fields = true) : ∀ field ∈ fields, Storable levels field.2 := by
  cases fields with
  | nil => simp
  | cons =>
    rw [haveStorable, Bool.and_eq_true] at h
    exact List.forall_mem_cons.mpr ⟨storable_of_isStorable _ h.1, storable_of_haveStorable h.2⟩

end

/-! ## Blanks and marks -/

/-- A text has this first character after its blanks, and then the rest. -/
def Starts (text : List Char) (c : Char) (rest : List Char) : Prop :=
  text.dropWhile isSpace = c :: rest

def AllBlank (blanks : List Char) : Prop := ∀ c ∈ blanks, isSpace c = true

theorem starts_cons (h : isSpace c = false) (rest : List Char) : Starts (c :: rest) c rest := by
  simp [Starts, h]

theorem Starts.behind (hblanks : AllBlank blanks) (h : Starts text c rest) :
    Starts (blanks ++ text) c rest := by
  unfold Starts
  rw [List.dropWhile_append_of_pos hblanks]
  exact h

theorem Starts.length_lt (h : Starts text c rest) : rest.length < text.length := by
  have hlength := length_dropWhile_le isSpace text
  rw [h, List.length_cons] at hlength
  exact hlength

theorem Starts.skip (h : Starts text c rest) : Json.skip text = ⟨c :: rest, h.length_lt⟩ :=
  Subtype.ext h

theorem Starts.mark? (h : Starts text c rest) : Json.mark? c text = some ⟨rest, h.length_lt⟩ := by
  unfold Json.mark?
  rw [h.skip]
  exact if_pos rfl

theorem Starts.mark?_of_ne {d : Char} (h : Starts text c rest) (hne : c ≠ d) :
    Json.mark? d text = none := by
  unfold Json.mark?
  rw [h.skip]
  exact if_neg hne

theorem allBlank_lead (layout : Layout) (depth : Nat) : AllBlank (layout.lead depth) := by
  intro c hc
  cases layout with
  | line => cases hc
  | block =>
    rcases List.mem_cons.mp hc with rfl | hc
    · rfl
    · rw [List.eq_of_mem_replicate hc]
      rfl

theorem allBlank_comma (layout : Layout) (depth : Nat) :
    AllBlank (layout.comma.tail ++ layout.lead depth) := by
  intro c hc
  rcases List.mem_append.mp hc with hc | hc
  · cases layout with
    | line =>
      rw [List.mem_singleton.mp hc]
      rfl
    | block => cases hc
  · exact allBlank_lead layout depth c hc

theorem starts_comma (layout : Layout) (depth : Nat) (text : List Char) :
    Starts (layout.comma ++ layout.lead depth ++ text) ','
      (layout.comma.tail ++ layout.lead depth ++ text) := by
  cases layout <;> exact starts_cons rfl _

/-! ## Scalars -/

def ReadsScalar (text : List Char) (value : Json) (rest : List Char) : Prop :=
  ∃ h, readScalar text = .ok (value, ⟨rest, h⟩)

def ReadsValue (levels : Nat) (text : List Char) (value : Json) (rest : List Char) : Prop :=
  ∃ h, readValue levels text = .ok (value, ⟨rest, h⟩)

theorem ReadsScalar.readsValue {left : List Char} (h : ReadsScalar (c :: rest) value left)
    (hstarts : Starts text c rest) (hbracket : c ≠ '[') (hbrace : c ≠ '\x7b') (levels : Nat) :
    ReadsValue levels text value left := by
  obtain ⟨hlt, hread⟩ := h
  refine ⟨Nat.lt_of_lt_of_le hlt hstarts.length_lt, ?_⟩
  rw [readValue, hstarts.mark?_of_ne hbracket, hstarts.mark?_of_ne hbrace, hstarts.skip]
  dsimp only
  rw [hread]
  rfl

theorem readWord_append {word : List Char} (h : 0 < word.length) (value : Json)
    (rest : List Char) : ∃ hlt, readWord word value (word ++ rest) h = .ok (value, ⟨rest, hlt⟩) := by
  have hlt : rest.length < (word ++ rest).length := by
    rw [List.length_append]
    omega
  refine ⟨hlt, ?_⟩
  simp [readWord]

theorem readsScalar_null (rest : List Char) :
    ReadsScalar ('n' :: 'u' :: 'l' :: 'l' :: rest) .null rest := by
  have hlength : 0 < "null".toList.length := by decide
  exact readWord_append hlength .null rest

theorem readsScalar_true (rest : List Char) :
    ReadsScalar ('t' :: 'r' :: 'u' :: 'e' :: rest) (.bool true) rest := by
  have hlength : 0 < "true".toList.length := by decide
  exact readWord_append hlength (.bool true) rest

theorem readsScalar_quote (text : String) (rest : List Char) :
    ReadsScalar (quote text rest) (.str (Text.reread text)) rest := by
  obtain ⟨chars, hquote, hlt, hread⟩ := readsText_quoted text rest
  rw [hquote]
  refine ⟨Nat.lt_succ_of_lt hlt, ?_⟩
  simp only [readScalar, hread, String.ofList_toList]
  rfl

theorem readsScalar_signed (negative : Bool) {tail : List Char} (hc : c.isDigit = true)
    (h : ∃ hlt, readMagnitude negative (c :: tail) = .ok (value, ⟨rest, hlt⟩)) :
    ReadsScalar ((if negative then ['-'] else []) ++ c :: tail) value rest := by
  obtain ⟨hlt, hread⟩ := h
  have hfirst : ∀ d : Char, d.isDigit = false → ∀ tail', c :: tail = d :: tail' → False := by
    rintro d hd tail' ⟨⟩
    rw [hc] at hd
    cases hd
  cases negative with
  | true =>
    refine ⟨Nat.lt_succ_of_lt hlt, ?_⟩
    change readScalar ('-' :: c :: tail) = _
    rw [readScalar.eq_8 _ (hfirst 'I' rfl), hread]
    rfl
  | false =>
    refine ⟨hlt, ?_⟩
    change readScalar (c :: tail) = _
    rw [readScalar.eq_9 _ (hfirst _ rfl) (hfirst _ rfl) (hfirst _ rfl) (hfirst _ rfl)
      (hfirst _ rfl) (hfirst _ rfl) (fun tail => hfirst _ rfl _) (hfirst _ rfl)]
    exact hread

theorem exists_first_toDigits (n : Nat) (rest : List Char) :
    ∃ c tail, Nat.toDigits 10 n ++ rest = c :: tail ∧ c.isDigit = true := by
  obtain ⟨c, digits, hn⟩ := List.exists_cons_of_ne_nil (Nat.toDigits_ne_nil (b := 10) (n := n))
  have hc : c.isDigit = true := isDigit_toDigits n c (by rw [hn]; exact List.mem_cons_self)
  exact ⟨c, digits ++ rest, by rw [hn, List.cons_append], hc⟩

theorem readsScalar_int {value : Int} (hvalue : isUnwritable value = false)
    (hrest : EndsValue rest) : ReadsScalar (intText value ++ rest) (.int value) rest := by
  have hsize : value.natAbs < Nat.pow 10 maxDigits := by
    simpa [isUnwritable] using hvalue
  have hread := readMagnitude_toDigits (decide (value < 0)) hsize hrest
  have hsame : (if decide (value < 0) = true then -(value.natAbs : Int) else value.natAbs) = value := by
    by_cases hnegative : value < 0
    · rw [decide_eq_true hnegative, if_pos rfl]
      omega
    · rw [decide_eq_false hnegative, if_neg Bool.false_ne_true]
      omega
  obtain ⟨c, tail, htext, hc⟩ := exists_first_toDigits value.natAbs rest
  rw [hsame, htext] at hread
  rw [intText, List.append_assoc, htext]
  simpa using readsScalar_signed (decide (value < 0)) hc hread

theorem readsScalar_float {value : Binary64} (hvalue : IsRegular value) (hrest : EndsValue rest) :
    ReadsScalar ((numbers.write value).toList ++ rest) (.float value) rest := by
  cases value with
  | nan =>
    cases hvalue
    have hlength : 0 < "NaN".toList.length := by decide
    exact readWord_append hlength (.float (.nan false)) rest
  | infinite negative =>
    cases negative with
    | false =>
      have hlength : 0 < "Infinity".toList.length := by decide
      exact readWord_append hlength (.float (.infinite false)) rest
    | true =>
      have hlength : 0 < "-Infinity".toList.length := by decide
      exact readWord_append hlength (.float (.infinite true)) rest
  | finite negative mantissa exponent =>
    have hread := readMagnitude_magnitude negative numbers hvalue hrest
    obtain ⟨c, tail, htext, hc⟩ := exists_first_magnitude numbers exponent hvalue.lt rest
    rw [htext] at hread
    rw [NumberFormat.write, String.toList_ofList, List.append_assoc, htext]
    exact readsScalar_signed negative hc hread

theorem readsScalar_false (rest : List Char) :
    ReadsScalar ('f' :: 'a' :: 'l' :: 's' :: 'e' :: rest) (.bool false) rest := by
  have hlength : 0 < "false".toList.length := by decide
  exact readWord_append hlength (.bool false) rest

/-! ## Containers -/

def ReadsItems (levels : Nat) (text : List Char) (items : List Json) (rest : List Char) : Prop :=
  ∃ h, readItems levels text = .ok (items, ⟨rest, h⟩)

def ReadsFields (levels : Nat) (before : List (String × Json)) (text : List Char)
    (fields : List (String × Json)) (rest : List Char) : Prop :=
  ∃ h, readFields levels before text = .ok (fields, ⟨rest, h⟩)

section Containers

variable {levels : Nat} {text left tail rest inner : List Char} {item value : Json}
  {items : List Json} {before fields : List (String × Json)} {c : Char}

theorem ReadsValue.lastItem (h : ReadsValue levels text item left) (hclose : Starts left ']' rest) :
    ReadsItems levels text [item] rest := by
  obtain ⟨hlt, hread⟩ := h
  refine ⟨Nat.lt_trans hclose.length_lt hlt, ?_⟩
  rw [readItems, hread]
  dsimp only
  rw [hclose.mark?]
  rfl

theorem ReadsValue.nextItem (h : ReadsValue levels text item left) (hcomma : Starts left ',' tail)
    (hitems : ReadsItems levels tail items rest) : ReadsItems levels text (item :: items) rest := by
  obtain ⟨hlt, hread⟩ := h
  obtain ⟨hlt', hread'⟩ := hitems
  refine ⟨Nat.lt_trans hlt' (Nat.lt_trans hcomma.length_lt hlt), ?_⟩
  rw [readItems, hread]
  dsimp only
  rw [hcomma.mark?_of_ne (by decide), hcomma.mark?]
  dsimp only
  rw [hread']
  rfl

theorem ReadsItems.readsValue (h : ReadsItems levels inner items rest)
    (hopen : Starts text '[' inner) (hfirst : Starts inner c tail) (hc : c ≠ ']') :
    ReadsValue (levels + 1) text (.arr items) rest := by
  obtain ⟨hlt, hread⟩ := h
  refine ⟨Nat.lt_trans hlt hopen.length_lt, ?_⟩
  rw [readValue, hopen.mark?]
  dsimp only
  rw [hfirst.mark?_of_ne hc]
  rw [hread]
  rfl

theorem readsValue_emptyArr (h : Starts text '[' (']' :: rest)) :
    ReadsValue (levels + 1) text (.arr []) rest := by
  have hclose : Starts (']' :: rest) ']' rest := starts_cons rfl rest
  refine ⟨Nat.lt_trans hclose.length_lt h.length_lt, ?_⟩
  rw [readValue, h.mark?]
  dsimp only
  rfl

/-- A member at the front: its key, a colon and its value, and what is left behind it. -/
def ReadsField (levels : Nat) (text : List Char) (key : String) (value : Json)
    (left : List Char) : Prop :=
  ∃ quoted keyLeft start, Starts text '"' quoted ∧ ReadsText quoted key.toList keyLeft ∧
    Starts keyLeft ':' start ∧ ReadsValue levels start value left

variable {key : String}

theorem ReadsField.lastField (h : ReadsField levels text key value left)
    (hclose : Starts left '\x7d' rest) :
    ReadsFields levels before text (Fields.set key value before) rest := by
  obtain ⟨quoted, keyLeft, start, hquote, ⟨hkey, hreadKey⟩, hcolon, ⟨hlt, hread⟩⟩ := h
  have hleft : left.length < text.length :=
    Nat.lt_trans hlt (Nat.lt_trans hcolon.length_lt (Nat.lt_trans hkey hquote.length_lt))
  refine ⟨Nat.lt_trans hclose.length_lt hleft, ?_⟩
  rw [readFields, hquote.mark?]
  dsimp only
  rw [hreadKey]
  dsimp only
  rw [hcolon.mark?]
  dsimp only
  rw [hread]
  dsimp only
  rw [hclose.mark?, String.ofList_toList]
  rfl

theorem ReadsField.nextField (h : ReadsField levels text key value left)
    (hcomma : Starts left ',' tail)
    (hfields : ReadsFields levels (Fields.set key value before) tail fields rest) :
    ReadsFields levels before text fields rest := by
  obtain ⟨quoted, keyLeft, start, hquote, ⟨hkey, hreadKey⟩, hcolon, ⟨hlt, hread⟩⟩ := h
  obtain ⟨hlt', hread'⟩ := hfields
  have hleft : left.length < text.length :=
    Nat.lt_trans hlt (Nat.lt_trans hcolon.length_lt (Nat.lt_trans hkey hquote.length_lt))
  refine ⟨Nat.lt_trans hlt' (Nat.lt_trans hcomma.length_lt hleft), ?_⟩
  rw [readFields, hquote.mark?]
  dsimp only
  rw [hreadKey]
  dsimp only
  rw [hcolon.mark?]
  dsimp only
  rw [hread]
  dsimp only
  rw [hcomma.mark?_of_ne (by decide), hcomma.mark?, String.ofList_toList]
  dsimp only
  rw [hread']
  rfl

theorem ReadsFields.readsValue (h : ReadsFields levels [] inner fields rest)
    (hopen : Starts text '\x7b' inner) (hfirst : Starts inner '"' tail) :
    ReadsValue (levels + 1) text (.obj fields) rest := by
  obtain ⟨hlt, hread⟩ := h
  refine ⟨Nat.lt_trans hlt hopen.length_lt, ?_⟩
  rw [readValue, hopen.mark?_of_ne (by decide), hopen.mark?]
  dsimp only
  rw [hfirst.mark?_of_ne (by decide)]
  rw [hread]
  rfl

theorem readsValue_emptyObj (h : Starts text '\x7b' ('\x7d' :: rest)) :
    ReadsValue (levels + 1) text (.obj []) rest := by
  have hclose : Starts ('\x7d' :: rest) '\x7d' rest := starts_cons rfl rest
  refine ⟨Nat.lt_trans hclose.length_lt h.length_lt, ?_⟩
  rw [readValue, h.mark?_of_ne (by decide), h.mark?]
  dsimp only
  rfl

end Containers

/-! ## Values -/

def startsNumber (c : Char) : Bool := c.isDigit || c = '-' || c = 'N' || c = 'I'

theorem exists_first_signed (negative : Bool) (hc : c.isDigit = true) (tail : List Char) :
    ∃ d rest, (if negative then ['-'] else []) ++ c :: tail = d :: rest ∧ startsNumber d = true := by
  cases negative with
  | true => exact ⟨'-', c :: tail, rfl, rfl⟩
  | false => exact ⟨c, tail, rfl, by simp [startsNumber, hc]⟩

theorem exists_first_int (value : Int) (rest : List Char) :
    ∃ c tail, intText value ++ rest = c :: tail ∧ startsNumber c = true := by
  obtain ⟨c, tail, htext, hc⟩ := exists_first_toDigits value.natAbs rest
  rw [intText, List.append_assoc, htext]
  simpa using exists_first_signed (decide (value < 0)) hc tail

theorem exists_first_float {value : Binary64} (hvalue : IsRegular value) (rest : List Char) :
    ∃ c tail, (numbers.write value).toList ++ rest = c :: tail ∧ startsNumber c = true := by
  cases value with
  | nan =>
    cases hvalue
    exact ⟨'N', "aN".toList ++ rest, rfl, rfl⟩
  | infinite negative =>
    cases negative with
    | false => exact ⟨'I', "nfinity".toList ++ rest, rfl, rfl⟩
    | true => exact ⟨'-', "Infinity".toList ++ rest, rfl, rfl⟩
  | finite negative mantissa exponent =>
    obtain ⟨c, tail, htext, hc⟩ := exists_first_magnitude numbers exponent hvalue.lt rest
    rw [NumberFormat.write, String.toList_ofList, List.append_assoc, htext]
    exact exists_first_signed negative hc tail

theorem not_isSpace_of_number (h : startsNumber c = true) :
    isSpace c = false ∧ c ≠ '[' ∧ c ≠ '\x7b' ∧ c ≠ ']' := by
  have hne : ∀ d : Char, startsNumber d = false → c ≠ d := by
    rintro d hd rfl
    rw [h] at hd
    cases hd
  refine ⟨?_, hne _ rfl, hne _ rfl, hne _ rfl⟩
  simp [isSpace, hne ' ' rfl, hne '\t' rfl, hne '\n' rfl, hne '\r' rfl]

theorem starts_writeValue (hs : Storable levels value) (layout : Layout) (depth : Nat)
    (rest : List Char) :
    ∃ c tail, Starts (writeValue layout depth value rest) c tail ∧ c ≠ ']' := by
  cases hs with
  | null => exact ⟨_, _, starts_cons rfl _, by decide⟩
  | bool value => cases value <;> exact ⟨_, _, starts_cons rfl _, by decide⟩
  | int =>
    obtain ⟨c, tail, htext, hc⟩ := exists_first_int _ rest
    obtain ⟨hspace, -, -, hclose⟩ := not_isSpace_of_number hc
    exact ⟨c, tail, by rw [writeValue, htext]; exact starts_cons hspace tail, hclose⟩
  | float hvalue =>
    obtain ⟨c, tail, htext, hc⟩ := exists_first_float hvalue rest
    obtain ⟨hspace, -, -, hclose⟩ := not_isSpace_of_number hc
    exact ⟨c, tail, by rw [writeValue, htext]; exact starts_cons hspace tail, hclose⟩
  | str => exact ⟨_, _, starts_cons rfl _, by decide⟩
  | @arr _ items _ => cases items <;> exact ⟨_, _, starts_cons rfl _, by decide⟩
  | @obj _ fields _ _ => cases fields <;> exact ⟨_, _, starts_cons rfl _, by decide⟩

theorem starts_writeField (layout : Layout) (depth : Nat) (field : String × Json)
    (rest : List Char) : ∃ tail, Starts (writeField layout depth field rest) '"' tail := by
  rw [writeField]
  exact ⟨_, starts_cons rfl _⟩

theorem endsValue_comma (layout : Layout) (depth : Nat) (text : List Char) :
    EndsValue (layout.comma ++ layout.lead depth ++ text) := by
  cases layout <;> simp [EndsValue, Layout.comma]

theorem endsValue_lead {close : Char} (hclose : close = ']' ∨ close = '\x7d') (layout : Layout)
    (depth : Nat) (rest : List Char) : EndsValue (layout.lead depth ++ close :: rest) := by
  cases layout with
  | line =>
    intro c hc
    simp only [Layout.lead, List.nil_append, List.head?_cons, Option.mem_def, Option.some.injEq]
      at hc
    subst hc
    exact Or.inr (Or.inr hclose)
  | block => simp [EndsValue, Layout.lead]

/-- A value that was written is read as another, whatever blanks stand before it. -/
def ReadsAs (levels : Nat) (layout : Layout) (depth : Nat) (value found : Json) : Prop :=
  ∀ blanks rest, AllBlank blanks → EndsValue rest →
    ReadsValue levels (blanks ++ writeValue layout depth value rest) found rest

theorem readsItems_writeItems {item : Json} {items : List Json}
    (hitems : ∀ i ∈ item :: items, ReadsAs levels layout (depth + 1) i i.reread)
    (hblanks : AllBlank blanks) (rest : List Char) :
    ReadsItems levels (blanks ++ writeValue layout (depth + 1) item
      (writeItems layout (depth + 1) items (layout.lead depth ++ ']' :: rest)))
      (item.reread :: rereadItems items) rest := by
  induction items generalizing item blanks with
  | nil =>
    have hvalue := hitems item List.mem_cons_self blanks (layout.lead depth ++ ']' :: rest) hblanks
      (endsValue_lead (Or.inl rfl) layout depth rest)
    exact hvalue.lastItem ((starts_cons rfl rest).behind (allBlank_lead layout depth))
  | cons next items ih =>
    have htail := ih (fun i hi => hitems i (List.mem_cons_of_mem _ hi))
      (allBlank_comma layout (depth + 1))
    refine ReadsValue.nextItem (hitems item List.mem_cons_self blanks _ hblanks ?_)
      (starts_comma layout (depth + 1) _) htail
    exact endsValue_comma layout (depth + 1) _

theorem readsField_writeField {field : String × Json}
    (hvalue : ReadsAs levels layout depth field.2 found) (hblanks : AllBlank blanks)
    (hrest : EndsValue rest) :
    ReadsField levels (blanks ++ writeField layout depth field rest) (Text.reread field.1)
      found rest := by
  obtain ⟨quoted, hquote, hkey⟩ :=
    readsText_quoted field.1 (':' :: ' ' :: writeValue layout depth field.2 rest)
  have hstart : Starts (blanks ++ writeField layout depth field rest) '"' quoted := by
    rw [writeField, hquote]
    exact (starts_cons rfl quoted).behind hblanks
  have hspace : AllBlank [' '] := by simp [AllBlank, isSpace]
  exact ⟨quoted, _, _, hstart, hkey, starts_cons rfl _, hvalue [' '] rest hspace hrest⟩

section Members

variable {levels : Nat} {layout : Layout} {depth : Nat} {reads : Json → Json}
variable {fields : List (String × Json)}

/-- Members are read one after the other, and of two with one name the later one stays. -/
theorem readsFields_writeFields {field : String × Json} (before : List (String × Json))
    (hfields : ∀ f ∈ field :: fields, ReadsAs levels layout (depth + 1) f.2 (reads f.2))
    {blanks : List Char} (hblanks : AllBlank blanks) (rest : List Char) :
    ReadsFields levels before (blanks ++ writeField layout (depth + 1) field
      (writeFields layout (depth + 1) fields (layout.lead depth ++ '\x7d' :: rest)))
      (Fields.update ((field :: fields).map fun f => (Text.reread f.1, reads f.2)) before) rest := by
  induction fields generalizing field before blanks with
  | nil =>
    have hclose := (starts_cons (c := '\x7d') rfl rest).behind (allBlank_lead layout depth)
    have hfield := readsField_writeField (hfields field List.mem_cons_self) hblanks
      (endsValue_lead (Or.inr rfl) layout depth rest)
    exact hfield.lastField hclose
  | cons next fields ih =>
    have htail := ih (Fields.set (Text.reread field.1) (reads field.2) before)
      (fun f hf => hfields f (List.mem_cons_of_mem _ hf)) (allBlank_comma layout (depth + 1))
    refine ReadsField.nextField (readsField_writeField (hfields field List.mem_cons_self) hblanks ?_)
      (starts_comma layout (depth + 1) _) htail
    exact endsValue_comma layout (depth + 1) _

theorem readsAs_obj (reads : Json → Json)
    (hfields : ∀ f ∈ fields, ReadsAs levels layout (depth + 1) f.2 (reads f.2)) :
    ReadsAs (levels + 1) layout depth (.obj fields)
      (.obj (Fields.update (fields.map fun f => (Text.reread f.1, reads f.2)) [])) := by
  intro blanks rest hblanks hrest
  cases fields with
  | nil => exact readsValue_emptyObj ((starts_cons rfl _).behind hblanks)
  | cons field fields =>
    have hlead := allBlank_lead layout (depth + 1)
    have hread := readsFields_writeFields [] hfields hlead rest
    obtain ⟨tail, hfirst⟩ := starts_writeField layout (depth + 1) field
      (writeFields layout (depth + 1) fields (layout.lead depth ++ '\x7d' :: rest))
    exact hread.readsValue ((starts_cons rfl _).behind hblanks) (hfirst.behind hlead)

end Members

theorem Storable.readsBack (hs : Storable levels value) (layout : Layout) (depth : Nat) :
    ReadsAs levels layout depth value value.reread := by
  induction hs generalizing depth with
  | null =>
    intro blanks rest hblanks hrest
    exact (readsScalar_null rest).readsValue ((starts_cons rfl _).behind hblanks) (by decide)
      (by decide) _
  | bool value =>
    intro blanks rest hblanks hrest
    cases value with
    | true =>
      exact (readsScalar_true rest).readsValue ((starts_cons rfl _).behind hblanks) (by decide)
        (by decide) _
    | false =>
      exact (readsScalar_false rest).readsValue ((starts_cons rfl _).behind hblanks) (by decide)
        (by decide) _
  | @int _ value hvalue =>
    intro blanks rest hblanks hrest
    have hread := readsScalar_int hvalue hrest
    obtain ⟨c, tail, htext, hc⟩ := exists_first_int value rest
    obtain ⟨hspace, hbracket, hbrace, -⟩ := not_isSpace_of_number hc
    rw [htext] at hread
    rw [writeValue, htext]
    exact hread.readsValue ((starts_cons hspace tail).behind hblanks) hbracket hbrace _
  | @float _ value hvalue =>
    intro blanks rest hblanks hrest
    have hread := readsScalar_float hvalue hrest
    obtain ⟨c, tail, htext, hc⟩ := exists_first_float hvalue rest
    obtain ⟨hspace, hbracket, hbrace, -⟩ := not_isSpace_of_number hc
    rw [htext] at hread
    rw [writeValue, htext]
    exact hread.readsValue ((starts_cons hspace tail).behind hblanks) hbracket hbrace _
  | str text =>
    intro blanks rest hblanks hrest
    exact (readsScalar_quote text rest).readsValue ((starts_cons rfl _).behind hblanks) (by decide)
      (by decide) _
  | @arr levels items hitems ih =>
    intro blanks rest hblanks hrest
    cases items with
    | nil => exact readsValue_emptyArr ((starts_cons rfl _).behind hblanks)
    | cons item items =>
      have hlead := allBlank_lead layout (depth + 1)
      have hread := readsItems_writeItems (fun i hi => ih i hi (depth + 1)) hlead rest
      obtain ⟨c, tail, hfirst, hc⟩ := starts_writeValue (hitems item List.mem_cons_self) layout
        (depth + 1) (writeItems layout (depth + 1) items (layout.lead depth ++ ']' :: rest))
      exact hread.readsValue ((starts_cons rfl _).behind hblanks) (hfirst.behind hlead) hc
  | @obj levels fields hfields hkeys ih =>
    rw [rereadFields_eq_map] at hkeys
    rw [reread, rereadFields_eq_map, ← Fields.update_nil_of_nodup hkeys]
    exact readsAs_obj reread fun f hf => ih f hf (depth + 1)

theorem ReadsAs.parse_write (h : ReadsAs maxDepth layout 0 value found) :
    parse (value.write layout) = .ok found := by
  have hread : ReadsValue maxDepth (value.write layout).toList found [] := by
    rw [write, String.toList_ofList]
    exact h [] [] (by simp [AllBlank]) (by simp [EndsValue])
  obtain ⟨h, hread⟩ := hread
  have hwithin : read (value.write layout) = .ok found := by
    rw [read, readWithin, hread]
    rfl
  rw [parse, hwithin]

theorem parse_write (hs : Storable maxDepth value) (layout : Layout) :
    parse (value.write layout) = .ok value.reread :=
  (hs.readsBack layout 0).parse_write

theorem parse_pretty (hs : Storable maxDepth value) : parse value.pretty = .ok value.reread :=
  parse_write hs _

end Json

end Sitecheck
