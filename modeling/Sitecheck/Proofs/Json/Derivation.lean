import Sitecheck.Proofs.Json.RoundTrip

/-!
# Readings as derivations

A string, a scalar or a value that is read from the front of a text, as a relation with
one rule for each form it can have.  The readers read what the rules derive and nothing
else (`derives_of_readValue`, `Derives.reads`), so that what is known of every document
can be shown by induction on its derivation.
-/

namespace Sitecheck.Json

variable {text chars rest : List Char} {c : Char} {value : Json} {levels : Nat}

/-! ## Strings -/

/-- These characters are spelled up to the closing quote, and this is left. -/
inductive Spells : List Char → List Char → List Char → Prop where
  | close (rest : List Char) : Spells ('"' :: rest) [] rest
  | escape {escaped point text chars rest : List Char} :
    escape? escaped = some (point, text) → Spells text chars rest →
    Spells ('\\' :: escaped) (point ++ chars) rest
  | char {c : Char} {text chars rest : List Char} :
    c ≠ '"' → c ≠ '\\' → ¬ c < ' ' → Spells text chars rest → Spells (c :: text) (c :: chars) rest

theorem Spells.readsText (h : Spells text chars rest) : ReadsText text chars rest := by
  induction h with
  | close rest => exact readsText_quote rest
  | escape hescape _ ih => exact ih.escape hescape
  | char hquote hslash hblank _ ih => exact ih.plain hquote hslash hblank

theorem ReadsText.exists_of_escape {escaped : List Char}
    (h : ReadsText ('\\' :: escaped) chars rest) :
    ∃ point text chars', escape? escaped = some (point, text) ∧ ReadsText text chars' rest ∧
      chars = point ++ chars' := by
  obtain ⟨hlt, h⟩ := h
  rw [readString] at h
  split at h
  · cases h
  · next point text hescape =>
    split at h
    · cases h
    · next chars' left hread =>
      cases h
      exact ⟨point, text, chars', hescape, ⟨left.2, hread⟩, rfl⟩

theorem ReadsText.exists_of_char (hquote : c ≠ '"') (hslash : c ≠ '\\')
    (h : ReadsText (c :: text) chars rest) :
    ∃ chars', ReadsText text chars' rest ∧ chars = c :: chars' := by
  obtain ⟨hlt, h⟩ := h
  rw [readString.eq_4 _ _ hquote hslash] at h
  split at h
  · cases h
  · split at h
    · cases h
    · next chars' left hread =>
      cases h
      exact ⟨chars', ⟨left.2, hread⟩, rfl⟩

theorem ReadsText.spells (h : ReadsText text chars rest) : Spells text chars rest := by
  induction hlength : text.length using Nat.strong_induction_on generalizing text chars with
  | _ length ih =>
  subst hlength
  cases text with
  | nil =>
    obtain ⟨hlt, -⟩ := h
    cases hlt
  | cons c text =>
    by_cases hquote : c = '"'
    · subst hquote
      obtain ⟨_, h⟩ := h
      rw [readString] at h
      cases h
      exact .close _
    by_cases hslash : c = '\\'
    · subst hslash
      obtain ⟨point, tail, chars', hescape, hread, rfl⟩ := h.exists_of_escape
      have hshorter : tail.length < text.length + 1 := Nat.lt_succ_of_lt (escape?_length hescape)
      exact .escape hescape (ih _ hshorter hread rfl)
    · have hblank : ¬ c < ' ' := by
        intro hlow
        obtain ⟨_, h⟩ := h
        rw [readString.eq_4 _ _ hquote hslash, if_pos hlow] at h
        cases h
      obtain ⟨chars', hread, rfl⟩ := h.exists_of_char hquote hslash
      exact .char hquote hslash hblank (ih _ (Nat.lt_succ_self _) hread rfl)

/-! ## Scalars -/

theorem exists_digit_of_readMagnitude {negative : Bool} {rest : Rest text}
    (h : readMagnitude negative text = .ok (value, rest)) :
    ∃ c tail, text = c :: tail ∧ c.isDigit = true := by
  obtain ⟨digits, left, hpart⟩ : ∃ digits left, integerPart text = some (digits, left) := by
    cases readsMagnitude h with
    | point part | pointPower part | power part | whole part => exact ⟨_, _, part⟩
  unfold integerPart at hpart
  split at hpart
  · exact ⟨_, _, rfl, rfl⟩
  · split at hpart
    · next hc => exact ⟨_, _, rfl, hc⟩
    · cases hpart
  · cases hpart

def words : List (List Char × Json) :=
  [("null".toList, .null), ("true".toList, .bool true), ("false".toList, .bool false),
    ("NaN".toList, .float (.nan false)), ("Infinity".toList, .float (.infinite false)),
    ("-Infinity".toList, .float (.infinite true))]

/-- A value that is no container stands at the front of a text. -/
inductive Scalar : List Char → Json → List Char → Prop where
  | word {word rest : List Char} {value : Json} :
    (word, value) ∈ words → Scalar (word ++ rest) value rest
  | string {text chars rest : List Char} :
    Spells text chars rest → Scalar ('"' :: text) (.str (String.ofList chars)) rest
  | number {c : Char} {tail rest : List Char} {value : Json} (negative : Bool) :
    c.isDigit = true → (∃ hlt, readMagnitude negative (c :: tail) = .ok (value, ⟨rest, hlt⟩)) →
    Scalar ((if negative then ['-'] else []) ++ c :: tail) value rest

theorem scalar_of_readWord {word : List Char} {value' : Json} {hword : 0 < word.length}
    {rest : Rest text} (hmem : (word, value) ∈ words)
    (h : readWord word value text hword = .ok (value', rest)) : Scalar text value' rest.1 := by
  unfold readWord at h
  split at h
  · next hprefix =>
    split at h
    · cases h
      obtain ⟨tail, rfl⟩ := List.isPrefixOf_iff_prefix.mp hprefix
      simpa using Scalar.word hmem
    · cases h
  · cases h

theorem ReadsScalar.scalar (h : ReadsScalar text value rest) : Scalar text value rest := by
  obtain ⟨hlt, h⟩ := h
  unfold readScalar at h
  split at h
  any_goals exact scalar_of_readWord (by simp [words]) h
  · split at h
    · next chars left hread =>
      cases h
      exact .string (ReadsText.spells ⟨left.2, hread⟩)
    · cases h
  · next tail _ =>
    cases hread : readMagnitude true tail with
    | error =>
      rw [hread] at h
      cases h
    | ok result =>
      rw [hread] at h
      cases h
      obtain ⟨c, digits, rfl, hc⟩ := exists_digit_of_readMagnitude hread
      exact .number true hc ⟨result.2.2, hread⟩
  · obtain ⟨c, digits, rfl, hc⟩ := exists_digit_of_readMagnitude h
    exact .number false hc ⟨hlt, h⟩

theorem Scalar.readsScalar (h : Scalar text value rest) : ReadsScalar text value rest := by
  cases h with
  | word hmem =>
    simp only [words, List.mem_cons, Prod.mk.injEq, List.not_mem_nil, or_false] at hmem
    rcases hmem with ⟨rfl, rfl⟩ | ⟨rfl, rfl⟩ | ⟨rfl, rfl⟩ | ⟨rfl, rfl⟩ | ⟨rfl, rfl⟩ | ⟨rfl, rfl⟩
    all_goals exact readWord_append (by decide) _ rest
  | string hspells =>
    obtain ⟨hlt, hread⟩ := hspells.readsText
    refine ⟨Nat.lt_succ_of_lt hlt, ?_⟩
    simp only [readScalar, hread]
    rfl
  | number negative hc hread => exact readsScalar_signed negative hc hread

/-! ## Values -/

/-- What is read from the front of a text: a value, the items of a list up to its
bracket, or the members of an object up to its brace, added to those before them. -/
inductive Part where
  | value (found : Json)
  | items (found : List Json)
  | fields (before found : List (String × Json))

/-- A part of so many levels at most is read from the front of a text and leaves a rest. -/
inductive Derives : Nat → Part → List Char → List Char → Prop where
  | scalar {levels : Nat} {text inner rest : List Char} {c : Char} {value : Json} :
    Starts text c inner → c ≠ '[' → c ≠ '\x7b' → Scalar (c :: inner) value rest →
    Derives levels (.value value) text rest
  | emptyArr {levels : Nat} {text inner rest : List Char} :
    Starts text '[' inner → Starts inner ']' rest →
    Derives (levels + 1) (.value (.arr [])) text rest
  | arr {levels : Nat} {text inner tail rest : List Char} {c : Char} {items : List Json} :
    Starts text '[' inner → Starts inner c tail → c ≠ ']' →
    Derives levels (.items items) inner rest → Derives (levels + 1) (.value (.arr items)) text rest
  | emptyObj {levels : Nat} {text inner rest : List Char} :
    Starts text '\x7b' inner → Starts inner '\x7d' rest →
    Derives (levels + 1) (.value (.obj [])) text rest
  | obj {levels : Nat} {text inner tail rest : List Char} {fields : List (String × Json)} :
    Starts text '\x7b' inner → Starts inner '"' tail →
    Derives levels (.fields [] fields) inner rest →
    Derives (levels + 1) (.value (.obj fields)) text rest
  | lastItem {levels : Nat} {text left rest : List Char} {item : Json} :
    Derives levels (.value item) text left → Starts left ']' rest →
    Derives levels (.items [item]) text rest
  | nextItem {levels : Nat} {text left tail rest : List Char} {item : Json} {items : List Json} :
    Derives levels (.value item) text left → Starts left ',' tail →
    Derives levels (.items items) tail rest → Derives levels (.items (item :: items)) text rest
  | lastField {levels : Nat} {text quoted keyLeft start left rest : List Char} {key : String}
      {value : Json} {before : List (String × Json)} :
    Starts text '"' quoted → Spells quoted key.toList keyLeft → Starts keyLeft ':' start →
    Derives levels (.value value) start left → Starts left '\x7d' rest →
    Derives levels (.fields before (Fields.set key value before)) text rest
  | nextField {levels : Nat} {text quoted keyLeft start left tail rest : List Char} {key : String}
      {value : Json} {before fields : List (String × Json)} :
    Starts text '"' quoted → Spells quoted key.toList keyLeft → Starts keyLeft ':' start →
    Derives levels (.value value) start left → Starts left ',' tail →
    Derives levels (.fields (Fields.set key value before) fields) tail rest →
    Derives levels (.fields before fields) text rest

theorem Derives.exists_starts (h : Derives levels (.value value) text rest) :
    ∃ c inner, Starts text c inner := by
  cases h with
  | scalar hfirst => exact ⟨_, _, hfirst⟩
  | emptyArr hopen => exact ⟨_, _, hopen⟩
  | arr hopen => exact ⟨_, _, hopen⟩
  | emptyObj hopen => exact ⟨_, _, hopen⟩
  | obj hopen => exact ⟨_, _, hopen⟩

theorem starts_of_mark? {rest : Rest text} (h : mark? c text = some rest) :
    Starts text c rest.1 := by
  unfold mark? at h
  split at h
  · cases h
  · next d tail hlength hskip =>
    have hdrop : text.dropWhile isSpace = d :: tail := congrArg Subtype.val hskip
    split at h
    · next hd =>
      cases h
      exact hdrop.trans (hd ▸ rfl)
    · cases h

theorem ne_of_mark?_none {d : Char} (h : mark? c text = none) (hstarts : Starts text d rest) :
    d ≠ c := by
  rintro rfl
  rw [hstarts.mark?] at h
  cases h

theorem not_readsScalar_nil : ¬ ReadsScalar [] value rest := by
  rintro ⟨hlt, -⟩
  cases hlt

-- the theorems recurse as the readers do, on what is left of the text
mutual

theorem derives_of_readValue {levels : Nat} {text : List Char} {value : Json} {rest : Rest text}
    (h : readValue levels text = .ok (value, rest)) : Derives levels (.value value) text rest.1 := by
  rw [readValue] at h
  split at h
  · next inner hopen =>
    have hopen := starts_of_mark? hopen
    split at h
    · cases h
    · next levels =>
      split at h
      · next tail hclose =>
        cases h
        exact .emptyArr hopen (starts_of_mark? hclose)
      · next hclose =>
        split at h
        · next items left hitems =>
          cases h
          have hshorter := inner.2
          obtain ⟨c, tail, hfirst, hread⟩ := derives_of_readItems hitems
          exact .arr hopen hfirst (ne_of_mark?_none hclose hfirst) hread
        · cases h
  · next hbracket =>
    split at h
    · next inner hopen =>
      have hopen := starts_of_mark? hopen
      split at h
      · cases h
      · next levels =>
        split at h
        · next tail hclose =>
          cases h
          exact .emptyObj hopen (starts_of_mark? hclose)
        · split at h
          · next fields left hfields =>
            cases h
            have hshorter := inner.2
            obtain ⟨tail, hfirst, hread⟩ := derives_of_readFields hfields
            exact .obj hopen hfirst hread
          · cases h
    · next hbrace =>
      split at h
      next start hlength hskip =>
        have hdrop : text.dropWhile isSpace = start := congrArg Subtype.val hskip
        cases hread : readScalar start with
        | error =>
          rw [hread] at h
          cases h
        | ok result =>
          rw [hread] at h
          cases h
          have hscalar : ReadsScalar start result.1 result.2.1 := ⟨result.2.2, hread⟩
          cases start with
          | nil => exact absurd hscalar not_readsScalar_nil
          | cons =>
            exact .scalar hdrop (ne_of_mark?_none hbracket hdrop)
              (ne_of_mark?_none hbrace hdrop) hscalar.scalar
termination_by 2 * text.length
decreasing_by
  all_goals omega

theorem derives_of_readItems {levels : Nat} {text : List Char} {items : List Json} {rest : Rest text}
    (h : readItems levels text = .ok (items, rest)) :
    ∃ c tail, Starts text c tail ∧ Derives levels (.items items) text rest.1 := by
  rw [readItems] at h
  split at h
  · cases h
  · next item left hitem =>
    have hitem := derives_of_readValue hitem
    obtain ⟨c, tail, hfirst⟩ := hitem.exists_starts
    refine ⟨c, tail, hfirst, ?_⟩
    split at h
    · next hclose =>
      cases h
      exact .lastItem hitem (starts_of_mark? hclose)
    · split at h
      · next tail hcomma =>
        dsimp only at h
        split at h
        · next items' rest' hitems =>
          cases h
          have hshorter := Nat.lt_trans tail.2 left.2
          obtain ⟨-, -, -, hread⟩ := derives_of_readItems hitems
          exact .nextItem hitem (starts_of_mark? hcomma) hread
        · cases h
      · cases h
termination_by 2 * text.length + 1
decreasing_by
  all_goals omega

theorem derives_of_readFields {levels : Nat} {before : List (String × Json)} {text : List Char}
    {fields : List (String × Json)} {rest : Rest text}
    (h : readFields levels before text = .ok (fields, rest)) :
    ∃ tail, Starts text '"' tail ∧ Derives levels (.fields before fields) text rest.1 := by
  rw [readFields] at h
  split at h
  · cases h
  next quoted hquote =>
  split at h
  · cases h
  next key keyLeft hkey =>
  split at h
  · cases h
  next start hcolon =>
  have hstart : start.1.length < text.length :=
    Nat.lt_trans start.2 (Nat.lt_trans keyLeft.2 quoted.2)
  split at h
  · cases h
  next value left hvalue =>
  have hquote := starts_of_mark? hquote
  have hkey : Spells quoted.1 (String.ofList key).toList keyLeft.1 := by
    rw [String.toList_ofList]
    exact ReadsText.spells ⟨keyLeft.2, hkey⟩
  have hcolon := starts_of_mark? hcolon
  have hvalue := derives_of_readValue hvalue
  refine ⟨quoted.1, hquote, ?_⟩
  split at h
  · next tail hclose =>
    cases h
    exact .lastField hquote hkey hcolon hvalue (starts_of_mark? hclose)
  split at h
  · cases h
  next tail hcomma =>
  dsimp only at h
  split at h
  · next rest' hfields =>
    cases h
    have hshorter := Nat.lt_trans tail.2 (Nat.lt_trans left.2 hstart)
    obtain ⟨-, -, hread⟩ := derives_of_readFields hfields
    exact .nextField hquote hkey hcolon hvalue (starts_of_mark? hcomma) hread
  · cases h
termination_by 2 * text.length + 1
decreasing_by
  all_goals omega

end

def Part.Reads (levels : Nat) : Part → List Char → List Char → Prop
  | .value found, text, rest => ReadsValue levels text found rest
  | .items found, text, rest => ReadsItems levels text found rest
  | .fields before found, text, rest => ReadsFields levels before text found rest

theorem Derives.reads {part : Part} (h : Derives levels part text rest) :
    part.Reads levels text rest := by
  induction h with
  | scalar hstarts hbracket hbrace hread => exact hread.readsScalar.readsValue hstarts hbracket hbrace _
  | emptyArr hopen hclose =>
    refine ⟨Nat.lt_trans hclose.length_lt hopen.length_lt, ?_⟩
    rw [readValue, hopen.mark?]
    dsimp only
    rw [hclose.mark?]
    rfl
  | arr hopen hfirst hc _ ih => exact ReadsItems.readsValue ih hopen hfirst hc
  | emptyObj hopen hclose =>
    refine ⟨Nat.lt_trans hclose.length_lt hopen.length_lt, ?_⟩
    rw [readValue, hopen.mark?_of_ne (by decide), hopen.mark?]
    dsimp only
    rw [hclose.mark?]
    rfl
  | obj hopen hfirst _ ih => exact ReadsFields.readsValue ih hopen hfirst
  | lastItem _ hclose ih => exact ReadsValue.lastItem ih hclose
  | nextItem _ hcomma _ ihvalue ihitems => exact ReadsValue.nextItem ihvalue hcomma ihitems
  | lastField hquote hkey hcolon _ hclose ih =>
    exact ReadsField.lastField ⟨_, _, _, hquote, hkey.readsText, hcolon, ih⟩ hclose
  | nextField hquote hkey hcolon _ hcomma _ ihvalue ihfields =>
    exact ReadsField.nextField ⟨_, _, _, hquote, hkey.readsText, hcolon, ihvalue⟩ hcomma ihfields

theorem Derives.mono {levels' : Nat} {part : Part} (h : Derives levels part text rest)
    (hle : levels ≤ levels') : Derives levels' part text rest := by
  -- a bracket takes one level of each
  have hsucc {less most : Nat} (hle : less + 1 ≤ most) : ∃ more, most = more + 1 ∧ less ≤ more :=
    ⟨most - 1, by omega⟩
  induction h generalizing levels' with
  | scalar hstarts hbracket hbrace hscalar => exact .scalar hstarts hbracket hbrace hscalar
  | emptyArr hopen hclose =>
    obtain ⟨more, rfl, -⟩ := hsucc hle
    exact .emptyArr hopen hclose
  | arr hopen hfirst hc _ ih =>
    obtain ⟨more, rfl, hless⟩ := hsucc hle
    exact .arr hopen hfirst hc (ih hless)
  | emptyObj hopen hclose =>
    obtain ⟨more, rfl, -⟩ := hsucc hle
    exact .emptyObj hopen hclose
  | obj hopen hfirst _ ih =>
    obtain ⟨more, rfl, hless⟩ := hsucc hle
    exact .obj hopen hfirst (ih hless)
  | lastItem _ hclose ih => exact .lastItem (ih hle) hclose
  | nextItem _ hcomma _ ihvalue ihitems => exact .nextItem (ihvalue hle) hcomma (ihitems hle)
  | lastField hquote hkey hcolon _ hclose ih => exact .lastField hquote hkey hcolon (ih hle) hclose
  | nextField hquote hkey hcolon _ hcomma _ ihvalue ihfields =>
    exact .nextField hquote hkey hcolon (ihvalue hle) hcomma (ihfields hle)

/-! ## Documents -/

theorem read_of_parse {text : String} (h : parse text = .ok value) :
    Json.read text = .ok value := by
  unfold parse at h
  split at h
  · next hread =>
    cases h
    exact hread
  all_goals cases h

theorem exists_of_parse {text : String} (h : parse text = .ok value) :
    ∃ rest, readValue maxDepth text.toList = .ok (value, rest) ∧ (skip rest.1).1.isEmpty = true := by
  have hread := read_of_parse h
  unfold Json.read readWithin at hread
  split at hread
  · cases hread
  · next found rest hvalue =>
    split at hread
    · next hempty =>
      cases hread
      exact ⟨rest, hvalue, hempty⟩
    · cases hread

theorem derives_of_parse {text : String} (h : parse text = .ok value) :
    ∃ rest, Derives maxDepth (.value value) text.toList rest ∧ AllBlank rest := by
  obtain ⟨rest, hread, hempty⟩ := exists_of_parse h
  have hrest : rest.1.dropWhile isSpace = [] := by simpa [skip] using hempty
  exact ⟨rest.1, derives_of_readValue hread, List.dropWhile_eq_nil_iff.mp hrest⟩

theorem Derives.parse_eq {text : String} (h : Derives maxDepth (.value value) text.toList rest)
    (hrest : AllBlank rest) :
    parse text = .ok value := by
  obtain ⟨hlt, hvalue⟩ := h.reads
  have hempty : (skip rest).1.isEmpty = true := by
    simpa [skip] using List.dropWhile_eq_nil_iff.mpr hrest
  have hread : Json.read text = .ok value := by
    unfold Json.read readWithin
    rw [hvalue]
    exact if_pos hempty
  rw [parse, hread]

end Sitecheck.Json
