import Sitecheck.Proofs.Json.Written
import Sitecheck.Proofs.Spec.Literal

/-!
# Scripts as trees

A script is read as words, literals, marks and groups in brackets, without its blanks and
comments.  What is not read: patterns between slashes, templates in backquotes, literals
over several lines and brackets that do not match.
-/

namespace Sitecheck.Spec.Script

variable {c : Char} {text : List Char} {write : List Char → List Char} {layout : Layout}
  {field : String × Json}

inductive Tree where
  | word (text : String)
  | literal
  | mark (c : Char)
  | group (opening : Char) (inner : List Tree)

/-- What a character is part of, with the letters of a word from its end. -/
inductive Mode where
  | code
  | word (letters : List Char)
  | slash
  | comment
  | quoted (quote : Char)
  | escaped (quote : Char)

/-- The trees in the innermost open bracket, and each open bracket with the trees before
it; all rows from their ends. -/
structure State where
  mode : Mode
  row : List Tree
  outer : List (Char × List Tree)

def isWordChar (c : Char) : Bool := c.isAlphanum || c = '_' || c = '$'

def isBlank (c : Char) : Bool := c = ' ' || c = '\t' || isLineEnd c

def openingOf? : Char → Option Char
  | ')' => some '('
  | ']' => some '['
  | '}' => some '{'
  | _ => none

namespace State

def close (s : State) (opening : Char) : Option State :=
  match s.outer with
  | (bracket, before) :: outer =>
    if bracket = opening then some ⟨.code, .group opening s.row.reverse :: before, outer⟩ else none
  | [] => none

/-- A character that is not part of what stands before it. -/
def start (s : State) (c : Char) : Option State :=
  if isWordChar c then some { s with mode := .word [c] }
  else if isBlank c then some { s with mode := .code }
  else if c = '\'' || c = '"' then some { s with mode := .quoted c }
  else if c = '/' then some { s with mode := .slash }
  else if c = '(' || c = '[' || c = '{' then some ⟨.code, [], (c, s.row) :: s.outer⟩
  else if c = '\\' || c = '\x60' then none
  else
    match openingOf? c with
    | some opening => s.close opening
    | none => some ⟨.code, .mark c :: s.row, s.outer⟩

def step (s : State) (c : Char) : Option State :=
  match s.mode with
  | .code => s.start c
  | .word letters =>
    if isWordChar c then some { s with mode := .word (c :: letters) }
    else start ⟨.code, .word (String.ofList letters.reverse) :: s.row, s.outer⟩ c
  | .slash => if c = '/' then some { s with mode := .comment } else none
  | .comment => some (if isLineEnd c then { s with mode := .code } else s)
  | .quoted quote =>
    if c = quote then some ⟨.code, .literal :: s.row, s.outer⟩
    else if c = '\\' then some { s with mode := .escaped quote }
    else if isBreak c then none
    else some s
  | .escaped quote => some { s with mode := .quoted quote }

end State

def scan (s : State) (text : List Char) : Option State := text.foldlM State.step s

def trees? (text : String) : Option (List Tree) :=
  match scan ⟨.code, [], []⟩ text.toList with
  | some ⟨.code, row, []⟩ => some row.reverse
  | _ => none

variable {row : List Tree} {outer : List (Char × List Tree)} {rest : List Char}

theorem scan_cons (s : State) (c : Char) (text : List Char) :
    scan s (c :: text) = (s.step c).bind fun t => scan t text := rfl

/-! ## Words and marks -/

def Delimited (text : List Char) : Prop := ∃ c rest, text = c :: rest ∧ isWordChar c = false

theorem delimited_cons (h : isWordChar c = false) (rest : List Char) : Delimited (c :: rest) :=
  ⟨c, rest, rfl, h⟩

/-- No property of an object begins in the row, and none ends there. -/
def Quiet (trees : List Tree) : Prop := .mark ':' ∉ trees ∧ .mark ',' ∉ trees

def isLoose (c : Char) : Bool := isWordChar c || " +-.".toList.contains c

theorem scan_word (h : Delimited rest) (letters : List Char) :
    scan ⟨.word letters, row, outer⟩ rest =
      scan ⟨.code, .word (String.ofList letters.reverse) :: row, outer⟩ rest := by
  obtain ⟨c, rest, rfl, hc⟩ := h
  rw [scan_cons, scan_cons]
  simp [State.step, hc]

theorem scan_letters (letters : List Char) (h : ∀ c ∈ text, isWordChar c = true)
    (hrest : Delimited rest) :
    scan ⟨.word letters, row, outer⟩ (text ++ rest) =
      scan ⟨.code, .word (String.ofList (letters.reverse ++ text)) :: row, outer⟩ rest := by
  induction text generalizing letters with
  | nil => rw [List.nil_append, scan_word hrest, List.append_nil]
  | cons c text ih =>
    rw [List.forall_mem_cons] at h
    rw [List.cons_append, scan_cons]
    simp only [State.step, h.1, if_true, Option.bind_some]
    rw [ih _ h.2, List.reverse_cons, List.append_assoc, List.singleton_append]

theorem scan_name {text : String} (hne : text ≠ "") (h : ∀ c ∈ text.toList, isWordChar c = true)
    (hrest : Delimited rest) :
    scan ⟨.code, row, outer⟩ (text.toList ++ rest) = scan ⟨.code, .word text :: row, outer⟩ rest := by
  obtain ⟨letters, rfl⟩ : ∃ letters, text = String.ofList letters := ⟨_, String.ofList_toList.symm⟩
  rw [String.toList_ofList] at h ⊢
  cases letters with
  | nil => exact absurd rfl hne
  | cons c letters =>
    rw [List.forall_mem_cons] at h
    have hstart : scan ⟨.code, row, outer⟩ (c :: (letters ++ rest)) =
        scan ⟨.word [c], row, outer⟩ (letters ++ rest) := by
      rw [scan_cons]
      simp [State.step, State.start, h.1]
    rw [List.cons_append, hstart, scan_letters [c] h.2 hrest]
    rfl

theorem Quiet.append {front back : List Tree} (hfront : Quiet front) (hback : Quiet back) :
    Quiet (front ++ back) := by
  simp [Quiet, hfront.1, hfront.2, hback.1, hback.2]

theorem quiet_word (text : String) : Quiet [.word text] := by simp [Quiet]

theorem exists_scan_loose (hloose : isLoose c = true) (hword : isWordChar c = false) :
    ∃ trees, Quiet trees ∧ ∀ (row : List Tree) (outer : List (Char × List Tree)) (rest : List Char),
      scan ⟨.code, row, outer⟩ (c :: rest) = scan ⟨.code, trees ++ row, outer⟩ rest := by
  rw [isLoose, hword, Bool.false_or, List.contains_iff_mem] at hloose
  have hcases : c = ' ' ∨ c = '+' ∨ c = '-' ∨ c = '.' := by simpa using hloose
  rcases hcases with rfl | rfl | rfl | rfl
  · exact ⟨[], by simp [Quiet], fun _ _ _ => rfl⟩
  · exact ⟨[.mark '+'], by simp [Quiet], fun _ _ _ => rfl⟩
  · exact ⟨[.mark '-'], by simp [Quiet], fun _ _ _ => rfl⟩
  · exact ⟨[.mark '.'], by simp [Quiet], fun _ _ _ => rfl⟩

theorem scan_loose (h : ∀ c ∈ text, isLoose c = true) (hrest : Delimited rest) {mode : Mode}
    (hmode : mode = .code ∨ ∃ letters, mode = .word letters) :
    ∃ trees, Quiet trees ∧
      scan ⟨mode, row, outer⟩ (text ++ rest) = scan ⟨.code, trees ++ row, outer⟩ rest := by
  induction text generalizing mode row with
  | nil =>
    rcases hmode with rfl | ⟨letters, rfl⟩
    · exact ⟨[], by simp [Quiet], rfl⟩
    · exact ⟨[_], quiet_word _, scan_word hrest letters⟩
  | cons c text ih =>
    rw [List.forall_mem_cons] at h
    rw [List.cons_append]
    by_cases hc : isWordChar c = true
    · rcases hmode with rfl | ⟨letters, rfl⟩
      all_goals
        rw [scan_cons]
        simp only [State.step, State.start, hc, if_true, Option.bind_some]
        exact ih h.2 (.inr ⟨_, rfl⟩)
    · rw [Bool.not_eq_true] at hc
      have hcode : ∃ front, Quiet front ∧ scan ⟨mode, row, outer⟩ (c :: (text ++ rest)) =
          scan ⟨.code, front ++ row, outer⟩ (c :: (text ++ rest)) := by
        rcases hmode with rfl | ⟨letters, rfl⟩
        · exact ⟨[], by simp [Quiet], rfl⟩
        · exact ⟨[_], quiet_word _, scan_word (delimited_cons hc _) letters⟩
      obtain ⟨front, hfront, hcode⟩ := hcode
      obtain ⟨trees, htrees, hscan⟩ := exists_scan_loose h.1 hc
      rw [hcode, hscan, ← List.append_assoc]
      obtain ⟨more, hmore, hend⟩ := ih h.2 (.inl rfl)
      refine ⟨more ++ (trees ++ front), hmore.append (htrees.append hfront), ?_⟩
      rw [hend]
      simp only [List.append_assoc]

/-! ## Literals -/

/-- The text stays within a literal in single quotes. -/
def fits : List Char → Bool
  | [] => true
  | '\\' :: rest =>
    match rest with
    | [] => false
    | _ :: rest => fits rest
  | c :: rest => c ≠ '\'' && !isBreak c && fits rest

theorem scan_plain {quote : Char} (hquote : c ≠ quote) (hslash : c ≠ '\\')
    (hbreak : isBreak c = false) :
    scan ⟨.quoted quote, row, outer⟩ (c :: rest) = scan ⟨.quoted quote, row, outer⟩ rest := by
  rw [scan_cons]
  simp [State.step, hquote, hslash, hbreak]

theorem scan_fits (h : fits text = true) :
    scan ⟨.quoted '\'', row, outer⟩ (text ++ '\'' :: rest) =
      scan ⟨.code, .literal :: row, outer⟩ rest := by
  fun_induction fits text with
  | case1 => rfl
  | case2 => cases h
  | case3 _ rest ih =>
    rw [← ih h]
    rfl
  | case4 c rest hslash ih =>
    simp only [Bool.and_eq_true, decide_eq_true_eq, Bool.not_eq_true'] at h
    rw [List.cons_append, scan_plain h.1.1 (fun heq => hslash heq) h.1.2, ih h.2]

/-- The text does not end its line. -/
def isRemark (text : List Char) : Bool := text.all fun c => !isLineEnd c

theorem scan_remark (h : isRemark text = true) :
    scan ⟨.comment, row, outer⟩ (text ++ '\n' :: rest) = scan ⟨.code, row, outer⟩ rest := by
  induction text with
  | nil => rfl
  | cons c text ih =>
    simp only [isRemark, List.all_cons, Bool.and_eq_true, Bool.not_eq_true'] at h
    rw [List.cons_append, scan_cons]
    simp only [State.step, h.1, Bool.false_eq_true, if_false, Option.bind_some]
    exact ih h.2

/-! ## Documents -/

open Json

theorem scan_lead (layout : Layout) (depth : Nat) :
    scan ⟨.code, row, outer⟩ (layout.lead depth ++ rest) = scan ⟨.code, row, outer⟩ rest := by
  cases layout with
  | line => rfl
  | block =>
    have hblanks (count : Nat) : scan ⟨.code, row, outer⟩ (List.replicate count ' ' ++ rest) =
        scan ⟨.code, row, outer⟩ rest := by
      induction count with
      | zero => rfl
      | succ count ih => exact ih
    exact hblanks _

theorem delimited_lead (layout : Layout) (depth : Nat) (h : Delimited rest) :
    Delimited (layout.lead depth ++ rest) := by
  cases layout with
  | line => exact h
  | block => exact delimited_cons (by decide) _

theorem scan_escapeUnit {unit : Nat} (h : unit < 0x10000) :
    scan ⟨.quoted '"', row, outer⟩ (escapeUnit unit ++ rest) = scan ⟨.quoted '"', row, outer⟩ rest := by
  have hplain : ∀ digit < 16, digit.digitChar ≠ '"' ∧ digit.digitChar ≠ '\\' ∧
      isBreak digit.digitChar = false := by decide
  have hdigit {digit : Nat} (hlt : digit < 16) {rest : List Char} :
      scan ⟨.quoted '"', row, outer⟩ (digit.digitChar :: rest) = scan ⟨.quoted '"', row, outer⟩ rest :=
    scan_plain (hplain digit hlt).1 (hplain digit hlt).2.1 (hplain digit hlt).2.2
  have hescape {rest : List Char} : scan ⟨.quoted '"', row, outer⟩ ('\\' :: 'u' :: rest) =
      scan ⟨.quoted '"', row, outer⟩ rest := rfl
  rw [escapeUnit, hexDigits_four h]
  simp only [List.cons_append, List.nil_append]
  rw [hescape, hdigit (by omega), hdigit (by omega), hdigit (by omega), hdigit (by omega)]

theorem scan_escape {code : Nat} {chars : List Char} (h : Escape code chars) :
    scan ⟨.quoted '"', row, outer⟩ (chars ++ rest) = scan ⟨.quoted '"', row, outer⟩ rest := by
  cases h with
  | @plain c _ hquote hslash hlow _ =>
    have hbreak : isBreak c = false := by
      simp only [isBreak, Bool.or_eq_false_iff, decide_eq_false_iff_not]
      constructor <;> rintro rfl <;> exact absurd hlow (by decide)
    exact scan_plain hquote hslash hbreak
  | short => rfl
  | unit hsmall => exact scan_escapeUnit hsmall
  | pair hhigh hlow =>
    simp only [Text.isHigh, Text.isLow, Bool.and_eq_true, decide_eq_true_eq] at hhigh hlow
    rw [List.append_assoc, scan_escapeUnit (by omega), scan_escapeUnit (by omega)]

theorem scan_quote (text : String) :
    scan ⟨.code, row, outer⟩ (quote text rest) = scan ⟨.code, .literal :: row, outer⟩ rest := by
  have hpoints (points : List (List Char)) (h : ∀ point ∈ points, point ∈ Text.points text.toList) :
      scan ⟨.quoted '"', row, outer⟩ (points.flatMap escapePoint ++ '"' :: rest) =
        scan ⟨.code, .literal :: row, outer⟩ rest := by
    induction points with
    | nil => rfl
    | cons point points ih =>
      rw [List.forall_mem_cons] at h
      rw [List.flatMap_cons, List.append_assoc, escapePoint_eq_escapeCode h.1,
        scan_escape (escape_escapeCode (code_lt point)), ih h.2]
  exact hpoints _ fun _ hpoint => hpoint

theorem isLoose_of_isNumeric (h : isNumeric c = true) : isLoose c = true := by
  rcases Bool.or_eq_true_iff.mp h with hdigit | hother
  · have halnum : c.isAlphanum = true := show (c.isAlpha || c.isDigit) = true by
      rw [hdigit, Bool.or_true]
    simp [isLoose, isWordChar, halnum]
  · have hall : ∀ c ∈ "+-.INaefinty".toList, isLoose c = true :=
      List.all_eq_true.mp (by decide)
    exact hall c (List.contains_iff_mem.mp hother)

theorem scan_numeric (h : Numeric text) (hrest : Delimited rest) :
    ∃ trees, Quiet trees ∧
      scan ⟨.code, row, outer⟩ (text ++ rest) = scan ⟨.code, trees ++ row, outer⟩ rest :=
  scan_loose (fun c hc => isLoose_of_isNumeric (h c hc)) hrest (.inl rfl)

/-- A text, read before any rest, leaves some trees. -/
def Leaves (P : List Tree → Prop) (write : List Char → List Char) : Prop :=
  ∀ row outer rest, Delimited rest → ∃ trees, P trees ∧
    scan ⟨.code, row, outer⟩ (write rest) = scan ⟨.code, trees ++ row, outer⟩ rest

def Any (_ : List Tree) : Prop := True

theorem Leaves.any {P : List Tree → Prop} (h : Leaves P write) : Leaves Any write := by
  intro row outer rest hrest
  obtain ⟨trees, -, hscan⟩ := h row outer rest hrest
  exact ⟨trees, trivial, hscan⟩

theorem leaves_nil : Leaves Any fun rest => rest := fun _ _ _ _ => ⟨[], trivial, rfl⟩

theorem Leaves.comp {first second : List Char → List Char} (hfirst : Leaves Any first)
    (hsecond : Leaves Any second) (h : ∀ rest, Delimited rest → Delimited (second rest)) :
    Leaves Any fun rest => first (second rest) := by
  intro row outer rest hrest
  obtain ⟨trees, -, hscan⟩ := hfirst row outer (second rest) (h rest hrest)
  obtain ⟨more, -, hmore⟩ := hsecond (trees ++ row) outer rest hrest
  exact ⟨more ++ trees, trivial, by rw [hscan, hmore, List.append_assoc]⟩

theorem Leaves.lead (h : Leaves Any write) (layout : Layout) (depth : Nat) :
    Leaves Any fun rest => layout.lead depth ++ write rest := by
  intro row outer rest hrest
  rw [scan_lead]
  exact h row outer rest hrest

/-- Members that are written one after the other, each with the comma before it. -/
def members {α : Type} (layout : Layout) (depth : Nat) (write : α → List Char → List Char)
    (items : List α) (rest : List Char) : List Char :=
  items.foldr (fun item rest => layout.comma ++ layout.lead depth ++ write item rest) rest

/-- What a container has between its brackets: a first member and others behind it. -/
def between {α : Type} (layout : Layout) (depth : Nat) (write : α → List Char → List Char) (item : α)
    (items : List α) (rest : List Char) : List Char :=
  layout.lead (depth + 1) ++
    write item (members layout (depth + 1) write items (layout.lead depth ++ rest))

theorem writeItems_eq_members (layout : Layout) (depth : Nat) (items : List Json) (rest : List Char) :
    writeItems layout depth items rest = members layout depth (writeValue layout depth) items rest := by
  induction items with
  | nil => rfl
  | cons item items ih => rw [writeItems, ih]; rfl

theorem writeFields_eq_members (layout : Layout) (depth : Nat) (fields : List (String × Json))
    (rest : List Char) :
    writeFields layout depth fields rest = members layout depth (writeField layout depth) fields rest := by
  induction fields with
  | nil => rfl
  | cons field fields ih => rw [writeFields, ih]; rfl

theorem writeValue_arr (layout : Layout) (depth : Nat) (item : Json) (items : List Json)
    (rest : List Char) :
    writeValue layout depth (.arr (item :: items)) rest =
      '[' :: between layout depth (writeValue layout (depth + 1)) item items (']' :: rest) := by
  rw [writeValue, writeItems_eq_members]
  rfl

theorem writeValue_obj (layout : Layout) (depth : Nat) (field : String × Json)
    (fields : List (String × Json)) (rest : List Char) :
    writeValue layout depth (.obj (field :: fields)) rest =
      '{' :: between layout depth (writeField layout (depth + 1)) field fields ('}' :: rest) := by
  rw [writeValue, writeFields_eq_members]
  rfl

section Members

variable {α : Type} {layout : Layout} {depth : Nat} {write : α → List Char → List Char} {items : List α}
variable {more : List Char}

theorem delimited_members (h : Delimited rest) : Delimited (members layout depth write items rest) := by
  cases items with
  | nil => exact h
  | cons => cases layout <;> exact delimited_cons (by decide) _

theorem leaves_members (layout : Layout) (depth : Nat) (h : ∀ item ∈ items, Leaves Any (write item)) :
    Leaves Any (members layout depth write items) := by
  induction items with
  | nil => exact leaves_nil
  | cons item items ih =>
    rw [List.forall_mem_cons] at h
    have hcomma (row : List Tree) (outer : List (Char × List Tree)) (rest : List Char) :
        scan ⟨.code, row, outer⟩ (layout.comma ++ layout.lead depth ++ rest) =
          scan ⟨.code, .mark ',' :: row, outer⟩ rest := by
      cases layout with
      | line => rfl
      | block step => exact scan_lead (.block step) depth
    have hboth := h.1.comp (ih h.2) fun _ => delimited_members
    intro row outer rest hrest
    obtain ⟨trees, -, hscan⟩ := hboth (.mark ',' :: row) outer rest hrest
    refine ⟨trees ++ [.mark ','], trivial, ?_⟩
    rw [members, List.foldr_cons, hcomma, List.append_assoc]
    exact hscan

theorem members_append
    (h : ∀ item ∈ items, ∀ rest, write item (rest ++ more) = write item rest ++ more) :
    members layout depth write items (rest ++ more) = members layout depth write items rest ++ more := by
  induction items with
  | nil => rfl
  | cons item items ih =>
    rw [List.forall_mem_cons] at h
    have htail := ih h.2
    simp only [members, List.foldr_cons, List.append_assoc] at htail ⊢
    rw [htail, h.1]

theorem leaves_between (layout : Layout) (depth : Nat) {item : α}
    (h : ∀ member ∈ item :: items, Leaves Any (write member)) :
    Leaves Any (between layout depth write item items) := by
  rw [List.forall_mem_cons] at h
  have hend : Leaves Any (layout.lead depth ++ ·) := Leaves.lead leaves_nil layout depth
  have hothers := (leaves_members layout (depth + 1) h.2).comp hend fun _ => delimited_lead layout depth
  have hall := h.1.comp hothers fun _ hrest => delimited_members (delimited_lead layout depth hrest)
  exact hall.lead layout (depth + 1)

theorem between_append {item : α}
    (h : ∀ member ∈ item :: items, ∀ rest, write member (rest ++ more) = write member rest ++ more)
    (closing : Char) :
    between layout depth write item items (closing :: (rest ++ more)) =
      between layout depth write item items (closing :: rest) ++ more := by
  rw [List.forall_mem_cons] at h
  rw [between, ← List.cons_append, ← List.append_assoc (layout.lead depth), members_append h.2, h.1,
    between, List.append_assoc]

end Members

theorem writeField_append {depth : Nat} {more : List Char}
    (h : writeValue layout depth field.2 (rest ++ more) = writeValue layout depth field.2 rest ++ more) :
    writeField layout depth field (rest ++ more) = writeField layout depth field rest ++ more := by
  obtain ⟨key, value⟩ := field
  simp [writeField, quote, h]

theorem writeValue_append {value : Json} (h : Regular value) (layout : Layout) (depth : Nat)
    (rest more : List Char) :
    writeValue layout depth value (rest ++ more) = writeValue layout depth value rest ++ more := by
  induction h generalizing depth rest with
  | null => rfl
  | bool value => cases value <;> rfl
  | int | float => simp [writeValue]
  | str => simp [writeValue, quote]
  | @arr items _ ih =>
    cases items with
    | nil => rfl
    | cons =>
      rw [writeValue_arr, writeValue_arr, List.cons_append]
      rw [between_append fun member hmember => ih member hmember (depth + 1)]
  | @obj fields _ ih =>
    cases fields with
    | nil => rfl
    | cons =>
      rw [writeValue_obj, writeValue_obj, List.cons_append]
      rw [between_append fun member hmember rest => writeField_append (ih member hmember (depth + 1) rest)]

theorem leaves_group {opening closing : Char} (hclosing : isWordChar closing = false)
    (hopen : ∀ row outer rest, scan ⟨.code, row, outer⟩ (opening :: rest) =
      scan ⟨.code, [], (opening, row) :: outer⟩ rest)
    (hclose : ∀ row before outer rest, scan ⟨.code, row, (opening, before) :: outer⟩ (closing :: rest) =
      scan ⟨.code, .group opening row.reverse :: before, outer⟩ rest) (h : Leaves Any write) :
    Leaves Quiet fun rest => opening :: write (closing :: rest) := by
  intro row outer rest _
  obtain ⟨trees, -, hscan⟩ := h [] ((opening, row) :: outer) _ (delimited_cons hclosing rest)
  refine ⟨[.group opening (trees ++ []).reverse], by simp [Quiet], ?_⟩
  rw [hopen, hscan, hclose]
  rfl

theorem leaves_writeField {depth : Nat} (h : Leaves Any (writeValue layout depth field.2)) :
    Leaves Any (writeField layout depth field) := by
  intro row outer rest hrest
  obtain ⟨trees, -, hscan⟩ := h (.mark ':' :: .literal :: row) outer rest hrest
  refine ⟨trees ++ [.mark ':', .literal], trivial, ?_⟩
  rw [writeField, scan_quote, List.append_assoc]
  exact hscan

/-- A value is read as one tree, or as the words and marks of a number. -/
theorem leaves_writeValue {value : Json} (h : Regular value) (layout : Layout) (depth : Nat) :
    Leaves Quiet (writeValue layout depth value) := by
  have hword (text : String) (hloose : ∀ c ∈ text.toList, isLoose c = true) :
      Leaves Quiet (text.toList ++ ·) :=
    fun _ _ _ hrest => scan_loose hloose hrest (.inl rfl)
  induction h generalizing depth with
  | null => exact hword "null" (List.all_eq_true.mp (by decide))
  | bool value =>
    cases value with
    | true => exact hword "true" (List.all_eq_true.mp (by decide))
    | false => exact hword "false" (List.all_eq_true.mp (by decide))
  | int value => exact fun _ _ _ => scan_numeric (numeric_intText value)
  | float hvalue => exact fun _ _ _ => scan_numeric (numeric_float hvalue)
  | str text => exact fun _ _ _ _ => ⟨[.literal], by simp [Quiet], scan_quote text⟩
  | @arr items _ ih =>
    cases items with
    | nil => exact leaves_group (by decide) (fun _ _ _ => rfl) (fun _ _ _ _ => rfl) leaves_nil
    | cons item items =>
      have hitems := leaves_between layout depth fun member hmember => (ih member hmember (depth + 1)).any
      simp only [funext (writeValue_arr layout depth item items)]
      exact leaves_group (by decide) (fun _ _ _ => rfl) (fun _ _ _ _ => rfl) hitems
  | @obj fields _ ih =>
    cases fields with
    | nil => exact leaves_group (by decide) (fun _ _ _ => rfl) (fun _ _ _ _ => rfl) leaves_nil
    | cons field fields =>
      have hfields := leaves_between layout depth fun member hmember =>
        leaves_writeField (ih member hmember (depth + 1)).any
      simp only [funext (writeValue_obj layout depth field fields)]
      exact leaves_group (by decide) (fun _ _ _ => rfl) (fun _ _ _ _ => rfl) hfields

end Sitecheck.Spec.Script
