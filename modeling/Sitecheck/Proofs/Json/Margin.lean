import Sitecheck.Proofs.Json.Reading

/-!
# Blanks around a document

The readers skip four characters around a document and no others.  So a text that is
read as a document after all blanks around it have been dropped is read as it stands,
too, exactly if these were the four (`parse_iff_of_strip`).  Other characters that
stand around a document make it unreadable: a backtick, for one, is read nowhere but
inside a string (`opensText_of_parse`).
-/

namespace Sitecheck.Json

variable {text rest digits taken blanks left chars : List Char} {c : Char} {negative : Bool}
  {value : Json} {levels : Nat}

/-! ## A blank behind a text -/

theorem Starts.append (h : Starts text c rest) (more : List Char) :
    Starts (text ++ more) c (rest ++ more) := by
  unfold Starts
  rw [List.dropWhile_append, h]
  rfl

section Blank

variable {blank : Char} (hblank : isSpace blank = true)
variable {text rest : List Char}

include hblank

theorem ne_of_isSpace {c : Char} (hc : isSpace c = false) : blank ≠ c := by
  rintro rfl
  rw [hblank] at hc
  cases hc

theorem isDigit_of_isSpace : blank.isDigit = false := by
  simp only [isSpace, Bool.or_eq_true, decide_eq_true_eq] at hblank
  rcases hblank with ((rfl | rfl) | rfl) | rfl <;> rfl

theorem hexValue?_of_isSpace : hexValue? blank = none := by
  simp only [isSpace, Bool.or_eq_true, decide_eq_true_eq] at hblank
  rcases hblank with ((rfl | rfl) | rfl) | rfl <;> rfl

theorem takeWhile_isDigit_blank (text : List Char) :
    (text ++ [blank]).takeWhile Char.isDigit = text.takeWhile Char.isDigit := by
  have hdigit := isDigit_of_isSpace hblank
  rw [List.takeWhile_append]
  split
  · next hall =>
    rw [List.takeWhile_cons_of_neg (by simp [hdigit]), List.append_nil]
    exact ((List.takeWhile_prefix _).eq_of_length hall).symm
  · rfl

theorem dropWhile_isDigit_blank (text : List Char) :
    (text ++ [blank]).dropWhile Char.isDigit = text.dropWhile Char.isDigit ++ [blank] := by
  have hdigit := isDigit_of_isSpace hblank
  rw [List.dropWhile_append]
  split
  · simp_all
  · rfl

theorem unit?_blank (text : List Char) :
    unit? (text ++ [blank]) = (unit? text).map fun (unit, rest) => (unit, rest ++ [blank]) := by
  have hhex := hexValue?_of_isSpace hblank
  match text with
  | [] | [_] | [_, _] => rfl
  | [a, b, c] => simp [unit?, hhex]
  | a :: b :: c :: d :: rest =>
    simp only [unit?, List.cons_append]
    cases hexValue? a <;> cases hexValue? b <;> cases hexValue? c <;> cases hexValue? d <;> rfl

theorem fraction?_blank (text : List Char) :
    fraction? (text ++ [blank]) =
      (fraction? text).map fun (digits, rest) => (digits, rest ++ [blank]) := by
  have hpoint : blank ≠ '.' := ne_of_isSpace hblank rfl
  match text with
  | [] => simp [fraction?, hpoint]
  | c :: text =>
    by_cases hc : c = '.'
    · subst hc
      simp only [fraction?, List.cons_append, takeWhile_isDigit_blank hblank,
        dropWhile_isDigit_blank hblank]
      split <;> rfl
    · simp [fraction?, hc]

theorem exponentDigits?_blank (negative : Bool) (text : List Char) :
    exponentDigits? negative (text ++ [blank]) =
      (exponentDigits? negative text).map fun (value, rest) => (value, rest ++ [blank]) := by
  simp only [exponentDigits?, takeWhile_isDigit_blank hblank, dropWhile_isDigit_blank hblank]
  split <;> rfl

theorem exponent?_blank (text : List Char) :
    exponent? (text ++ [blank]) =
      (exponent? text).map fun (value, rest) => (value, rest ++ [blank]) := by
  have hlower : blank ≠ 'e' := ne_of_isSpace hblank rfl
  have hupper : blank ≠ 'E' := ne_of_isSpace hblank rfl
  have hplus : blank ≠ '+' := ne_of_isSpace hblank rfl
  have hminus : blank ≠ '-' := ne_of_isSpace hblank rfl
  have hdigits := exponentDigits?_blank hblank
  match text with
  | [] => simp [exponent?, hlower, hupper]
  | [mark] =>
    have hnone : exponentDigits? false [blank] = none := hdigits false []
    by_cases hmark : mark = 'e' ∨ mark = 'E' <;> simp [exponent?, hmark, hplus, hminus, hnone]
    rfl
  | mark :: sign :: text =>
    by_cases hmark : mark = 'e' ∨ mark = 'E'
    · by_cases hsign : sign = '+'
      · subst hsign
        simpa [exponent?, hmark] using hdigits false text
      by_cases hsign' : sign = '-'
      · subst hsign'
        simpa [exponent?, hmark] using hdigits true text
      · simpa [exponent?, hmark, hsign, hsign'] using hdigits false (sign :: text)
    · simp [exponent?, hmark]

theorem exists_of_append_blank {more : List Char} (h : text ++ [blank] = '\\' :: 'u' :: more) :
    ∃ inner, text = '\\' :: 'u' :: inner ∧ more = inner ++ [blank] := by
  rcases text with _ | ⟨a, _ | ⟨b, inner⟩⟩
  · cases h
  · have hu : blank = 'u' := (List.cons.inj (List.cons.inj h).2).1
    exact absurd hu (ne_of_isSpace hblank rfl)
  · cases h
    exact ⟨inner, rfl, rfl⟩

theorem escape?_blank (text : List Char) :
    escape? (text ++ [blank]) =
      (escape? text).map fun (point, rest) => (point, rest ++ [blank]) := by
  have hunit := unit?_blank hblank
  match text with
  | [] =>
    simp only [isSpace, Bool.or_eq_true, decide_eq_true_eq] at hblank
    rcases hblank with ((rfl | rfl) | rfl) | rfl <;> rfl
  | c :: text =>
    by_cases hc : c = 'u'
    · subst hc
      simp only [escape?, List.cons_append, hunit]
      cases unit? text with
      | none => rfl
      | some found =>
        obtain ⟨unit, rest⟩ := found
        simp only [Option.map_some]
        split
        · split
          · next more hmore =>
            obtain ⟨inner, rfl, rfl⟩ := exists_of_append_blank hblank hmore
            simp only [hunit]
            cases unit? inner with
            | none => rfl
            | some =>
              simp only [Option.map_some, apply_ite (Option.map _), List.cons_append]
          · next hother =>
            split
            · exact absurd (List.cons_append ..) (hother _)
            · rfl
        · rfl
    · rw [List.cons_append, escape?.eq_2 _ _ (by simp [hc]), escape?.eq_2 _ _ (by simp [hc])]
      cases shortEscape? c <;> rfl

theorem Spells.append_blank {chars : List Char} (h : Spells text chars rest) :
    Spells (text ++ [blank]) chars (rest ++ [blank]) := by
  induction h with
  | close => exact .close _
  | @escape escaped point text chars rest hescape _ ih =>
    have hmore := escape?_blank hblank escaped
    rw [hescape] at hmore
    exact .escape hmore ih
  | char hquote hslash hlow _ ih => exact .char hquote hslash hlow ih

theorem integerPart_blank {digits : List Char} {rest : Rest text}
    (h : integerPart text = some (digits, rest)) :
    ∃ hlt, integerPart (text ++ [blank]) = some (digits, ⟨rest.1 ++ [blank], hlt⟩) := by
  have hlt : (rest.1 ++ [blank]).length < (text ++ [blank]).length := by
    simp only [List.length_append]
    omega
  refine ⟨hlt, ?_⟩
  unfold integerPart at h
  split at h
  · cases h
    rfl
  · next c tail hzero =>
    split at h
    · next hc =>
      cases h
      change integerPart (c :: (tail ++ [blank])) = _
      rw [integerPart.eq_2 _ _ hzero, if_pos hc]
      simp only [takeWhile_isDigit_blank hblank, dropWhile_isDigit_blank hblank]
    · cases h
  · cases h

theorem readMagnitude_blank {negative : Bool} {value : Json} {rest : Rest text}
    (h : readMagnitude negative text = .ok (value, rest)) :
    ∃ hlt, readMagnitude negative (text ++ [blank]) = .ok (value, ⟨rest.1 ++ [blank], hlt⟩) := by
  have hfraction := fraction?_blank hblank
  have hpower := exponent?_blank hblank
  have hreads : ReadsMagnitude negative (text ++ [blank]) value (rest.1 ++ [blank]) := by
    cases readsMagnitude h with
    | point part fraction power =>
      obtain ⟨_, hpart⟩ := integerPart_blank hblank part
      exact .point hpart (by rw [hfraction, fraction]; rfl) (by rw [hpower, power]; rfl)
    | pointPower part fraction power =>
      obtain ⟨_, hpart⟩ := integerPart_blank hblank part
      exact .pointPower hpart (by rw [hfraction, fraction]; rfl) (by rw [hpower, power]; rfl)
    | power part fraction power =>
      obtain ⟨_, hpart⟩ := integerPart_blank hblank part
      exact .power hpart (by rw [hfraction, fraction]; rfl) (by rw [hpower, power]; rfl)
    | whole part fraction power short =>
      obtain ⟨_, hpart⟩ := integerPart_blank hblank part
      exact .whole hpart (by rw [hfraction, fraction]; rfl) (by rw [hpower, power]; rfl) short
  exact hreads.readMagnitude

theorem Scalar.append_blank {value : Json} (h : Scalar text value rest) :
    Scalar (text ++ [blank]) value (rest ++ [blank]) := by
  cases h with
  | word hmem =>
    rw [List.append_assoc]
    exact .word hmem
  | string hspells => exact .string (hspells.append_blank hblank)
  | number negative hc hread =>
    obtain ⟨hlt, hread⟩ := hread
    rw [List.append_assoc]
    exact .number negative hc (readMagnitude_blank hblank hread)

theorem Derives.append_blank {levels : Nat} {part : Part} (h : Derives levels part text rest) :
    Derives levels part (text ++ [blank]) (rest ++ [blank]) := by
  induction h with
  | scalar hstarts hbracket hbrace hread =>
    exact .scalar (hstarts.append _) hbracket hbrace (hread.append_blank hblank)
  | emptyArr hopen hclose => exact .emptyArr (hopen.append _) (hclose.append _)
  | arr hopen hfirst hc _ ih => exact .arr (hopen.append _) (hfirst.append _) hc ih
  | emptyObj hopen hclose => exact .emptyObj (hopen.append _) (hclose.append _)
  | obj hopen hfirst _ ih => exact .obj (hopen.append _) (hfirst.append _) ih
  | lastItem _ hclose ih => exact .lastItem ih (hclose.append _)
  | nextItem _ hcomma _ ihvalue ihitems => exact .nextItem ihvalue (hcomma.append _) ihitems
  | lastField hquote hkey hcolon _ hclose ih =>
    exact .lastField (hquote.append _) (hkey.append_blank hblank) (hcolon.append _) ih
      (hclose.append _)
  | nextField hquote hkey hcolon _ hcomma _ ihvalue ihfields =>
    exact .nextField (hquote.append _) (hkey.append_blank hblank) (hcolon.append _) ihvalue
      (hcomma.append _) ihfields

end Blank

/-! ## What a reading takes -/

/-- A quotation mark stands before every backtick. -/
def Sheltered (taken : List Char) : Prop :=
  ∀ front back, taken = front ++ '`' :: back → '"' ∈ front

theorem sheltered_of_not_mem (h : '`' ∉ taken) : Sheltered taken := by
  rintro front back rfl
  simp at h

theorem sheltered_quoted {lead : List Char} (h : '`' ∉ lead) (more : List Char) :
    Sheltered (lead ++ '"' :: more) := by
  intro front back heq
  rcases List.append_eq_append_iff.mp heq with ⟨middle, rfl, hmore⟩ | ⟨middle, rfl, hmore⟩
  · cases middle with
    | nil => cases hmore
    | cons =>
      cases hmore
      simp
  · cases middle with
    | nil => cases hmore
    | cons =>
      cases hmore
      simp at h

theorem Sheltered.append {more : List Char} (h : Sheltered taken) (hmore : Sheltered more) :
    Sheltered (taken ++ more) := by
  intro front back heq
  rcases List.append_eq_append_iff.mp heq with ⟨middle, rfl, hback⟩ | ⟨middle, htaken, hback⟩
  · exact List.mem_append_right _ (hmore middle back hback)
  · cases middle with
    | nil => exact absurd (hmore [] back hback.symm) (by simp)
    | cons c middle =>
      cases hback
      exact h front middle htaken

/-- Something is taken from the front of a text to leave this rest, and it ends with a
character that is no blank. -/
def Takes (P : List Char → Prop) (text rest : List Char) : Prop :=
  ∃ front last, text = front ++ last :: rest ∧ Text.isBlank last = false ∧ P (front ++ [last])

section Takes

variable {P Q : List Char → Prop} {text left rest : List Char} {c : Char}

theorem Takes.mono (h : Takes P text rest) (himp : ∀ taken, P taken → Q taken) : Takes Q text rest := by
  obtain ⟨front, last, htext, hlast, htaken⟩ := h
  exact ⟨front, last, htext, hlast, himp _ htaken⟩

theorem Takes.behind (h : Takes P text rest) {lead : List Char}
    (hlead : ∀ taken, P taken → Q (lead ++ taken)) : Takes Q (lead ++ text) rest := by
  obtain ⟨front, last, rfl, hlast, htaken⟩ := h
  exact ⟨lead ++ front, last, by simp, hlast, by simpa using hlead _ htaken⟩

theorem Takes.trans (h : Takes P text left) (h' : Takes P left rest)
    (hP : ∀ taken more, P taken → P more → P (taken ++ more)) : Takes P text rest := by
  obtain ⟨front, last, rfl, -, htaken⟩ := h
  have hboth : Takes P ((front ++ [last]) ++ left) rest := h'.behind fun more => hP _ more htaken
  simpa using hboth

end Takes

theorem isBlank_of_isSpace (h : isSpace c = true) : Text.isBlank c = true := by
  simp only [isSpace, Bool.or_eq_true, decide_eq_true_eq] at h
  rcases h with ((rfl | rfl) | rfl) | rfl <;> rfl

theorem isBlank_of_isDigit (h : c.isDigit = true) : Text.isBlank c = false := by
  have hbounds : 48 ≤ c.toNat ∧ c.toNat ≤ 57 := Char.isDigit_iff_toNat.mp h
  simp [Text.isBlank]
  omega

theorem AllBlank.tick_not_mem (h : AllBlank blanks) : '`' ∉ blanks := fun hmem =>
  absurd (h _ hmem) (by decide)

theorem Starts.exists_blanks (h : Starts text c rest) :
    ∃ blanks, AllBlank blanks ∧ text = blanks ++ c :: rest := by
  refine ⟨text.takeWhile isSpace, fun d hd => List.mem_takeWhile_imp hd, ?_⟩
  rw [← h, List.takeWhile_append_dropWhile]

def TakesPlain (text rest : List Char) : Prop := Takes (fun taken => '`' ∉ taken) text rest

theorem TakesPlain.trans (h : TakesPlain text left) (h' : TakesPlain left rest) :
    TakesPlain text rest :=
  Takes.trans h h' fun _ _ htaken hmore => List.not_mem_append htaken hmore

theorem TakesPlain.cons (h : TakesPlain text rest) (hc : c ≠ '`') :
    TakesPlain (c :: text) rest := by
  have hbehind : TakesPlain ([c] ++ text) rest := Takes.behind h fun _ htaken =>
    List.not_mem_append (by simp [hc.symm]) htaken
  exact hbehind

theorem takesPlain_digits (text : List Char) (h : (text.takeWhile Char.isDigit).isEmpty = false) :
    TakesPlain text (text.dropWhile Char.isDigit) := by
  have hdigits : ∀ c ∈ text.takeWhile Char.isDigit, c.isDigit = true := fun c hc =>
    List.mem_takeWhile_imp hc
  have hne : text.takeWhile Char.isDigit ≠ [] := by simpa using h
  obtain ⟨front, last, htaken⟩ := (List.eq_nil_or_concat' _).resolve_left hne
  have htext : text = (front ++ [last]) ++ text.dropWhile Char.isDigit := by
    rw [← htaken, List.takeWhile_append_dropWhile]
  rw [htaken] at hdigits
  refine ⟨front, last, by simpa using htext, isBlank_of_isDigit (hdigits last (by simp)), ?_⟩
  exact fun hmem => absurd (hdigits _ hmem) (by decide)

theorem takesPlain_of_integerPart {rest : Rest text} (h : integerPart text = some (digits, rest)) :
    TakesPlain text rest.1 := by
  unfold integerPart at h
  split at h
  · cases h
    exact ⟨[], '0', rfl, rfl, by simp⟩
  · next c tail _ =>
    split at h
    · next hc =>
      cases h
      have hdigits := takesPlain_digits (c :: tail) (by simp [hc])
      rwa [List.dropWhile_cons_of_pos hc] at hdigits
    · cases h
  · cases h

theorem takesPlain_of_fraction? (h : fraction? text = some (digits, rest)) :
    TakesPlain text rest := by
  unfold fraction? at h
  split at h
  · dsimp only at h
    split at h
    · cases h
    · next hne =>
      cases h
      exact (takesPlain_digits _ (by simpa using hne)).cons (by decide)
  · cases h

theorem takesPlain_of_exponentDigits? {value : Int}
    (h : exponentDigits? negative text = some (value, rest)) : TakesPlain text rest := by
  unfold exponentDigits? at h
  dsimp only at h
  split at h
  · cases h
  · next hne =>
    obtain ⟨-, rfl⟩ := Prod.mk.inj (Option.some.inj h)
    exact takesPlain_digits _ (by simpa using hne)

theorem takesPlain_of_exponent? {value : Int} (h : exponent? text = some (value, rest)) :
    TakesPlain text rest := by
  unfold exponent? at h
  split at h
  · next sign tail =>
    split at h
    · next hsign =>
      have hne : sign ≠ '`' := by
        rintro rfl
        exact absurd hsign (by decide)
      split at h
      · exact ((takesPlain_of_exponentDigits? h).cons (by decide)).cons hne
      · exact ((takesPlain_of_exponentDigits? h).cons (by decide)).cons hne
      · exact (takesPlain_of_exponentDigits? h).cons hne
    · cases h
  · cases h

theorem takesPlain_of_readMagnitude {rest : Rest text}
    (h : readMagnitude negative text = .ok (value, rest)) :
    TakesPlain text rest.1 := by
  cases readsMagnitude h with
  | point part fraction => exact (takesPlain_of_integerPart part).trans (takesPlain_of_fraction? fraction)
  | pointPower part fraction power =>
    have hpoint := (takesPlain_of_integerPart part).trans (takesPlain_of_fraction? fraction)
    exact hpoint.trans (takesPlain_of_exponent? power)
  | power part _ power => exact (takesPlain_of_integerPart part).trans (takesPlain_of_exponent? power)
  | whole part => exact takesPlain_of_integerPart part

theorem takesPlain_starts (h : Starts text c rest) (hblank : Text.isBlank c = false)
    (hc : c ≠ '`') : TakesPlain text rest := by
  obtain ⟨blanks, hblanks, rfl⟩ := h.exists_blanks
  exact ⟨blanks, c, rfl, hblank, List.not_mem_append hblanks.tick_not_mem (by simp [hc.symm])⟩

def TakesSheltered (text rest : List Char) : Prop := Takes Sheltered text rest

theorem TakesPlain.sheltered (h : TakesPlain text rest) : TakesSheltered text rest :=
  Takes.mono h fun _ => sheltered_of_not_mem

theorem TakesSheltered.trans (h : TakesSheltered text left) (h' : TakesSheltered left rest) :
    TakesSheltered text rest :=
  Takes.trans h h' fun _ _ htaken hmore => htaken.append hmore

theorem Spells.exists_close (h : Spells text chars rest) :
    ∃ front, text = front ++ '"' :: rest := by
  induction h with
  | close => exact ⟨[], rfl⟩
  | escape hescape _ ih =>
    obtain ⟨front, rfl⟩ := ih
    obtain ⟨_, hdenotes⟩ := denotes_of_escape? hescape
    obtain ⟨escape, rfl, -⟩ := hdenotes.cut
    exact ⟨'\\' :: escape ++ front, by simp⟩
  | @char c text chars rest _ _ _ _ ih =>
    obtain ⟨front, rfl⟩ := ih
    exact ⟨c :: front, rfl⟩

theorem Spells.takes {quoted : List Char} (hquote : Starts text '"' quoted)
    (h : Spells quoted chars rest) : TakesSheltered text rest := by
  obtain ⟨blanks, hblanks, rfl⟩ := hquote.exists_blanks
  obtain ⟨front, rfl⟩ := h.exists_close
  refine ⟨blanks ++ '"' :: front, '"', by simp, rfl, ?_⟩
  simpa using sheltered_quoted hblanks.tick_not_mem (front ++ ['"'])

theorem takesPlain_of_words {word : List Char} (h : (word, value) ∈ words) (rest : List Char) :
    TakesPlain (word ++ rest) rest := by
  simp only [words, List.mem_cons, Prod.mk.injEq, List.not_mem_nil, or_false] at h
  have htakes (front : List Char) (last : Char) (hlast : Text.isBlank last = false)
      (htick : '`' ∉ front ++ [last]) : TakesPlain (front ++ last :: rest) rest :=
    ⟨front, last, rfl, hlast, htick⟩
  rcases h with ⟨rfl, -⟩ | ⟨rfl, -⟩ | ⟨rfl, -⟩ | ⟨rfl, -⟩ | ⟨rfl, -⟩ | ⟨rfl, -⟩
  · exact htakes "nul".toList 'l' rfl (by decide)
  · exact htakes "tru".toList 'e' rfl (by decide)
  · exact htakes "fals".toList 'e' rfl (by decide)
  · exact htakes "Na".toList 'N' rfl (by decide)
  · exact htakes "Infinit".toList 'y' rfl (by decide)
  · exact htakes "-Infinit".toList 'y' rfl (by decide)

theorem Scalar.takes (h : Scalar text value rest) :
    (∃ quoted chars, text = '"' :: quoted ∧ Spells quoted chars rest) ∨ TakesPlain text rest := by
  cases h with
  | word hmem => exact .inr (takesPlain_of_words hmem rest)
  | string hspells => exact .inl ⟨_, _, rfl, hspells⟩
  | number negative hc hread =>
    obtain ⟨_, hread⟩ := hread
    have htakes := takesPlain_of_readMagnitude hread
    cases negative with
    | true => exact .inr (htakes.cons (by decide))
    | false => exact .inr htakes

theorem Scalar.isBlank_first {inner : List Char} (h : Scalar (c :: inner) value rest) :
    Text.isBlank c = false := by
  generalize htext : c :: inner = text at h
  cases h with
  | word hmem =>
    simp only [words, List.mem_cons, Prod.mk.injEq, List.not_mem_nil, or_false] at hmem
    rcases hmem with ⟨rfl, -⟩ | ⟨rfl, -⟩ | ⟨rfl, -⟩ | ⟨rfl, -⟩ | ⟨rfl, -⟩ | ⟨rfl, -⟩ <;>
      (cases htext; rfl)
  | string =>
    cases htext
    rfl
  | number negative hc =>
    cases negative with
    | true =>
      cases htext
      rfl
    | false =>
      cases htext
      exact isBlank_of_isDigit hc

theorem Derives.takes {part : Part} (h : Derives levels part text rest) :
    TakesSheltered text rest := by
  have hmark {text rest : List Char} {c : Char} (h : Starts text c rest)
      (hc : Text.isBlank c = false ∧ c ≠ '`') : TakesSheltered text rest :=
    (takesPlain_starts h hc.1 hc.2).sheltered
  induction h with
  | scalar hstarts _ _ hread =>
    rcases hread.takes with ⟨quoted, chars, heq, hspells⟩ | hplain
    · cases heq
      exact hspells.takes hstarts
    · obtain ⟨blanks, hblanks, rfl⟩ := hstarts.exists_blanks
      exact Takes.behind hplain fun taken htaken =>
        sheltered_of_not_mem (List.not_mem_append hblanks.tick_not_mem htaken)
  | emptyArr hopen hclose => exact (hmark hopen (by decide)).trans (hmark hclose (by decide))
  | arr hopen _ _ _ ih => exact (hmark hopen (by decide)).trans ih
  | emptyObj hopen hclose => exact (hmark hopen (by decide)).trans (hmark hclose (by decide))
  | obj hopen _ _ ih => exact (hmark hopen (by decide)).trans ih
  | lastItem _ hclose ih => exact ih.trans (hmark hclose (by decide))
  | nextItem _ hcomma _ ihvalue ihitems =>
    exact (ihvalue.trans (hmark hcomma (by decide))).trans ihitems
  | lastField hquote hkey hcolon _ hclose ih =>
    have hvalue := ((hkey.takes hquote).trans (hmark hcolon (by decide))).trans ih
    exact hvalue.trans (hmark hclose (by decide))
  | nextField hquote hkey hcolon _ hcomma _ ihvalue ihfields =>
    have hvalue := ((hkey.takes hquote).trans (hmark hcolon (by decide))).trans ihvalue
    exact (hvalue.trans (hmark hcomma (by decide))).trans ihfields

/-! ## Documents -/

theorem Derives.append_blanks {part : Part} (h : Derives levels part text rest)
    (hblanks : AllBlank blanks) :
    Derives levels part (text ++ blanks) (rest ++ blanks) := by
  induction blanks generalizing text rest with
  | nil => simpa using h
  | cons blank blanks ih =>
    have hfirst := h.append_blank (hblanks blank List.mem_cons_self)
    simpa using ih hfirst fun c hc => hblanks c (List.mem_cons_of_mem _ hc)

theorem Derives.behind_blanks (h : Derives levels (.value value) text rest)
    (hblanks : AllBlank blanks) :
    Derives levels (.value value) (blanks ++ text) rest := by
  cases h with
  | scalar hstarts hbracket hbrace hread =>
    exact .scalar (hstarts.behind hblanks) hbracket hbrace hread
  | emptyArr hopen hclose => exact .emptyArr (hopen.behind hblanks) hclose
  | arr hopen hfirst hc hitems => exact .arr (hopen.behind hblanks) hfirst hc hitems
  | emptyObj hopen hclose => exact .emptyObj (hopen.behind hblanks) hclose
  | obj hopen hfirst hfields => exact .obj (hopen.behind hblanks) hfirst hfields

theorem Derives.exists_first (h : Derives levels (.value value) text rest) :
    ∃ c inner, Starts text c inner ∧ Text.isBlank c = false := by
  cases h with
  | scalar hstarts _ _ hread => exact ⟨_, _, hstarts, hread.isBlank_first⟩
  | emptyArr hopen => exact ⟨_, _, hopen, rfl⟩
  | arr hopen => exact ⟨_, _, hopen, rfl⟩
  | emptyObj hopen => exact ⟨_, _, hopen, rfl⟩
  | obj hopen => exact ⟨_, _, hopen, rfl⟩

end Sitecheck.Json

namespace Sitecheck.Chars

theorem exists_margins (p : Char → Bool) (text : List Char) :
    ∃ lead tail, text = lead ++ (trim p text ++ tail) ∧ (∀ c ∈ lead, p c = true) ∧
      ∀ c ∈ tail, p c = true := by
  refine ⟨text.takeWhile p, (text.dropWhile p).rtakeWhile p, ?_, ?_, ?_⟩
  · rw [trim, dropEndWhile_eq_rdropWhile, List.rdropWhile_append_rtakeWhile,
      List.takeWhile_append_dropWhile]
  · exact fun c hc => List.mem_takeWhile_imp hc
  · exact fun c hc => List.mem_rtakeWhile_imp hc

theorem trim_of_margins {p : Char → Bool} {lead core tail : List Char} {first last : Char}
    (hlead : ∀ c ∈ lead, p c = true) (htail : ∀ c ∈ tail, p c = true)
    (hfirst : core.head? = some first) (hp : p first = false) (hlast : core.getLast? = some last)
    (hp' : p last = false) : trim p (lead ++ (core ++ tail)) = core := by
  have hfront : (core ++ tail).dropWhile p = core ++ tail := by
    cases core with
    | nil => cases hfirst
    | cons =>
      cases hfirst
      rw [List.cons_append, List.dropWhile_cons_of_neg (by simp [hp])]
  have hback : tail.rdropWhile p = [] := List.rdropWhile_eq_nil_iff.mpr htail
  rw [trim, dropEndWhile_eq_rdropWhile, List.dropWhile_append_of_pos hlead, hfront,
    rdropWhile_append (by simp [hlast, hp']), hback, List.append_nil]

end Sitecheck.Chars

namespace Sitecheck.Json

variable {text : String} {value : Json}

open Chars

theorem trim_eq_of_parse (h : parse text = .ok value) :
    trim Text.isBlank text.toList = trim isSpace text.toList := by
  obtain ⟨rest, hderives, hrest⟩ := derives_of_parse h
  obtain ⟨first, inner, hstarts, hfirst⟩ := hderives.exists_first
  obtain ⟨lead, hlead, htext⟩ := hstarts.exists_blanks
  obtain ⟨front, last, htext', hlast, -⟩ := hderives.takes
  have hspace : ∀ {c : Char}, Text.isBlank c = false → isSpace c = false := by
    intro c hc
    cases hspace : isSpace c with
    | false => rfl
    | true => rw [isBlank_of_isSpace hspace] at hc; cases hc
  -- the last character of the value does not stand before its first
  obtain ⟨core, hcore⟩ : ∃ core, first :: inner = core ++ last :: rest := by
    rw [htext] at htext'
    rcases List.append_eq_append_iff.mp htext' with ⟨middle, -, hmiddle⟩ | ⟨middle, rfl, hmiddle⟩
    · exact ⟨middle, hmiddle⟩
    · cases middle with
      | nil => exact ⟨[], hmiddle.symm⟩
      | cons =>
        have hc := (List.cons.inj hmiddle).1
        have hblank := isBlank_of_isSpace (hlead last (by simp [hc]))
        rw [hlast] at hblank
        cases hblank
  have hhead : (core ++ [last]).head? = some first := by
    cases core with
    | nil | cons => simp [(List.cons.inj hcore).1]
  have hend : (core ++ [last]).getLast? = some last := by simp
  have hmargins : text.toList = lead ++ ((core ++ [last]) ++ rest) := by
    rw [htext, hcore]
    simp
  have hall : ∀ {blanks : List Char}, AllBlank blanks → ∀ c ∈ blanks, Text.isBlank c = true :=
    fun hblanks c hc => isBlank_of_isSpace (hblanks c hc)
  rw [hmargins, trim_of_margins (hall hlead) (hall hrest) hhead hfirst hend hlast,
    trim_of_margins hlead hrest hhead (hspace hfirst) hend (hspace hlast)]

/-- A text that is read when it has been stripped is read as it is exactly if it was
stripped of blanks that the reader skips. -/
theorem parse_iff_of_strip (h : parse (Text.strip text) = .ok value) :
    parse text = .ok value ↔ trim Text.isBlank text.toList = trim isSpace text.toList := by
  refine ⟨trim_eq_of_parse, fun htrim => ?_⟩
  obtain ⟨lead, tail, htext, hlead, htail⟩ := exists_margins isSpace text.toList
  obtain ⟨rest, hderives, hrest⟩ := derives_of_parse h
  have hstrip : (Text.strip text).toList = trim isSpace text.toList := by
    rw [← htrim, Text.strip, Text.trim, String.toList_ofList]
  rw [hstrip] at hderives
  have hwhole := (hderives.append_blanks htail).behind_blanks hlead
  rw [← htext] at hwhole
  exact hwhole.parse_eq (List.forall_mem_append.mpr ⟨hrest, htail⟩)

/-- What stands before opens a string, or a list or an object that has a string in it. -/
def OpensText (before : List Char) : Prop :=
  ∃ c inner, Starts before c inner ∧ (c = '"' ∨ (c = '[' ∨ c = '\x7b') ∧ '"' ∈ inner)

theorem Derives.exists_opening {levels : Nat} {text rest : List Char}
    (h : Derives levels (.value value) text rest) :
    (∃ c inner, Starts text c inner ∧ (c = '"' ∨ c = '[' ∨ c = '\x7b')) ∨ TakesPlain text rest := by
  cases h with
  | scalar hstarts _ _ hread =>
    rcases hread.takes with ⟨quoted, chars, heq, -⟩ | hplain
    · cases heq
      exact .inl ⟨_, _, hstarts, .inl rfl⟩
    · obtain ⟨blanks, hblanks, rfl⟩ := hstarts.exists_blanks
      exact .inr (Takes.behind hplain fun _ htaken =>
        List.not_mem_append hblanks.tick_not_mem htaken)
  | emptyArr hopen => exact .inl ⟨_, _, hopen, .inr (.inl rfl)⟩
  | arr hopen => exact .inl ⟨_, _, hopen, .inr (.inl rfl)⟩
  | emptyObj hopen => exact .inl ⟨_, _, hopen, .inr (.inr rfl)⟩
  | obj hopen => exact .inl ⟨_, _, hopen, .inr (.inr rfl)⟩

theorem sheltered_of_parse (h : parse text = .ok value) : Sheltered text.toList := by
  obtain ⟨rest, hderives, hrest⟩ := derives_of_parse h
  obtain ⟨front, last, htext, -, htaken⟩ := hderives.takes
  have hwhole := htaken.append (sheltered_of_not_mem hrest.tick_not_mem)
  rw [htext]
  simpa using hwhole

/-- A backtick stands nowhere in a document but in a string. -/
theorem opensText_of_parse (h : parse text = .ok value) {before after : List Char}
    (htext : text.toList = before ++ '`' :: after) : OpensText before := by
  have hquote : '"' ∈ before := sheltered_of_parse h before after htext
  obtain ⟨rest, hderives, hrest⟩ := derives_of_parse h
  rcases hderives.exists_opening with ⟨c, inner, hstarts, hc⟩ | ⟨front, last, hplain, -, htaken⟩
  · obtain ⟨blanks, hblanks, hopen⟩ := hstarts.exists_blanks
    have htick : '`' ∉ blanks ++ [c] :=
      List.not_mem_append hblanks.tick_not_mem (by rcases hc with rfl | rfl | rfl <;> decide)
    have hspace : isSpace c = false := by rcases hc with rfl | rfl | rfl <;> rfl
    -- the backtick stands behind the opening
    obtain ⟨inner', rfl⟩ : ∃ inner', before = (blanks ++ [c]) ++ inner' := by
      have heq : (blanks ++ [c]) ++ inner = before ++ '`' :: after := by
        rw [← htext, hopen]
        simp
      rcases List.append_eq_append_iff.mp heq with ⟨middle, hmiddle, -⟩ | ⟨middle, hmiddle, hafter⟩
      · exact ⟨middle, hmiddle⟩
      · cases middle with
        | nil => exact ⟨[], by simpa using hmiddle.symm⟩
        | cons =>
          cases hafter
          exact absurd (by simp [hmiddle]) htick
    refine ⟨c, inner', ?_, ?_⟩
    · simpa using (starts_cons hspace inner').behind hblanks
    · rcases hc with hc | hc
      · exact .inl hc
      · refine .inr ⟨hc, ?_⟩
        rcases List.mem_append.mp hquote with hfront | hinner
        · rcases List.mem_append.mp hfront with hblank | hsame
          · exact absurd (hblanks _ hblank) (by decide)
          · rw [← List.mem_singleton.mp hsame] at hc
            exact absurd hc (by decide)
        · exact hinner
  · -- there would be no backtick in the text at all
    have hnone : '`' ∉ text.toList := by
      rw [hplain, List.append_cons]
      exact List.not_mem_append htaken hrest.tick_not_mem
    exact absurd (by simp [htext]) hnone

end Sitecheck.Json
