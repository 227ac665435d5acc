import Sitecheck.Proofs.Json.Text

/-!
# Plain texts

A text is plain if it holds whole code points, none of which is half of a
surrogate pair.  The code points that characters hold are found again
(`codes_flatMap_charsOf`), so a plain text is read back as it was written
(`Plain.reread`), and so is any text in which no two halves of one character
follow each other (`Holds.reread`).
-/

namespace Sitecheck.Text

variable {text rest chars : List Char} {c : Char} {code : Nat} {codes : List Nat}

/-! ## Cutting off the front -/

/-- Characters that hold whole code points, none of which is half of a pair. -/
inductive Plain : List Char → Prop where
  | nil : Plain []
  | char {c : Char} {text : List Char} : c ≠ mark → Plain text → Plain (c :: text)
  | doubled {text : List Char} : Plain text → Plain (mark :: mark :: text)

theorem plain_of_not_mem (h : mark ∉ text) : Plain text := by
  induction text with
  | nil => exact .nil
  | cons c text ih =>
    obtain ⟨hc, htext⟩ := List.ne_and_not_mem_of_not_mem_cons h
    exact .char (Ne.symm hc) (ih htext)

/-- What is left of a text when characters other than marks are cut off its front. -/
def CutTo (text rest : List Char) : Prop := ∃ front, text = front ++ rest ∧ mark ∉ front

theorem CutTo.refl (text : List Char) : CutTo text text := ⟨[], rfl, by simp⟩

theorem CutTo.trans {rest' : List Char} (h : CutTo text rest) (h' : CutTo rest rest') :
    CutTo text rest' := by
  obtain ⟨front, rfl, hfront⟩ := h
  obtain ⟨front', rfl, hfront'⟩ := h'
  exact ⟨front ++ front', (List.append_assoc ..).symm, by simp [hfront, hfront']⟩

theorem CutTo.cons (hc : c ≠ mark) (h : CutTo text rest) : CutTo (c :: text) rest := by
  obtain ⟨front, rfl, hfront⟩ := h
  exact ⟨c :: front, rfl, by simp [hfront, Ne.symm hc]⟩

theorem cutTo_dropWhile {p : Char → Bool} (hp : p mark = false) (text : List Char) :
    CutTo text (text.dropWhile p) := by
  refine ⟨text.takeWhile p, List.takeWhile_append_dropWhile.symm, fun hmem => ?_⟩
  rw [List.mem_takeWhile_imp hmem] at hp
  cases hp

theorem Plain.tail (h : Plain (c :: text)) (hc : c ≠ mark) : Plain text := by
  cases h with
  | char _ h => exact h
  | doubled => exact absurd rfl hc

theorem Plain.of_cutTo (hplain : Plain text) (h : CutTo text rest) : Plain rest := by
  obtain ⟨front, rfl, hfront⟩ := h
  induction front with
  | nil => exact hplain
  | cons c front ih =>
    obtain ⟨hc, hmore⟩ := List.ne_and_not_mem_of_not_mem_cons hfront
    exact ih hmore (hplain.tail (Ne.symm hc))

/-! ## Code points of a text -/

theorem toNat_ofNat (h : code < 0x110000) (hhalf : isHalf code = false) :
    (Char.ofNat code).toNat = code := by
  have hvalid : code.isValidChar := by
    simp only [isHalf, Bool.and_eq_false_iff, decide_eq_false_iff_not] at hhalf
    omega
  rw [Char.ofNat, dif_pos hvalid]
  rfl

theorem half?_ofNat (h : isHalf code = true) : half? (Char.ofNat (code + 0x800)) = some code := by
  simp only [isHalf, Bool.and_eq_true, decide_eq_true_eq] at h
  have hhalf : isHalf (code + 0x800) = false := by
    simp only [isHalf, Bool.and_eq_false_iff, decide_eq_false_iff_not]
    omega
  rw [half?, toNat_ofNat (by omega) hhalf, if_pos (by simp; omega), Nat.add_sub_cancel]

theorem code_charsOf (h : code < 0x110000) : Text.code (charsOf code) = code := by
  unfold charsOf
  split
  · next hhalf => rw [Text.code, half?_ofNat hhalf, Option.getD_some]
  · next hhalf =>
    split
    · next hmark =>
      rw [hmark]
      rfl
    · exact toNat_ofNat h (Bool.eq_false_iff.mpr hhalf)

theorem points_charsOf_append (h : code < 0x110000) (rest : List Char) :
    points (charsOf code ++ rest) = charsOf code :: points rest := by
  unfold charsOf
  split
  · next hhalf =>
    have hmarked : isMarked (Char.ofNat (code + 0x800)) = true := by
      rw [isMarked, half?_ofNat hhalf]
      exact Bool.or_true _
    simp [points, hmarked]
  · next hhalf =>
    split
    · have hmarked : isMarked mark = true := rfl
      simp [points, hmarked]
    · next hmark =>
      have hne : Char.ofNat code ≠ mark := by
        intro heq
        rw [← heq, toNat_ofNat h (Bool.eq_false_iff.mpr hhalf)] at hmark
        exact hmark rfl
      cases rest with
      | nil => rfl
      | cons => simp [points, hne]

theorem codes_flatMap_charsOf (h : ∀ code ∈ codes, code < 0x110000) :
    Text.codes (String.ofList (codes.flatMap charsOf)) = codes := by
  rw [Text.codes, String.toList_ofList]
  induction codes with
  | nil => rfl
  | cons code codes ih =>
    obtain ⟨hcode, hcodes⟩ := List.forall_mem_cons.mp h
    rw [List.flatMap_cons, points_charsOf_append hcode, List.map_cons, code_charsOf hcode,
      ih hcodes]

/-- The characters hold these code points, and no two of them in a row are the
halves of one character. -/
structure Holds (chars : List Char) (codes : List Nat) : Prop where
  chars : chars = codes.flatMap charsOf
  lt : ∀ code ∈ codes, code < 0x110000
  joined : joined codes = codes

theorem Holds.reread (h : Holds chars codes) :
    Text.reread (String.ofList chars) = String.ofList chars := by
  rw [Text.reread, h.chars, codes_flatMap_charsOf h.lt, h.joined]

theorem joined_cons (h : joined codes = codes)
    (hnext : isHigh code = true → ∀ next ∈ codes.head?, isLow next = false) :
    joined (code :: codes) = code :: codes := by
  cases codes with
  | nil => rfl
  | cons next =>
    have hpair : (isHigh code && isLow next) = false := by
      cases hhigh : isHigh code with
      | false => rfl
      | true => simpa using hnext hhigh next rfl
    rw [joined, hpair, if_neg Bool.false_ne_true, h]

theorem Holds.nil : Holds [] [] := ⟨rfl, by simp, rfl⟩

theorem Holds.cons (hcode : code < 0x110000) (h : Holds chars codes)
    (hnext : isHigh code = true → ∀ next ∈ codes.head?, isLow next = false) :
    Holds (charsOf code ++ chars) (code :: codes) := by
  refine ⟨by rw [List.flatMap_cons, ← h.chars], ?_, joined_cons h.joined hnext⟩
  exact List.forall_mem_cons.mpr ⟨hcode, h.lt⟩

theorem not_high_of_not_half (h : isHalf code = false) : isHigh code = false := by
  simp only [isHalf, isHigh, Bool.and_eq_false_iff, decide_eq_false_iff_not] at *
  omega

theorem not_low_of_not_half (h : isHalf code = false) : isLow code = false := by
  simp only [isHalf, isLow, Bool.and_eq_false_iff, decide_eq_false_iff_not] at *
  omega

theorem toNat_lt (c : Char) : c.toNat < 0x110000 := by
  have hvalid : c.toNat < 0xd800 ∨ 0xdfff < c.toNat ∧ c.toNat < 0x110000 := c.valid
  omega

theorem charsOf_toNat (h : c ≠ mark) : charsOf c.toNat = [c] := by
  have hmark : c.toNat ≠ mark.toNat := fun heq => h (Char.toNat_inj.mp heq)
  simp [charsOf, not_half_toNat, hmark]

theorem charsOf_mark : charsOf mark.toNat = [mark, mark] := by
  simp [charsOf, not_half_toNat]

theorem Plain.holds (h : Plain chars) : ∃ codes, Holds chars codes := by
  induction h with
  | nil => exact ⟨[], .nil⟩
  | @char c _ hc _ ih =>
    obtain ⟨codes, hholds⟩ := ih
    have hhigh := not_high_of_not_half (not_half_toNat c)
    have hcons := hholds.cons (toNat_lt c) (by simp [hhigh])
    rw [charsOf_toNat hc] at hcons
    exact ⟨_, hcons⟩
  | doubled _ ih =>
    obtain ⟨codes, hholds⟩ := ih
    have hhigh := not_high_of_not_half (not_half_toNat mark)
    have hcons := hholds.cons (toNat_lt mark) (by simp [hhigh])
    exact ⟨_, hcons⟩

theorem Plain.reread {text : String} (h : Plain text.toList) : Text.reread text = text := by
  obtain ⟨codes, hholds⟩ := h.holds
  simpa using hholds.reread

/-! ## Letters -/

theorem joined_lt (h : ∀ code ∈ codes, code < 0x110000) :
    ∀ code ∈ joined codes, code < 0x110000 := by
  fun_induction joined codes with
  | case1 => simp
  | case2 => exact h
  | case3 first second rest hpair ih =>
    refine List.forall_mem_cons.mpr ⟨?_, ih fun code hcode => h code (by simp [hcode])⟩
    simp only [isHigh, isLow, Bool.and_eq_true, decide_eq_true_eq] at hpair
    unfold pair
    omega
  | case4 first second rest _ ih =>
    obtain ⟨hfirst, hrest⟩ := List.forall_mem_cons.mp h
    exact List.forall_mem_cons.mpr ⟨hfirst, ih hrest⟩

theorem points_flatMap_charsOf (h : ∀ code ∈ codes, code < 0x110000) :
    points (codes.flatMap charsOf) = codes.map charsOf := by
  induction codes with
  | nil => rfl
  | cons code codes ih =>
    obtain ⟨hcode, hcodes⟩ := List.forall_mem_cons.mp h
    rw [List.flatMap_cons, points_charsOf_append hcode, ih hcodes, List.map_cons]

theorem reread_of_mem_letters {text letter : String} (htext : reread text = text)
    (h : letter ∈ letters text) : reread letter = letter := by
  have hlt : ∀ code ∈ joined (codes text), code < 0x110000 := by
    refine joined_lt fun code hcode => ?_
    obtain ⟨point, -, rfl⟩ := List.mem_map.mp hcode
    exact Json.code_lt point
  have hchars : text.toList = (joined (codes text)).flatMap charsOf := by
    have hlist := congrArg String.toList htext.symm
    rwa [reread, String.toList_ofList] at hlist
  rw [letters, hchars, points_flatMap_charsOf hlt, List.map_map] at h
  obtain ⟨code, hcode, rfl⟩ := List.mem_map.mp h
  have hone : ∀ other ∈ [code], other < 0x110000 := by simpa using hlt code hcode
  have hholds : Holds (charsOf code) [code] := ⟨by simp, hone, rfl⟩
  exact hholds.reread

end Sitecheck.Text
