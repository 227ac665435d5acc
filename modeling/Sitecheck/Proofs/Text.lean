import Mathlib.Data.List.DropRight
import Mathlib.Data.List.Infix
import Sitecheck.Text.Blank

/-!
# Cutting and comparing texts

What the text functions do, said on lists of characters: a text starts with
another one if that is a prefix of it, and what is trimmed or cut off leaves a
prefix behind.
-/

namespace Sitecheck.Chars

variable {front text pattern rest old : List Char} {c : Char}

theorem startsWith_iff (pattern text : List Char) :
    startsWith pattern text = true ↔ pattern <+: text := by
  constructor
  · intro h
    obtain ⟨rest, hrest⟩ := Option.isSome_iff_exists.mp h
    exact ⟨rest, (eq_append_of_after? hrest).symm⟩
  · rintro ⟨rest, rfl⟩
    simp [startsWith]

theorem dropEndWhile_eq_rdropWhile (p : Char → Bool) (text : List Char) :
    dropEndWhile p text = text.rdropWhile p := rfl

theorem rdropWhile_append {p : Char → Bool} (h : ∀ c ∈ front.getLast?, p c = false)
    (rest : List Char) :
    (front ++ rest).rdropWhile p = front ++ rest.rdropWhile p := by
  induction rest using List.reverseRecOn with
  | nil =>
    simp only [List.append_nil, List.rdropWhile_nil, List.rdropWhile_eq_self_iff]
    intro hne
    simp [h _ (List.getLast?_eq_some_getLast hne)]
  | append_singleton rest c ih =>
    rw [← List.append_assoc]
    by_cases hc : p c
    · rw [List.rdropWhile_concat_pos _ _ _ hc, List.rdropWhile_concat_pos _ _ _ hc, ih]
    · rw [List.rdropWhile_concat_neg _ _ _ hc, List.rdropWhile_concat_neg _ _ _ hc,
        List.append_assoc]

theorem getLast?_rdropWhile (p : Char → Bool) (text : List Char) :
    ∀ c ∈ (text.rdropWhile p).getLast?, p c = false := by
  intro c hc
  have hne : text.rdropWhile p ≠ [] := by
    rintro hnil
    simp [hnil] at hc
  rw [List.getLast?_eq_some_getLast hne] at hc
  cases hc
  simpa using List.rdropWhile_last_not p text hne

theorem takeWhile_mono (h : front <+: text) (p : Char → Bool) :
    front.takeWhile p <+: text.takeWhile p := by
  obtain ⟨rest, rfl⟩ := h
  rw [List.takeWhile_append]
  split
  · exact (List.takeWhile_prefix p).trans (List.prefix_append _ _)
  · exact List.prefix_refl _

theorem rdropWhile_mono (h : front <+: text) (p : Char → Bool) :
    front.rdropWhile p <+: text.rdropWhile p := by
  obtain ⟨dropped, hdropped⟩ := List.rdropWhile_prefix p front
  obtain ⟨rest, rfl⟩ := h
  have hkeeps : (front ++ rest).rdropWhile p =
      front.rdropWhile p ++ (dropped ++ rest).rdropWhile p := by
    rw [← rdropWhile_append (getLast?_rdropWhile p front), ← List.append_assoc, hdropped]
  rw [hkeeps]
  exact List.prefix_append _ _

theorem cut?_append (h : pattern ≠ []) (rest : List Char) :
    cut? pattern (pattern ++ rest) = some ([], rest) := by
  cases pattern with
  | nil => exact absurd rfl h
  | cons p pattern =>
    have hafter := after?_append (p :: pattern) rest
    simp only [List.cons_append] at hafter ⊢
    simp [cut?, hafter]

theorem cut?_nil (h : pattern ≠ []) : cut? pattern [] = none := by
  simp [cut?, h]

theorem cut?_eq_none_iff (pattern text : List Char) :
    cut? pattern text = none ↔ ¬ pattern <:+: text := by
  induction text with
  | nil => simp [cut?]
  | cons c text ih =>
    have hstarts := startsWith_iff pattern (c :: text)
    rw [List.infix_cons_iff, not_or, ← hstarts, ← ih, cut?]
    unfold startsWith
    cases after? pattern (c :: text) with
    | none | some => simp

theorem splitOn_of_cut? (hne : pattern ≠ []) (h : cut? pattern text = some (front, rest)) :
    splitOn pattern text = front :: splitOn pattern rest := by
  rw [splitOn, dif_neg hne]
  split
  · next hnone => simp [h] at hnone
  · next hsome =>
    rw [h] at hsome
    cases hsome
    rfl

theorem splitOn_of_cut?_none (h : cut? pattern text = none) : splitOn pattern text = [text] := by
  rw [splitOn]
  split
  · rfl
  · split
    · rfl
    · next hsome => simp [h] at hsome

theorem splitOn_nil (pattern : List Char) : splitOn pattern [] = [[]] := by
  by_cases h : pattern = []
  · simp [splitOn, h]
  · exact splitOn_of_cut?_none (cut?_nil h)

theorem replace_of_cut? (hne : old ≠ []) (h : cut? old text = some (front, rest))
    (new : List Char) :
    replace old new text = front ++ new ++ replace old new rest := by
  rw [replace, splitOn_of_cut? hne h, join_cons_of_ne_nil _ _ (splitOn_ne_nil _ _)]
  rfl

theorem replace_of_not_infix (h : ¬ old <:+: text) (new : List Char) :
    replace old new text = text := by
  rw [replace, splitOn_of_cut?_none ((cut?_eq_none_iff old text).mpr h)]
  rfl

theorem replace_nil_sublist (old text : List Char) : (replace old [] text).Sublist text := by
  unfold replace
  fun_induction splitOn old text with
  | case1 | case2 => exact .refl _
  | case3 text _ front rest hcut ih =>
    rw [join_cons_of_ne_nil _ _ (splitOn_ne_nil _ _), eq_append_of_cut? hcut]
    exact ((List.Sublist.refl front).append (List.nil_sublist old)).append ih

theorem replace_append_sublist (old rest : List Char) :
    (replace old [] (old ++ rest)).Sublist rest := by
  by_cases h : old = []
  · subst h
    exact replace_nil_sublist [] rest
  · rw [replace_of_cut? h (cut?_append h rest)]
    exact replace_nil_sublist old rest

theorem replace_self (text : List Char) : replace text [] text = [] := by
  simpa using replace_append_sublist text []

theorem mem_of_mem_join {separator : List Char} {parts : List (List Char)}
    (h : c ∈ join separator parts) : c ∈ separator ∨ ∃ part ∈ parts, c ∈ part := by
  fun_induction join separator parts with
  | case1 => cases h
  | case2 part => exact Or.inr ⟨part, List.mem_cons_self, h⟩
  | case3 part next parts ih =>
    rcases List.mem_append.mp h with hfront | htail
    · rcases List.mem_append.mp hfront with hpart | hseparator
      · exact Or.inr ⟨part, List.mem_cons_self, hpart⟩
      · exact Or.inl hseparator
    · rcases ih htail with hseparator | ⟨found, hfound, hc⟩
      · exact Or.inl hseparator
      · exact Or.inr ⟨found, List.mem_cons_of_mem _ hfound, hc⟩

theorem cut?_singleton_cases (c : Char) (text : List Char) :
    cut? [c] text = none ∧ c ∉ text ∨
      ∃ front rest, cut? [c] text = some (front, rest) ∧ text = front ++ c :: rest ∧ c ∉ front := by
  induction text with
  | nil => simp [cut?]
  | cons d text ih =>
    by_cases hd : c = d
    · subst hd
      exact Or.inr ⟨[], text, by simp [cut?, after?], rfl, by simp⟩
    · have hafter : after? [c] (d :: text) = none := by simp [after?, hd]
      rcases ih with ⟨hcut, hnot⟩ | ⟨front, rest, hcut, rfl, hnot⟩
      · exact Or.inl ⟨by simp [cut?, hafter, hcut], by simp [hd, hnot]⟩
      · exact Or.inr ⟨d :: front, rest, by simp [cut?, hafter, hcut], rfl, by simp [hd, hnot]⟩

theorem cut?_singleton_append (h : c ∉ front) (rest : List Char) :
    cut? [c] (front ++ c :: rest) = some (front, rest) := by
  induction front with
  | nil => simp [cut?, after?]
  | cons d front ih =>
    simp only [List.mem_cons, not_or] at h
    simp [cut?, after?, h.1, ih h.2]

theorem splitOn_singleton_append (c : Char) (front rest : List Char) :
    splitOn [c] (front ++ c :: rest) = splitOn [c] front ++ splitOn [c] rest := by
  fun_induction splitOn [c] front with
  | case1 front hempty => cases hempty
  | case2 front _ hcut =>
    rcases cut?_singleton_cases c front with ⟨-, hnot⟩ | ⟨_, _, hsome, -⟩
    · exact splitOn_of_cut? (by simp) (cut?_singleton_append hnot rest)
    · simp [hcut] at hsome
  | case3 text _ front more hcut ih =>
    rcases cut?_singleton_cases c text with ⟨hnone, -⟩ | ⟨front', more', hsome, rfl, hnot⟩
    · simp [hcut] at hnone
    · rw [hcut] at hsome
      cases hsome
      rw [List.cons_append, ← ih, List.append_assoc]
      exact splitOn_of_cut? (by simp) (cut?_singleton_append hnot _)

theorem not_mem_of_mem_splitOn_singleton {part : List Char} (h : part ∈ splitOn [c] text) :
    c ∉ part := by
  fun_induction splitOn [c] text with
  | case1 text hempty => cases hempty
  | case2 text _ hcut =>
    rcases cut?_singleton_cases c text with ⟨-, hnot⟩ | ⟨_, _, hsome, -⟩
    · rw [List.mem_singleton.mp h]
      exact hnot
    · simp [hcut] at hsome
  | case3 text _ front rest hcut ih =>
    rcases List.mem_cons.mp h with rfl | h
    · rcases cut?_singleton_cases c text with ⟨hnone, -⟩ | ⟨_, _, hsome, -, hnot⟩
      · simp [hcut] at hnone
      · rw [hcut] at hsome
        cases hsome
        exact hnot
    · exact ih h

private theorem flatMap_of_not_mem (new : List Char) (h : c ∉ text) :
    (text.flatMap fun d => if d = c then new else [d]) = text := by
  induction text with
  | nil => rfl
  | cons d text ih =>
    simp only [List.mem_cons, not_or] at h
    simp [Ne.symm h.1, ih h.2]

theorem replace_singleton (c : Char) (new text : List Char) :
    replace [c] new text = text.flatMap fun d => if d = c then new else [d] := by
  unfold replace
  fun_induction splitOn [c] text with
  | case1 text hempty => cases hempty
  | case2 text _ hcut =>
    rcases cut?_singleton_cases c text with ⟨-, hnot⟩ | ⟨front, rest, hsome, -⟩
    · rw [flatMap_of_not_mem new hnot]
      rfl
    · simp [hcut] at hsome
  | case3 text _ front rest hcut ih =>
    rcases cut?_singleton_cases c text with ⟨hnone, -⟩ | ⟨front', rest', hsome, rfl, hnot⟩
    · simp [hcut] at hnone
    · rw [hcut] at hsome
      cases hsome
      rw [join_cons_of_ne_nil _ _ (splitOn_ne_nil _ _), ih, List.flatMap_append,
        flatMap_of_not_mem new hnot]
      simp

end Sitecheck.Chars

namespace Sitecheck.Text

theorem startsWith_iff (pattern text : String) :
    startsWith pattern text = true ↔ pattern.toList <+: text.toList :=
  Chars.startsWith_iff _ _

@[simp] theorem toList_before (mark : Char) (text : String) :
    (before mark text).toList = text.toList.takeWhile (· ≠ mark) := by
  simp [before]

@[simp] theorem toList_trimEnd (p : Char → Bool) (text : String) :
    (trimEnd p text).toList = text.toList.rdropWhile p := by
  simp [trimEnd, Chars.dropEndWhile_eq_rdropWhile]

theorem trimEnd_trimEnd (p : Char → Bool) (text : String) :
    trimEnd p (trimEnd p text) = trimEnd p text := by
  rw [← String.toList_inj]
  simp [List.rdropWhile_idempotent]

theorem toList_collapse (text : String) :
    (collapse text).toList = Chars.join [' '] (Words.ofChars [] text.toList) := by
  simp [collapse, join, words, Function.comp_def]

@[simp] theorem join_nil (separator : String) : join separator [] = "" := rfl

@[simp] theorem join_singleton (separator part : String) : join separator [part] = part := by
  simp [join, Chars.join]

@[simp] theorem join_cons_cons (separator part next : String) (parts : List String) :
    join separator (part :: next :: parts) =
      part ++ separator ++ join separator (next :: parts) := by
  rw [← String.toList_inj]
  simp [join, Chars.join]

end Sitecheck.Text
