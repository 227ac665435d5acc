import Sitecheck.FileName
import Sitecheck.Path
import Sitecheck.Proofs.Text

/-!
# Names at the end of paths

A name without slashes is one part of a path, so a written path tells the name that it
ends in.
-/

namespace Sitecheck

namespace Chars

variable {c : Char} {text start : List Char}

theorem splitOn_of_not_mem (h : c ∉ text) : splitOn [c] text = [text] := by
  rcases cut?_singleton_cases c text with ⟨hcut, -⟩ | ⟨front, rest, -, rfl, -⟩
  · exact splitOn_of_cut?_none hcut
  · simp at h

theorem splitOn_of_append {front rest : List Char} (h : c ∉ front) :
    splitOn [c] (front ++ c :: rest) = front :: splitOn [c] rest :=
  splitOn_of_cut? (by simp) (cut?_singleton_append h rest)

theorem splitOn_append_of_not_mem {suffix : List Char} (h : c ∉ suffix) (text : List Char) :
    ∃ front last, splitOn [c] text = front ++ [last] ∧
      splitOn [c] (text ++ suffix) = front ++ [last ++ suffix] := by
  fun_induction splitOn [c] text with
  | case1 text hempty => cases hempty
  | case2 text _ hcut =>
    rcases cut?_singleton_cases c text with ⟨-, hnot⟩ | ⟨_, _, hsome, -⟩
    · exact ⟨[], text, rfl, splitOn_of_not_mem (by simp [hnot, h])⟩
    · simp [hcut] at hsome
  | case3 text _ first rest hcut ih =>
    rcases cut?_singleton_cases c text with ⟨hnone, -⟩ | ⟨_, _, hsome, rfl, hnot⟩
    · simp [hcut] at hnone
    · rw [hcut] at hsome
      cases hsome
      obtain ⟨front, last, hsplit, happend⟩ := ih
      refine ⟨first :: front, last, by rw [hsplit]; rfl, ?_⟩
      rw [List.append_assoc, List.cons_append, splitOn_of_append hnot, happend]
      rfl

theorem splitOn_prepend_of_not_mem (h : c ∉ start) (text : List Char) :
    ∃ first rest, splitOn [c] text = first :: rest ∧
      splitOn [c] (start ++ text) = (start ++ first) :: rest := by
  rcases cut?_singleton_cases c text with ⟨-, hnot⟩ | ⟨front, rest, -, rfl, hnot⟩
  · exact ⟨text, [], splitOn_of_not_mem hnot, splitOn_of_not_mem (by simp [h, hnot])⟩
  · refine ⟨front, splitOn [c] rest, splitOn_of_append hnot, ?_⟩
    rw [← List.append_assoc, splitOn_of_append (by simp [h, hnot])]

theorem join_concat (separator : List Char) {parts : List (List Char)} (h : parts ≠ [])
    (part : List Char) : join separator (parts ++ [part]) = join separator parts ++ separator ++ part := by
  fun_induction join separator parts with
  | case1 => exact absurd rfl h
  | case2 => rfl
  | case3 first next parts ih => simp [join, ← ih (by simp)]

theorem takeWhile_slash_append (h : '/' ∉ start) (hne : start ≠ []) (text : List Char) :
    (start ++ text).takeWhile (· = '/') = [] := by
  cases start with
  | nil => exact absurd rfl hne
  | cons c =>
    have hc : c ≠ '/' := fun heq => h (by simp [heq])
    simp [hc]

theorem takeWhile_slash (h : '/' ∉ text) : text.takeWhile (· = '/') = [] := by
  by_cases hne : text = []
  · rw [hne]
    rfl
  · simpa using takeWhile_slash_append h hne []

theorem mem_of_mem_trim {p : Char → Bool} (h : c ∈ trim p text) : c ∈ text :=
  (List.dropWhile_sublist p).subset ((List.rdropWhile_prefix p _).subset h)

end Chars

namespace FileName

theorem plain_not_mem_reserved (c : Char) : plain c ∉ reserved := by
  unfold plain
  split
  · decide
  · next hfree => simpa using hfree

theorem not_mem_ofText {c : Char} (h : c ∈ reserved) (text : String) : c ∉ (ofText text).toList := by
  intro hmem
  simp only [ofText, Text.strip, Text.trim, String.toList_ofList] at hmem
  obtain ⟨d, -, rfl⟩ := List.mem_map.mp (Chars.mem_of_mem_trim hmem)
  exact plain_not_mem_reserved d h

end FileName

namespace Path

variable {text other : String}

/-! ## Names -/

theorem ne_of_length_lt (h : other.length < text.length) : text ≠ other := by
  rintro rfl
  exact lt_irrefl _ h

theorem isPart_of_length (h : 2 ≤ text.length) : isPart text = true := by
  have hempty : text ≠ "" := ne_of_length_lt (lt_of_lt_of_le (by decide) h)
  have hdot : text ≠ "." := ne_of_length_lt (lt_of_lt_of_le (by decide) h)
  simp [isPart, hempty, hdot]

/-- A text that is one part of every path that it is joined to. -/
structure IsName (text : String) : Prop where
  noSlash : '/' ∉ text.toList
  isPart : isPart text = true

theorem ofText_name (h : IsName text) : ofText text = ⟨.working, [text]⟩ := by
  have hslashes := Chars.takeWhile_slash h.noSlash
  have hparts : Text.splitOn "/" text = [text] := by
    have hsplit := Chars.splitOn_of_not_mem h.noSlash
    simp [Text.splitOn, hsplit]
  simp [ofText, hslashes, hparts, h.isPart, Root.ofSlashes]

theorem join_name (path : Path) (h : IsName text) :
    path.join text = ⟨path.root, path.parts ++ [text]⟩ := by
  simp [join, ofText_name h, isAbsolute]

theorem text_concat (root : Root) (front : List String) (name : String) :
    (Path.mk root (front ++ [name])).text =
      root.text ++ (if front = [] then name else Text.join "/" front ++ "/" ++ name) := by
  have hparts : Text.join "/" (front ++ [name]) =
      if front = [] then name else Text.join "/" front ++ "/" ++ name := by
    unfold Text.join
    split
    · next hnil => simp [hnil, Chars.join]
    · next hne =>
      rw [List.map_append, List.map_singleton, Chars.join_concat _ (by simpa using hne)]
      simp [String.append_assoc]
  rw [Path.text, hparts]
  simp

theorem text_join_inj (path : Path) (htext : IsName text) (hother : IsName other) :
    (path.join text).text = (path.join other).text ↔ text = other := by
  rw [join_name path htext, join_name path hother, text_concat, text_concat,
    String.append_right_inj]
  split
  · rfl
  · exact String.append_right_inj _

/-! ## Texts that end in a name -/

def lead (text : String) : List String := (Text.splitOn "/" text).dropLast.filter isPart

section Suffix

variable {suffix : String} (hslash : '/' ∉ suffix.toList) (hlong : 2 ≤ suffix.length)

include hslash

theorem root_append (text : String) : (ofText (text ++ suffix)).root = (ofText text).root := by
  have hnone := Chars.takeWhile_slash hslash
  have htake : (text ++ suffix).toList.takeWhile (· = '/') = text.toList.takeWhile (· = '/') := by
    rw [String.toList_append, List.takeWhile_append, hnone, List.append_nil]
    split
    · next hall => exact (List.takeWhile_prefix _).eq_of_length hall |>.symm
    · rfl
  simp only [ofText, htake]

include hlong

theorem parts_append (text : String) :
    ∃ last, (ofText (text ++ suffix)).parts = lead text ++ [last ++ suffix] := by
  obtain ⟨front, last, hsplit, happend⟩ := Chars.splitOn_append_of_not_mem hslash text.toList
  have hlead : lead text = (front.map String.ofList).filter isPart := by
    simp [lead, Text.splitOn, hsplit]
  have hparts : Text.splitOn "/" (text ++ suffix) =
      front.map String.ofList ++ [String.ofList last ++ suffix] := by
    simp [Text.splitOn, happend]
  refine ⟨String.ofList last, ?_⟩
  rw [hlead]
  simp only [ofText, hparts, List.filter_append]
  have hlast : isPart (String.ofList last ++ suffix) = true :=
    isPart_of_length (by rw [String.length_append]; omega)
  simp [hlast]

theorem text_join_append (path : Path) (text : String) :
    ∃ front, (path.join (text ++ suffix)).text = front ++ suffix := by
  obtain ⟨last, hparts⟩ := parts_append hslash hlong text
  have hconcat (root : Root) (before : List String) :
      ∃ front, (Path.mk root (before ++ [last ++ suffix])).text = front ++ suffix := by
    rw [text_concat]
    split
    · exact ⟨root.text ++ last, by simp only [String.append_assoc]⟩
    · exact ⟨root.text ++ (Text.join "/" before ++ "/" ++ last), by simp only [String.append_assoc]⟩
  unfold join
  dsimp only
  split
  · have hpath := hconcat (ofText (text ++ suffix)).root (lead text)
    rwa [← hparts] at hpath
  · rw [hparts, ← List.append_assoc]
    exact hconcat _ _

end Suffix

end Path

end Sitecheck
