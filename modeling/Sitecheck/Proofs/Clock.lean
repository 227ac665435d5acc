import Mathlib
import Sitecheck.Proofs.Json.Text
import Sitecheck.Proofs.Run

/-!
# Identifiers and the clock

An identifier is made from its label and one reading of the clock, and the clock goes on
by one tick with each of them (`freshId_of_timely`).
-/

namespace Sitecheck

namespace Text

variable {text : String}

theorem scalar?_of_not_mem (h : mark ∉ text.toList) : scalar? text = some text := by
  have hchars : unmarked text.toList = text.toList := by
    rw [unmarked, points_eq_map h, List.map_map]
    exact List.map_id _
  rw [scalar?, if_pos (isScalar_of_not_mem h), hchars, String.ofList_toList]

theorem toList_take (h : mark ∉ text.toList) (n : Nat) :
    (take n text).toList = text.toList.take n := by
  rw [take, String.toList_ofList, points_eq_map h, ← List.map_take, ← List.flatMap_def,
    List.flatMap_singleton']

end Text

namespace Digest

theorem toList_hexOfBytes (bytes : List UInt8) :
    (hexOfBytes bytes).toList = bytes.flatMap fun byte =>
      [Nat.digitChar (byte.toNat / 16), Nat.digitChar (byte.toNat % 16)] :=
  String.toList_ofList

theorem hexOfBytes_append (front back : List UInt8) :
    hexOfBytes (front ++ back) = hexOfBytes front ++ hexOfBytes back := by
  rw [← String.toList_inj, String.toList_append, toList_hexOfBytes, List.flatMap_append]
  simp only [toList_hexOfBytes]

theorem length_hexOfBytes (bytes : List UInt8) : (hexOfBytes bytes).toList.length = 2 * bytes.length := by
  rw [toList_hexOfBytes, List.length_flatMap]
  simp [Nat.mul_comm]

theorem mark_not_mem_hexOfBytes (bytes : List UInt8) : Text.mark ∉ (hexOfBytes bytes).toList := by
  have hdigit : ∀ n < 16, Nat.digitChar n ≠ Text.mark := by decide
  rw [toList_hexOfBytes, List.mem_flatMap]
  rintro ⟨byte, -, hmem⟩
  have hbyte : byte.toNat < 256 := byte.toNat_lt
  rcases List.mem_pair.mp hmem with h | h
  · exact hdigit _ (by omega) h.symm
  · exact hdigit _ (by omega) h.symm

theorem hexOfBytes_inj {bytes others : List UInt8} :
    hexOfBytes bytes = hexOfBytes others ↔ bytes = others := by
  have hdigit : ∀ m < 16, ∀ n < 16, Nat.digitChar m = Nat.digitChar n → m = n := by decide
  refine ⟨fun h => ?_, congrArg hexOfBytes⟩
  rw [← String.toList_inj] at h
  simp only [toList_hexOfBytes] at h
  induction bytes generalizing others with
  | nil => cases others <;> simp_all
  | cons byte bytes ih =>
    cases others with
    | nil => simp at h
    | cons other =>
      simp only [List.flatMap_cons, List.cons_append, List.nil_append, List.cons.injEq] at h
      obtain ⟨hhigh, hlow, hrest⟩ := h
      have hbyte : byte.toNat < 256 := byte.toNat_lt
      have hother : other.toNat < 256 := other.toNat_lt
      have hhigh := hdigit _ (by omega) _ (by omega) hhigh
      have hlow := hdigit _ (by omega) _ (by omega) hlow
      rw [ih hrest, UInt8.toNat_inj.mp (show byte.toNat = other.toNat by omega)]

theorem littleEndian_succ (count n : Nat) :
    littleEndian (count + 1) n = UInt8.ofNat n :: littleEndian count (n / 256) := by
  rw [littleEndian, List.range_succ_eq_map, List.map_cons, List.map_map]
  refine congrArg₂ _ rfl (List.map_congr_left fun i _ => ?_)
  have hbyte : n / 256 = n >>> 8 := (Nat.shiftRight_eq_div_pow n 8).symm
  rw [hbyte, ← Nat.shiftRight_add, Function.comp_apply, Nat.mul_succ, Nat.add_comm]

theorem eq_of_littleEndian (count : Nat) {m n : Nat} (hm : m < 256 ^ count) (hn : n < 256 ^ count)
    (h : littleEndian count m = littleEndian count n) : m = n := by
  induction count generalizing m n with
  | zero => omega
  | succ count ih =>
    rw [littleEndian_succ, littleEndian_succ, List.cons.injEq] at h
    have hlow : m % 256 = n % 256 := by simpa using congrArg UInt8.toNat h.1
    have hhigh : m / 256 = n / 256 := ih (by omega) (by omega) h.2
    omega

def Md5.firstWord (message : List UInt8) : UInt32 :=
  ((pieces 63 (padded (littleEndian 8) message)).foldl Md5.block Md5.start).a

theorem take_md5Hex (text : String) :
    Text.take 8 (md5Hex text) = hexOfBytes (littleEndian 4 (Md5.firstWord text.toUTF8.toList).toNat) := by
  have hdigest : ∃ rest, Md5.digest text.toUTF8.toList =
      littleEndian 4 (Md5.firstWord text.toUTF8.toList).toNat ++ rest := ⟨_, rfl⟩
  obtain ⟨rest, hdigest⟩ := hdigest
  have hlength : (hexOfBytes (littleEndian 4 (Md5.firstWord text.toUTF8.toList).toNat)).toList.length =
      8 := by
    rw [length_hexOfBytes, littleEndian, List.length_map, List.length_range]
  rw [← String.toList_inj, md5Hex, Text.toList_take (mark_not_mem_hexOfBytes _), hdigest,
    hexOfBytes_append, String.toList_append, List.take_left' hlength]

end Digest

namespace Moment

theorem mark_not_mem_digits (width n : Nat) : Text.mark ∉ (digits width n).toList := by
  intro h
  have hdigits : (toString n).toList = Nat.toDigits 10 n := by
    exact String.toList_ofList
  simp only [digits, Text.padLeft, Text.repeated, String.toList_append, String.toList_ofList,
    List.mem_append, List.mem_replicate, hdigits] at h
  rcases h with ⟨-, h⟩ | h
  · exact absurd h (by decide)
  · exact absurd (Nat.isDigit_of_mem_toDigits (by decide) (by decide) h) (by decide)

theorem mark_not_mem_clockText (micros : Nat) : Text.mark ∉ (clockText micros).toList := by
  have hdigits := mark_not_mem_digits
  have hcolon : Text.mark ∉ ":".toList := by decide
  have hpoint : Text.mark ∉ ".".toList := by decide
  unfold clockText
  dsimp only
  split <;> simp only [String.toList_append, List.mem_append, hdigits, hcolon, hpoint, or_self,
    not_false_eq_true]
  decide

theorem mark_not_mem_text {moment : Moment} (h : moment.zone = "") :
    Text.mark ∉ moment.text.toList := by
  have hdash : Text.mark ∉ "-".toList := by decide
  have hletter : Text.mark ∉ "T".toList := by decide
  have hnone : Text.mark ∉ "".toList := by decide
  unfold text
  simp only [h, String.toList_append, List.mem_append, mark_not_mem_digits, mark_not_mem_clockText,
    hdash, hletter, hnone, or_self, not_false_eq_true]

def identifier (label : String) (moment : Moment) : String :=
  label ++ Text.take 8 (Digest.md5Hex (label ++ moment.text))

def stamp (label : String) (moment : Moment) : UInt32 :=
  Digest.Md5.firstWord (label ++ moment.text).toUTF8.toList

/-- An identifier is as good as a word of 32 bits. -/
theorem identifier_inj (label : String) (moment other : Moment) :
    moment.identifier label = other.identifier label ↔ moment.stamp label = other.stamp label := by
  simp only [identifier, String.append_right_inj, Digest.take_md5Hex, Digest.hexOfBytes_inj]
  constructor
  · intro h
    exact UInt32.toNat_inj.mp
      (Digest.eq_of_littleEndian 4 (UInt32.toNat_lt _) (UInt32.toNat_lt _) h)
  · intro h
    unfold stamp at h
    rw [h]

@[simp] theorem later_zero (moment : Moment) : moment.later 0 = moment := by
  simp [later]

theorem later_later (moment : Moment) (first second : Int) :
    (moment.later first).later second = moment.later (first + second) := by
  simp [later, Int.add_assoc]

end Moment

namespace Surroundings

variable {s : Surroundings} {count more : Nat}

def reading (s : Surroundings) (number : Nat) : Moment := s.now.later (number * s.tick)

/-- The clock has been read some times, and nothing else has happened. -/
def after (s : Surroundings) (count : Nat) : Surroundings := { s with now := s.reading count }

@[simp] theorem after_zero (s : Surroundings) : s.after 0 = s := by
  simp [after, reading]

theorem reading_after (s : Surroundings) (count number : Nat) :
    (s.after count).reading number = s.reading (count + number) := by
  simp only [reading, after, Moment.later_later]
  congr 1
  exact (Int.add_mul _ _ _).symm

theorem after_after (s : Surroundings) (count more : Nat) :
    (s.after count).after more = s.after (count + more) := by
  have hreading := reading_after s count more
  simp only [after] at hreading ⊢
  rw [hreading]

/-- The clock writes no distance from universal time, and its next readings lie in the calendar. -/
structure Timely (s : Surroundings) (count : Nat) : Prop where
  plain : s.now.zone = ""
  inRange : ∀ number < count, (s.reading number).isInRange = true

theorem Timely.of_add_left (h : s.Timely (count + more)) : s.Timely count :=
  ⟨h.plain, fun number hnumber => h.inRange number (by omega)⟩

theorem Timely.of_add_right (h : s.Timely (count + more)) :
    (s.after count).Timely more where
  plain := h.plain
  inRange number hnumber := by
    rw [reading_after]
    exact h.inRange _ (by omega)

end Surroundings

namespace Run

theorem freshId_of_timely {s : Surroundings} (h : s.Timely 1) {label : String}
    (hlabel : Text.mark ∉ label.toList) :
    freshId label s = (.ok ((s.reading 0).identifier label), s.after 1) := by
  have hnow : s.reading 0 = s.now := by simp [Surroundings.reading]
  have hrange : s.now.isInRange = true := hnow ▸ h.inRange 0 Nat.zero_lt_one
  have hscalar : Text.scalar? (label ++ s.now.text) = some (label ++ s.now.text) := by
    refine Text.scalar?_of_not_mem ?_
    rw [String.toList_append, List.mem_append, not_or]
    exact ⟨hlabel, Moment.mark_not_mem_text h.plain⟩
  have hafter : s.after 1 = { s with now := s.now.later s.tick } := by
    simp [Surroundings.after, Surroundings.reading]
  unfold freshId
  rw [bind_apply, timestamp_apply, if_pos hrange]
  dsimp only
  rw [hscalar, hnow, hafter]
  rfl

end Run

end Sitecheck
