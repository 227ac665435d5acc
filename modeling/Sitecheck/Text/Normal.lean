import Sitecheck.Text.Decomposition

/-!
# Unified forms

Texts that differ only in the form of their characters have one unified form:
every character is taken apart, combining marks are put in order, and what
makes up one character is put together again.
-/

namespace Sitecheck.Text.Normal

/-! ## Syllables of Hangul

A syllable has a leading consonant, a vowel and perhaps a trailing consonant,
and its code point is computed from theirs.
-/

namespace Hangul

def syllables : Nat := 0xac00

def leads : Nat := 0x1100

def vowels : Nat := 0x1161

/-- One before the first trailing consonant. -/
def trails : Nat := 0x11a7

def leadCount : Nat := 19

def vowelCount : Nat := 21

/-- The trailing consonants and the lack of one. -/
def trailCount : Nat := 28

def isSyllable (n : Nat) : Bool :=
  syllables ≤ n && n < syllables + leadCount * vowelCount * trailCount

def parts (n : Nat) : List Nat :=
  let index := n - syllables
  let trail := index % trailCount
  [leads + index / (vowelCount * trailCount), vowels + index / trailCount % vowelCount] ++
    (if trail = 0 then [] else [trails + trail])

/-- A lead and a vowel, or a syllable without a trail and a trail. -/
def join? (first second : Nat) : Option Nat :=
  if leads ≤ first && first < leads + leadCount && vowels ≤ second && second < vowels + vowelCount then
    some (syllables + ((first - leads) * vowelCount + (second - vowels)) * trailCount)
  else if isSyllable first && (first - syllables) % trailCount = 0 && trails < second &&
      second < trails + trailCount then
    some (first + (second - trails))
  else none

end Hangul

/-! ## Taking apart -/

/-- What a character is made of; the first of a pair is taken apart in turn. -/
def parts : (depth : Nat) → Char → List Char
  | 0, c => [c]
  | depth + 1, c =>
    match pairs.find? fun pair => pair.2 == c.toNat with
    | some ((first, second), _) => parts depth (Char.ofNat first) ++ [Char.ofNat second]
    | none => decompositions.apply c

def decompose (c : Char) : List Char :=
  -- pairs are nested at most three deep
  if Hangul.isSyllable c.toNat then (Hangul.parts c.toNat).map Char.ofNat else parts 4 c

/-- Puts a mark behind a text that is given from its end, before the marks of
higher classes. -/
def insertMark (c : Char) : List Char → List Char
  | [] => [c]
  | last :: before =>
    if combiningClass c ≠ 0 && combiningClass c < combiningClass last
    then last :: insertMark c before
    else c :: last :: before

def ordered (text : List Char) : List Char := (text.foldl (fun done c => insertMark c done) []).reverse

/-! ## Putting together -/

def join? (first second : Char) : Option Char :=
  match Hangul.join? first.toNat second.toNat with
  | some code => some (Char.ofNat code)
  | none => ((pairs ++ laterPairs).lookup (first.toNat, second.toNat)).map Char.ofNat

/-- Joins a character with what follows, as far as nothing stands between;
`markClass` is the class of the last mark that stayed, or zero. -/
def absorb (base : Char) (markClass : Nat) : List Char → Char × List Char
  | [] => (base, [])
  | c :: rest =>
    let next := combiningClass c
    let keep (markClass : Nat) : Char × List Char :=
      let (base, rest) := absorb base markClass rest
      (base, c :: rest)
    if markClass ≠ 0 && next = 0 then (base, c :: rest)
    else if markClass ≠ 0 && next ≤ markClass then keep markClass
    else
      match join? base c with
      | some joined => absorb joined markClass rest
      | none => if next = 0 then (base, c :: rest) else keep next

theorem length_absorb_le (base : Char) (markClass : Nat) (text : List Char) :
    (absorb base markClass text).2.length ≤ text.length := by
  induction text generalizing base markClass with
  | nil => simp [absorb]
  | cons c rest ih =>
    simp only [absorb]
    split
    · simp
    · split
      · simpa using ih base markClass
      · split
        · exact Nat.le_succ_of_le (ih _ _)
        · split
          · simp
          · simpa using ih base _

def compose : List Char → List Char
  | [] => []
  | c :: rest =>
    let absorbed := absorb c 0 rest
    absorbed.1 :: compose absorbed.2
termination_by text => text.length
decreasing_by exact Nat.lt_succ_of_le (length_absorb_le c 0 rest)

def compatible (text : List Char) : List Char := compose (ordered (text.flatMap decompose))

end Sitecheck.Text.Normal
