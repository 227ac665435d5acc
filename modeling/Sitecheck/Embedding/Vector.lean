import Sitecheck.Digest.Sha256
import Sitecheck.Number.Binary64
import Sitecheck.Text.Blank

/-!
# Vectors from digests

A text is placed in a space of 384 dimensions by the bits of its digest.  The
vector is scaled to length one, so that every component is zero or one over
the root of the number of set bits.
-/

namespace Sitecheck.Embedding

def textLimit : Nat := 8000

def byteCount : Nat := 48

def bitsOf (byte : UInt8) : List Bool := (List.range 8).map fun i => byte.toNat.testBit i

/-- The bits of a digest, which is begun anew where it ends. -/
def bits (digest : List UInt8) : List Bool :=
  (List.range byteCount).flatMap fun i => bitsOf (digest.getD (i % digest.length) 0)

/-- A component of the vector whose length before scaling is the root of `ones`. -/
def component (ones : Nat) (bit : Bool) : Binary64 :=
  let value : Binary64 := if bit then .ofSigned 1 1 else .zero false
  (value.div? (Binary64.sqrtNat ones)).getD value

/-- The vector of a text; a blank text has none, nor has one without bytes. -/
def hashed (text : String) : List Binary64 :=
  let text := Text.strip text
  if text == "" then []
  else
    match Text.scalar? (Text.take textLimit text) with
    | none => []
    | some text =>
      let bits := bits (Digest.sha256 text)
      bits.map (component (bits.count true))

theorem length_bits (digest : List UInt8) : (bits digest).length = 8 * byteCount := by
  simp only [bits, bitsOf, List.length_flatMap, List.length_map, List.length_range]
  decide

end Sitecheck.Embedding
