/-!
# Binary floating-point numbers

The numbers of the 64-bit binary format, as data: a finite number is a sign, a
mantissa below `2 ^ 53` and a power of two.  Each operation is the exact
rational result, rounded once to the nearest number of the format, ties to the
even mantissa; nothing here depends on a machine's arithmetic.
-/

namespace Sitecheck

/-- The quotient to the nearest natural number, a half to the even neighbour. -/
def divNearest (num den : Nat) : Nat :=
  let quotient := num / den
  let twice := 2 * (num % den)
  if den < twice || (twice == den && quotient % 2 == 1) then quotient + 1 else quotient

inductive Binary64 where
  | nan (negative : Bool)
  | infinite (negative : Bool)
  | finite (negative : Bool) (mantissa : Nat) (exponent : Int)
  deriving DecidableEq, Repr, Inhabited

namespace Binary64

def minExponent : Int := -1074

def maxExponent : Int := 971

def zero (negative : Bool) : Binary64 := .finite negative 0 minExponent

def reaches (num den : Nat) : Int → Bool
  | .ofNat e => decide (den * Nat.pow 2 e ≤ num)
  | .negSucc e => decide (den ≤ num * Nat.pow 2 (e + 1))

/-- The power of two at which `num / den` has a mantissa of 53 bits. -/
def scale (num den : Nat) : Int :=
  let guess : Int := (num.log2 : Int) - den.log2 - 53
  if reaches num den (guess + 53) = true then guess + 1 else guess

/-- `num / den` divided by a power of two, to the nearest natural number. -/
def scaled (num den : Nat) : Int → Nat
  | .ofNat e => divNearest num (den * Nat.pow 2 e)
  | .negSucc e => divNearest (num * Nat.pow 2 (e + 1)) den

def ofRatio (negative : Bool) (num den : Nat) : Binary64 :=
  if num = 0 then zero negative
  else
    let exponent := max (scale num den) minExponent
    let mantissa := scaled num den exponent
    let (mantissa, exponent) :=
      if mantissa = Nat.pow 2 53 then (Nat.pow 2 52, exponent + 1) else (mantissa, exponent)
    if maxExponent < exponent then .infinite negative else .finite negative mantissa exponent

/-! ## Bits -/

def signBit (negative : Bool) : Nat := if negative then Nat.pow 2 63 else 0

def toBits : Binary64 → Nat
  | .nan negative => signBit negative + 0x7ff8000000000000
  | .infinite negative => signBit negative + 0x7ff0000000000000
  | .finite negative mantissa exponent =>
    let magnitude :=
      if mantissa < Nat.pow 2 52 then mantissa
      else (exponent + 1075).toNat * Nat.pow 2 52 + (mantissa - Nat.pow 2 52)
    signBit negative + magnitude

/-! ## Values -/

def toRatio? : Binary64 → Option (Int × Nat)
  | .finite negative mantissa exponent =>
    let (num, den) : Nat × Nat :=
      match exponent with
      | .ofNat e => (mantissa * Nat.pow 2 e, 1)
      | .negSucc e => (mantissa, Nat.pow 2 (e + 1))
    some (if negative then -(num : Int) else num, den)
  | _ => none

def ofSigned (num : Int) (den : Nat) : Binary64 := ofRatio (num < 0) num.natAbs den

def isNegative : Binary64 → Bool
  | .nan negative | .infinite negative | .finite negative _ _ => negative

def isZero : Binary64 → Bool
  | .finite _ mantissa _ => mantissa == 0
  | _ => false

def neg : Binary64 → Binary64
  | .nan negative => .nan !negative
  | .infinite negative => .infinite !negative
  | .finite negative mantissa exponent => .finite (!negative) mantissa exponent

/-- An integer to the nearest number, or nothing if it is out of range. -/
def ofInt? (value : Int) : Option Binary64 :=
  match ofSigned value 1 with
  | .infinite _ => none
  | x => some x

def truncate? (x : Binary64) : Option Int :=
  x.toRatio?.map fun (num, den) => num.tdiv den

/-! ## Order -/

def compare? : Binary64 → Binary64 → Option Ordering
  | .nan _, _ | _, .nan _ => none
  | .infinite a, .infinite b => some (compare b.toNat a.toNat)
  | .infinite a, .finite .. => some (if a then .lt else .gt)
  | .finite .., .infinite b => some (if b then .gt else .lt)
  | x@(.finite ..), y@(.finite ..) =>
    match x.toRatio?, y.toRatio? with
    | some (a, b), some (c, d) => some (compare (a * d) (c * b))
    | _, _ => none

/-! ## Arithmetic -/

/-- A sum of finite numbers; an exact zero is positive unless both are negative. -/
def addRatio (x y : Binary64) (a : Int) (b : Nat) (c : Int) (d : Nat) : Binary64 :=
  let num := a * d + c * b
  if num = 0 then zero (x.isNegative && y.isNegative) else ofSigned num (b * d)

def add (x y : Binary64) : Binary64 :=
  match x, y with
  | .nan s, _ | _, .nan s => .nan s
  | .infinite a, .infinite b => if a == b then .infinite a else .nan true
  | .infinite a, _ | _, .infinite a => .infinite a
  | .finite .., .finite .. =>
    match x.toRatio?, y.toRatio? with
    | some (a, b), some (c, d) => addRatio x y a b c d
    | _, _ => .nan false

def sub (x y : Binary64) : Binary64 := add x y.neg

def mul (x y : Binary64) : Binary64 :=
  let negative := x.isNegative != y.isNegative
  match x, y with
  | .nan s, _ | _, .nan s => .nan s
  | .infinite _, z | z, .infinite _ => if z.isZero then .nan true else .infinite negative
  | .finite .., .finite .. =>
    match x.toRatio?, y.toRatio? with
    | some (a, b), some (c, d) => ofRatio negative (a * c).natAbs (b * d)
    | _, _ => .nan false

def div? (x y : Binary64) : Option Binary64 :=
  let negative := x.isNegative != y.isNegative
  if y.isZero then none
  else
    match x, y with
    | .nan s, _ | _, .nan s => some (.nan s)
    | .infinite _, .infinite _ => some (.nan true)
    | .infinite _, _ => some (.infinite negative)
    | _, .infinite _ => some (zero negative)
    | .finite .., .finite .. =>
      match x.toRatio?, y.toRatio? with
      | some (a, b), some (c, d) => some (ofRatio negative (a.natAbs * d) (b * c.natAbs))
      | _, _ => none

/-- The quotient of two integers, rounded once; none by zero or out of range. -/
def ofQuotient? (num den : Int) : Option Binary64 :=
  if den = 0 then none
  else
    match ofRatio ((num < 0) != (den < 0) && num != 0) num.natAbs den.natAbs with
    | .infinite _ => none
    | x => some x

/-- The remainder of a finite number by a positive natural number, with the sign of
the divisor. -/
def modNat (x : Binary64) (n : Nat) : Binary64 :=
  match x.toRatio? with
  | some (num, den) => ofSigned (num.emod (n * den : Nat)) den
  | none => .nan true

def floor (x : Binary64) : Binary64 :=
  match x.toRatio? with
  | some (num, den) => if num = 0 then x else ofSigned (num.fdiv den) 1
  | none => x

/-- How often a positive natural number goes into a number: the difference to the
remainder is divided in the format and brought to an integer. -/
def floorDivNat (x : Binary64) (n : Nat) : Binary64 :=
  match x.toRatio? with
  | some _ =>
    match (x.sub (x.modNat n)).div? (ofSigned n 1) with
    | some quotient =>
      let floored := quotient.floor
      match (quotient.sub floored).compare? (ofRatio false 1 2) with
      | some .gt => floored.add (ofSigned 1 1)
      | _ => floored
    | none => .nan true
  | none => .nan true

def sqrtNat (n : Nat) : Binary64 :=
  if n = 0 then zero false
  else
    let shift := 2 * (54 + 53)
    let root := (n * Nat.pow 2 shift).sqrt
    let inexact := if root * root = n * Nat.pow 2 shift then 0 else 1
    ofRatio false (2 * root + inexact) (Nat.pow 2 (shift / 2 + 1))

end Binary64

end Sitecheck
