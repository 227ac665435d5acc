import Sitecheck.Json.Access

/-!
# Arithmetic on untyped values

Whole numbers, binary numbers and truth values count as numbers.  A text takes
part where it reads as one, or where it is repeated.
-/

namespace Sitecheck.Json

def unsupported (operator : String) (left right : Json) : Fault :=
  .wrongKind ("unsupported operand type(s) for " ++ operator ++ ": '" ++ left.kindName ++
    "' and '" ++ right.kindName ++ "'")

def truncateFloat (x : Binary64) : Except Fault Int :=
  match x, x.truncate? with
  | .infinite _, _ => .error .overflow
  | _, some n => .ok n
  | _, none => .error (.refused "cannot convert float NaN to integer")

def intOfReading : Numeral.IntReading → Except Fault Int
  | .value n => .ok n
  | .invalid => .error .numeral
  | .tooLong digits => .error (.longInteger digits)

/-- A value as a whole number; fractions are cut off and numerals read. -/
def truncated : Json → Except Fault Int
  | .int n => .ok n
  | .bool value => .ok (if value then 1 else 0)
  | .float x => truncateFloat x
  | .str text =>
    intOfReading (Numeral.readInt text)
  | other => .error (.wrongKind ("int() argument must be a number, not '" ++ other.kindName ++ "'"))

def floatOfInt (n : Int) : Except Fault Binary64 :=
  match Binary64.ofInt? n with
  | some x => .ok x
  | none => .error .overflow

/-- A whole number times a value; a text is repeated so often. -/
def times (n : Int) : Json → Except Fault Json
  | .int m => .ok (.int (n * m))
  | .bool value => .ok (.int (if value then n else 0))
  | .float x => do return .float ((← floatOfInt n).mul x)
  | .str text => .ok (.str (String.join (List.replicate n.toNat text)))
  | other => .error (unsupported "*" (.int n) other)

def maxSize : Nat := 0x7fffffffffffffff

def isCount (n : Int) : Bool := -(maxSize + 1 : Int) ≤ n && n ≤ maxSize

def memorySize : Nat := 0x1000000000

/-- The whole number in a whole number times a value; a text or a list is repeated
so often, if there is room for that. -/
def truncatedTimes (n : Int) : Json → Except Fault Int
  | .str text =>
    let size := n.toNat * Text.size text
    if !isCount n || maxSize < size then .error .overflow
    else if memorySize < size then .error .noMemory
    else intOfReading (if text == "" then .invalid else Numeral.readCopies n.toNat text)
  | .arr items =>
    if !isCount n then .error .overflow
    else if memorySize < n.toNat * items.length then .error .noMemory
    else truncated (.arr items)
  | value => do truncated (← times n value)

def dividedBy (value : Json) (n : Nat) : Except Fault Binary64 :=
  let quotient (num : Int) : Except Fault Binary64 :=
    match Binary64.ofQuotient? num n with
    | some x => .ok x
    | none => .error .overflow
  match value with
  | .int num => quotient num
  | .bool truth => quotient (if truth then 1 else 0)
  | .float x => .ok ((x.div? (Binary64.ofSigned n 1)).getD x)
  | other => .error (unsupported "/" other (.int n))

def fixed (places : Nat) : Json → Except Fault String
  | .int n => do return fixedText places (← floatOfInt n)
  | .bool value => .ok (fixedText places (Binary64.ofSigned (if value then 1 else 0) 1))
  | .float x => .ok (fixedText places x)
  | .str _ => .error (.refused "Unknown format code 'f' for object of type 'str'")
  | other => .error (.wrongKind ("unsupported format string passed to " ++ other.kindName))

inductive Magnitude where
  | undefined
  | infinite (negative : Bool)
  | ratio (num : Int) (den : Nat)

def magnitude? : Json → Option Magnitude
  | .int n => some (.ratio n 1)
  | .bool value => some (.ratio (if value then 1 else 0) 1)
  | .float (.nan _) => some .undefined
  | .float (.infinite negative) => some (.infinite negative)
  | .float x => x.toRatio?.map fun (num, den) => .ratio num den
  | _ => none

def Magnitude.exceeds (n : Int) : Magnitude → Bool
  | .undefined => false
  | .infinite negative => !negative
  | .ratio num den => decide (n * den < num)

def Magnitude.isBelow (n : Int) : Magnitude → Bool
  | .undefined => false
  | .infinite negative => negative
  | .ratio num den => decide (num < n * den)

def Magnitude.is (n : Int) : Magnitude → Bool
  | .ratio num den => num == n * den
  | _ => false

def notOrdered (operator : String) (left right : Json) : Fault :=
  .wrongKind ("'" ++ operator ++ "' not supported between instances of '" ++ left.kindName ++
    "' and '" ++ right.kindName ++ "'")

end Sitecheck.Json
