import Sitecheck.Number.Binary64

/-!
# Decimal digits of binary numbers

`shortest` gives the fewest decimal digits that read back as the same binary
number and, of those, the ones nearest to it.  `fixed` rounds the exact value
to a number of places, a half to the even neighbour.
-/

namespace Sitecheck

/-- A positive decimal number `0.d₁d₂… · 10 ^ point`, its first digit not zero. -/
structure Decimal where
  digits : Nat
  length : Nat
  point : Int
  deriving DecidableEq, Repr

namespace Decimal

def powRatio (base : Nat) : Int → Nat × Nat
  | .ofNat e => (Nat.pow base e, 1)
  | .negSucc e => (1, Nat.pow base (e + 1))

/-- The number of decimal digits before the point of `num / den`; zero or
negative for numbers below one tenth. -/
def pointOf (num den : Nat) : Int :=
  let digits (n : Nat) : Int := (Nat.toDigits 10 n).length
  let guess := digits num - digits den
  let (up, down) := powRatio 10 guess
  if den * up ≤ num * down then guess + 1 else guess

/-- The ends of the interval of reals that round to `mantissa · 2 ^ exponent`, as
numerators over one denominator, below and above the value itself. -/
structure Interval where
  low : Nat
  value : Nat
  high : Nat
  den : Nat
  closed : Bool

/-- Below a power of two the numbers of the format stand twice as close. -/
def intervalOf (mantissa : Nat) (exponent : Int) : Interval :=
  let (up, down) := powRatio 2 exponent
  let tight := mantissa = Nat.pow 2 52 && exponent ≠ Binary64.minExponent
  { low := (4 * mantissa - (if tight then 1 else 2)) * up
    value := 4 * mantissa * up
    high := (4 * mantissa + 2) * up
    den := 4 * down
    closed := mantissa % 2 == 0 }

def Interval.holds (interval : Interval) (num den : Nat) : Bool :=
  if interval.closed then
    interval.low * den ≤ num * interval.den && num * interval.den ≤ interval.high * den
  else interval.low * den < num * interval.den && num * interval.den < interval.high * den

def candidate? (interval : Interval) (point : Int) (length : Nat) : Option Decimal :=
  let (up, down) := powRatio 10 (point - length)
  let below := interval.value * down / (interval.den * up)
  let fits (n : Nat) : Bool := 0 < n && interval.holds (n * up) down
  let nearer := divNearest (interval.value * down) (interval.den * up)
  let other := if nearer = below then below + 1 else below
  let found? := if fits nearer then some nearer else if fits other then some other else none
  found?.map fun n =>
    if n = Nat.pow 10 length then ⟨Nat.pow 10 (length - 1), length, point + 1⟩ else ⟨n, length, point⟩

/-- The shortest decimal that reads back, tried digit by digit. -/
def search (interval : Interval) (point : Int) : (length remaining : Nat) → Decimal
  | length, 0 =>
    match candidate? interval point length with
    | some found => found
    | none => ⟨0, length, point⟩
  | length, remaining + 1 =>
    match candidate? interval point length with
    | some found => found
    | none => search interval point (length + 1) remaining

def shortest (mantissa : Nat) (exponent : Int) : Decimal :=
  let interval := intervalOf mantissa exponent
  search interval (pointOf interval.value interval.den) 1 16

end Decimal

/-! ## Number texts -/

structure NumberFormat where
  /-- Decimal points from here on are written with an exponent. -/
  largePoint : Int
  /-- Decimal points up to here are written with an exponent. -/
  smallPoint : Int
  infinity : String
  notANumber : String

namespace NumberFormat

def pad (width : Nat) (text : List Char) : List Char :=
  List.replicate (width - text.length) '0' ++ text

/-- Digits without the zeros that end them; at least one is kept. -/
def significant (decimal : Decimal) : List Char :=
  match ((Nat.toDigits 10 decimal.digits).reverse.dropWhile (· = '0')).reverse with
  | [] => ['0']
  | digits => digits

def exponentText (exponent : Int) : List Char :=
  'e' :: (if exponent < 0 then '-' else '+') :: pad 2 (Nat.toDigits 10 exponent.natAbs)

def positional (digits : List Char) (point : Int) : List Char :=
  match point with
  | .ofNat (n + 1) =>
    if digits.length ≤ n + 1 then
      digits ++ List.replicate (n + 1 - digits.length) '0' ++ ['.', '0']
    else digits.take (n + 1) ++ '.' :: digits.drop (n + 1)
  | .ofNat 0 => '0' :: '.' :: digits
  | .negSucc n => '0' :: '.' :: List.replicate (n + 1) '0' ++ digits

def magnitude (format : NumberFormat) (mantissa : Nat) (exponent : Int) : List Char :=
  if mantissa = 0 then ['0', '.', '0']
  else
    let decimal := Decimal.shortest mantissa exponent
    let digits := significant decimal
    if format.largePoint ≤ decimal.point || decimal.point ≤ format.smallPoint then
      let head := digits.take 1 ++ (if digits.length = 1 then [] else '.' :: digits.drop 1)
      head ++ exponentText (decimal.point - 1)
    else positional digits decimal.point

def write (format : NumberFormat) : Binary64 → String
  | .nan _ => format.notANumber
  | .infinite negative => (if negative then "-" else "") ++ format.infinity
  | .finite negative mantissa exponent =>
    String.ofList ((if negative then ['-'] else []) ++ format.magnitude mantissa exponent)

end NumberFormat

/-- The value rounded to `places` decimal places, with the sign also before zero. -/
def fixedText (places : Nat) : Binary64 → String
  | .nan _ => "nan"
  | .infinite negative => if negative then "-inf" else "inf"
  | .finite negative mantissa exponent =>
    let (up, down) := Decimal.powRatio 2 exponent
    let units := divNearest (mantissa * up * Nat.pow 10 places) down
    let digits := NumberFormat.pad (places + 1) (Nat.toDigits 10 units)
    let whole := digits.take (digits.length - places)
    let fraction := digits.drop (digits.length - places)
    String.ofList ((if negative then ['-'] else []) ++ whole ++
      (if places = 0 then [] else '.' :: fraction))

end Sitecheck
