import Sitecheck.Number.Numeral

/-!
# Moments

A moment is a number of microseconds since the first of January of the year 0
in the Gregorian calendar, written as date, `T` and time of day; a fraction of
a second is written with six digits, and not at all when it is zero.  The
distance from universal time follows, if the moment has one.
-/

namespace Sitecheck

/-- Microseconds since the start of the year 0, and what is written after them. -/
structure Moment where
  micros : Int
  zone : String
  deriving DecidableEq, Repr

namespace Moment

def isLeap (year : Nat) : Bool := year % 4 == 0 && (year % 100 != 0 || year % 400 == 0)

def daysInMonth (year month : Nat) : Nat :=
  match month with
  | 2 => if isLeap year then 29 else 28
  | 4 | 6 | 9 | 11 => 30
  | _ => 31

def daysBeforeYear (year : Nat) : Nat :=
  365 * year + (year + 3) / 4 - (year + 99) / 100 + (year + 399) / 400

def daysBeforeMonth (year month : Nat) : Nat :=
  (List.range (month - 1)).foldl (fun days i => days + daysInMonth year (i + 1)) 0

/-- The month and day of the `day`-th day of a year, counted from `month`. -/
def monthAndDay (year : Nat) : (months month day : Nat) → Nat × Nat
  | 0, month, day => (month, day + 1)
  | months + 1, month, day =>
    if day < daysInMonth year month then (month, day + 1)
    else monthAndDay year months (month + 1) (day - daysInMonth year month)

def yearOfDay (day : Nat) : Nat :=
  let guess := day / 366
  let later := (List.range (day / 1461 + 4)).map (guess + · + 1)
  (later.takeWhile fun year => daysBeforeYear year ≤ day).getLastD guess

def dayMicros : Nat := 86400 * 1000000

def dayNumber (year month day : Nat) : Nat :=
  daysBeforeYear year + daysBeforeMonth year month + (day - 1)

def digits (width n : Nat) : String := Text.padLeft width '0' (toString n)

def clockText (micros : Nat) : String :=
  let seconds := micros / 1000000
  let fraction := micros % 1000000
  digits 2 (seconds / 3600) ++ ":" ++ digits 2 (seconds / 60 % 60) ++ ":" ++
    digits 2 (seconds % 60) ++ (if fraction = 0 then "" else "." ++ digits 6 fraction)

def text (moment : Moment) : String :=
  let micros := moment.micros.toNat
  let day := micros / dayMicros
  let year := yearOfDay day
  let (month, dayOfMonth) := monthAndDay year 11 1 (day - daysBeforeYear year)
  digits 4 year ++ "-" ++ digits 2 month ++ "-" ++ digits 2 dayOfMonth ++ "T" ++
    clockText (micros % dayMicros) ++ moment.zone

/-! ## Reading -/

/-- The microseconds of a time of day: hours, minutes and seconds with or without
colons, and a fraction. -/
def clockMicros (text : List Char) : Nat :=
  let isPoint (c : Char) : Bool := c = '.' || c = ','
  let whole := (text.takeWhile (!isPoint ·)).filter Char.isDigit
  let part (i : Nat) : Nat := Numeral.natOf ((whole.drop (2 * i)).take 2)
  let fraction := (text.dropWhile (!isPoint ·)).drop 1
  ((part 0 * 60 + part 1) * 60 + part 2) * 1000000 +
    Numeral.natOf ((fraction ++ List.replicate 6 '0').take 6)

/-- A written distance from universal time in the form in which it is shown. -/
def zoneText : List Char → String
  | [] => ""
  | 'Z' :: _ => "+00:00"
  | mark :: text =>
    let micros := clockMicros text
    let shown := clockText micros
    if micros < 1000000 then "+00:00"
    else (if mark = '-' then "-" else "+") ++
      (if micros % 60000000 = 0 then Text.take 5 shown else shown)

/-- The Monday of the first week of a year, which is the week with its fourth day. -/
def firstMonday (year : Nat) : Nat :=
  let fourth := dayNumber year 1 4
  fourth - (fourth + 5) % 7

/-- The day that a written date names: by month and day, or by week and perhaps the
day of the week. -/
def dayOfDate? (text : List Char) : Option Nat :=
  let numerals := text.filter Char.isDigit
  let part (start count : Nat) : Nat := Numeral.natOf ((numerals.drop start).take count)
  if text.contains 'W' then
    match numerals.length with
    | 6 => some (firstMonday (part 0 4) + 7 * (part 4 2 - 1))
    | 7 => some (firstMonday (part 0 4) + 7 * (part 4 2 - 1) + (part 6 1 - 1))
    | _ => none
  else if numerals.length = 8 then some (dayNumber (part 0 4) (part 4 2) (part 6 2))
  else none

/-- How many characters of a written moment belong to the date.  Where a week is
followed by more digits, their number tells whether the first is a day of the week. -/
def dateWidth (text : List Char) : Nat :=
  match text.drop 4 with
  | '-' :: 'W' :: rest =>
    if rest[2]? = some '-' && !(rest[4]?.any Char.isDigit) then 10 else 8
  | '-' :: _ => 10
  | 'W' :: rest =>
    match ((rest.drop 2).takeWhile Char.isDigit).length with
    | 0 => 7
    | 1 => 8
    | count => if count % 2 = 0 then 8 else 7
  | _ => 8

/-- Reads a written moment: a date, and perhaps a mark, a time of day and a
distance from universal time. -/
def read? (text : String) : Option Moment := do
  let chars := text.toList
  let width := dateWidth chars
  let day ← dayOfDate? (chars.take width)
  let time := chars.drop (width + 1)
  let isZone (c : Char) : Bool := c = 'Z' || c = '+' || c = '-'
  return ⟨day * dayMicros + clockMicros (time.takeWhile (!isZone ·)),
    zoneText (time.dropWhile (!isZone ·))⟩

/-! ## Moving -/

def later (micros : Int) (moment : Moment) : Moment :=
  { moment with micros := moment.micros + micros }

def isInRange (moment : Moment) : Bool :=
  dayNumber 1 1 1 * dayMicros ≤ moment.micros && moment.micros < dayNumber 10000 1 1 * dayMicros

end Moment

end Sitecheck
