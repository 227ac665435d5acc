import Sitecheck.Json.Display

/-!
# Durations in words

A duration in milliseconds is written in milliseconds below a second, in
seconds below a minute, and in minutes and seconds from there on; seconds have
two places.
-/

namespace Sitecheck.Duration

def thousandths (n : Int) : Binary64 := Binary64.ofSigned n 1000

def ofInt (ms : Int) : String :=
  if ms < 1000 then Json.displayInt ms ++ "ms"
  else if ms < 60000 then fixedText 2 (thousandths ms) ++ "s"
  else
    Json.displayInt (ms / 60000) ++ "m " ++ fixedText 2 (thousandths (ms % 60000)) ++ "s"

def isBelow (ms : Binary64) (bound : Int) : Bool :=
  ms.compare? (Binary64.ofSigned bound 1) == some .lt

def dividedByThousand (ms : Binary64) : Binary64 :=
  (ms.div? (Binary64.ofSigned 1000 1)).getD ms

def ofFloat (ms : Binary64) : String :=
  if isBelow ms 1000 then Json.displayNumbers.write ms ++ "ms"
  else if isBelow ms 60000 then fixedText 2 (dividedByThousand ms) ++ "s"
  else
    Json.displayNumbers.write (ms.floorDivNat 60000) ++ "m " ++
      fixedText 2 (dividedByThousand (ms.modNat 60000)) ++ "s"

end Sitecheck.Duration
