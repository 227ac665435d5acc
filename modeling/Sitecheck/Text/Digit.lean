import Sitecheck.Text.CharSet

/-!
# Decimal digits of all scripts

Every script with decimal digits has its ten digits in a row, so the table
holds the code points of the zeros.
-/

namespace Sitecheck.Text

def zeros : List Nat := CharSet.totals 0 <| CharSet.numerals
  "1W1oY5O8AgG4Y4Y4Y4Y4Y4Y4Y4Y4Y4C4Y3CbC3C20A1WbY5I6UQ7K3S5OQ11oYqM1W8A1G3SgAmqM1iU2cIvQ5I2S5YbCdO
   4YeU4I4IgQ4ItO9W3CkzS3S5OtoGKKKK2jMgQ1qU53K"

def digitValue? (c : Char) : Option Nat :=
  (zeros.find? fun first => first ≤ c.toNat && c.toNat < first + 10).map (c.toNat - ·)

def isDecimalDigit (c : Char) : Bool := (digitValue? c).isSome

end Sitecheck.Text
