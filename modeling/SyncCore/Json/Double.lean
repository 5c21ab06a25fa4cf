/-!
# Doubles

Nonnegative binary numbers of 53 digits. A decimal numeral is read as a
double in steps: the leading digits that fit a word of 64 bits are taken as a
whole number, which is then multiplied or divided by a power of ten. Each
step is rounded to the nearest double, a tie to the one with an even
significand. A double is written as the decimal that it is exactly.
-/

set_option autoImplicit false

namespace SyncCore.Json

/-- The number that is the significand times two to the exponent. -/
structure Double where
  significand : Nat
  exponent : Int
  deriving DecidableEq, Repr

namespace Double

def numerator (d : Double) : Nat := d.significand * Nat.pow 2 d.exponent.toNat

def denominator (d : Double) : Nat := Nat.pow 2 (-d.exponent).toNat

/-- The quotient rounded to the nearest whole number, a tie to the even one. -/
def roundDiv (n d : Nat) : Nat :=
  let q := n / d
  let rest := 2 * (n % d)
  if d < rest ∨ (rest = d ∧ q % 2 = 1) then q + 1 else q

def leading (n d : Nat) : Int :=
  let l : Int := (n.log2 : Int) - d.log2
  if n * Nat.pow 2 (-l).toNat < d * Nat.pow 2 l.toNat then l - 1 else l

/-- The double nearest to a ratio, unless the ratio is too large. No double
has an exponent below -1074, so small ratios keep fewer digits. -/
def ofRatio? (n d : Nat) : Option Double :=
  let e := max (leading n d - 52) (-1074)
  let r : Double := ⟨roundDiv (n * Nat.pow 2 (-e).toNat) (d * Nat.pow 2 e.toNat), e⟩
  if r.numerator < Nat.pow 2 1024 * r.denominator then some r else none

def mul? (a b : Double) : Option Double :=
  ofRatio? (a.numerator * b.numerator) (a.denominator * b.denominator)

def div? (a b : Double) : Option Double :=
  ofRatio? (a.numerator * b.denominator) (a.denominator * b.numerator)

def powerOfTen? (k : Nat) : Option Double := ofRatio? (Nat.pow 10 k) 1

def largestPower : Nat := 308

def timesPower? (d : Double) (k : Nat) : Option Double :=
  if k ≤ largestPower then (powerOfTen? k).bind d.mul?
  else if d.significand = 0 then some d
  else none

/-- Division by a power of ten, by the largest power first as often as it goes. -/
def overPower? (d : Double) (k : Nat) : Option Double :=
  if k ≤ largestPower then (powerOfTen? k).bind d.div?
  else if d.significand = 0 then some d
  else do overPower? (← (powerOfTen? largestPower).bind d.div?) (k - largestPower)
termination_by k
decreasing_by simp only [largestPower] at *; omega

/-- A word extended by as many digits as leave it a word, and the count of those left over. -/
def extendWord (word : Nat) (digits : List Nat) : Nat × Nat :=
  digits.foldl
    (fun (n, left) d =>
      if left = 0 ∧ n * 10 + d < UInt64.size then (n * 10 + d, 0) else (n, left + 1))
    (word, 0)

/-- The double that a numeral is read as, given the digits before and after the
point and the power of ten. Digits after the point can still extend the word
when some before it did not fit. -/
def ofDecimal? (whole fraction : List Nat) (exponent : Int) : Option Double := do
  let (n, dropped) := extendWord 0 whole
  let (n, left) := extendWord n fraction
  let d ← ofRatio? n 1
  let e := exponent + dropped + left - fraction.length
  if 0 ≤ e then d.timesPower? e.toNat else d.overPower? (-e).toNat

/-- The digits after the point, without zeros at the end. Half a unit of any
binary place is five units of the next decimal place. -/
def fractionDigits (d : Double) : List Char :=
  let places := (-d.exponent).toNat
  let digits := (toString (d.numerator % d.denominator * Nat.pow 5 places)).toList
  let padded := List.replicate (places - digits.length) '0' ++ digits
  (padded.reverse.dropWhile (· = '0')).reverse

def toText (d : Double) : String :=
  let fraction := d.fractionDigits
  toString (d.numerator / d.denominator) ++ "."
    ++ if fraction.isEmpty then "0" else String.ofList fraction

end Double

end SyncCore.Json
