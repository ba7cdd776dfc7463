/-!
Binary floating point numbers of sixty-four bits, held exactly, and the rounding of ratios and of
decimals to them: to the nearest one, and from halfway to the one with an even mantissa.
-/

namespace KeyPool

/-- The magnitude `mantissa * 2 ^ exponent`. Of a nonzero one that the rounding gives, the mantissa has
fifty-three bits, or fewer with the exponent -1074. -/
structure Magnitude where
  mantissa : Nat
  exponent : Int
  deriving DecidableEq, Repr

namespace Magnitude

def zero : Magnitude := ⟨0, -1074⟩

/-- Numerator and denominator of the value. -/
def ratio (m : Magnitude) : Nat × Nat :=
  (m.mantissa * Nat.pow 2 m.exponent.toNat, Nat.pow 2 (-m.exponent).toNat)

/-- A quotient rounded to the nearest number, from halfway to the even one. -/
def divideToEven (num den : Nat) : Nat :=
  let q := num / den
  let r := num % den
  if den < 2 * r ∨ (2 * r = den ∧ q % 2 = 1) then q + 1 else q

/-- The exponent at which the quotient of two positive numbers has fifty-three bits, or -1074 where
that is greater. -/
def exponentFor (num den : Nat) : Int :=
  let guess : Int := max (-1074) ((num.log2 : Int) - den.log2 - 53)
  let bits := num * Nat.pow 2 (-guess).toNat / (den * Nat.pow 2 guess.toNat)
  if Nat.pow 2 53 ≤ bits then guess + 1 else guess

/-- The magnitude nearest to a ratio, unless it is too great for any. -/
def ofRatio? (num den : Nat) : Option Magnitude :=
  if num = 0 then some zero
  else
    let e := exponentFor num den
    let q := divideToEven (num * Nat.pow 2 (-e).toNat) (den * Nat.pow 2 e.toNat)
    let m : Magnitude := if q = Nat.pow 2 53 then ⟨Nat.pow 2 52, e + 1⟩ else ⟨q, e⟩
    if m.exponent ≤ 971 then some m else none

/-- Numerator and denominator of a power of ten. -/
def powerOfTen (exponent : Int) : Nat × Nat :=
  (Nat.pow 10 exponent.toNat, Nat.pow 10 (-exponent).toNat)

/-- The magnitude nearest to `digits * 10 ^ exponent`. Far outside the range no power is formed. -/
def ofDecimal? (digits : Nat) (exponent : Int) : Option Magnitude :=
  let size : Int := (toString digits).length + exponent
  if digits = 0 ∨ size < -330 then some zero
  else if 310 < size then none
  else
    let (num, den) := powerOfTen exponent
    ofRatio? (digits * num) den

def times? (a b : Magnitude) : Option Magnitude :=
  ofRatio? (a.ratio.1 * b.ratio.1) (a.ratio.2 * b.ratio.2)

def over? (a b : Magnitude) : Option Magnitude :=
  ofRatio? (a.ratio.1 * b.ratio.2) (a.ratio.2 * b.ratio.1)

/-- The nearest whole number; halves are rounded up. -/
def round (m : Magnitude) : Nat :=
  let (num, den) := m.ratio
  (2 * num + den) / (2 * den)

end Magnitude

/-- A floating point number. -/
inductive Binary64 where
  | finite (negative : Bool) (magnitude : Magnitude)
  | infinite (negative : Bool)
  | nan
  deriving DecidableEq, Repr

end KeyPool
