/-!
Arithmetic of numbers below a prime, on naturals kept reduced.
-/

namespace KeyPool.PrimeField

/-- The difference of two reduced numbers. -/
def sub (p a b : Nat) : Nat := (a + (p - b)) % p

def neg (p a : Nat) : Nat := (p - a) % p

/-- The power of a number, by repeated squaring. -/
def pow (p base exponent : Nat) : Nat :=
  if exponent = 0 then 1 % p
  else
    let half := pow p (base * base % p) (exponent / 2)
    if exponent % 2 = 1 then base * half % p else half
termination_by exponent
decreasing_by omega

/-- The inverse of a number that is not zero, as its power with exponent `p - 2`. -/
def inverse (p a : Nat) : Nat := pow p a (p - 2)

/-- A square root, where `p` leaves 3 on division by 4 and one exists. -/
def sqrt? (p a : Nat) : Option Nat :=
  let root := pow p a ((p + 1) / 4)
  if root * root % p = a then some root else none

/-- The bits of a number below `2 ^ width`, most significant first. -/
def bits (width n : Nat) : List Bool :=
  (List.range width).reverse.map n.testBit

end KeyPool.PrimeField
