import KeyPool.Bytes
import KeyPool.Crypto.PrimeField

/-!
Elliptic curves `y² = x³ - 3x + b` over a prime field, with points in Jacobian coordinates: `(x, y, z)`
stands for `(x / z², y / z³)`, and `z = 0` for the neutral element.
-/

namespace KeyPool

/-- A curve with its base point and the prime order of the group. -/
structure Curve where
  p : Nat
  b : Nat
  order : Nat
  baseX : Nat
  baseY : Nat
  /-- Octets of a coordinate. -/
  width : Nat

namespace Curve

def p256 : Curve where
  p := 0xffffffff00000001000000000000000000000000ffffffffffffffffffffffff
  b := 0x5ac635d8aa3a93e7b3ebbd55769886bc651d06b0cc53b0f63bce3c3e27d2604b
  order := 0xffffffff00000000ffffffffffffffffbce6faada7179e84f3b9cac2fc632551
  baseX := 0x6b17d1f2e12c4247f8bce6e563a440f277037d812deb33a0f4a13945d898c296
  baseY := 0x4fe342e2fe1a7f9b8ee7eb4a7c0f9e162bce33576b315ececbb6406837bf51f5
  width := 32

def p384 : Curve where
  p := 0xfffffffffffffffffffffffffffffffffffffffffffffffffffffffffffffffeffffffff0000000000000000ffffffff
  b := 0xb3312fa7e23ee7e4988e056be3f82d19181d9c6efe8141120314088f5013875ac656398d8a2ed19d2a85c8edd3ec2aef
  order := 0xffffffffffffffffffffffffffffffffffffffffffffffffc7634d81f4372ddf581a0db248b0a77aecec196accc52973
  baseX := 0xaa87ca22be8b05378eb1c71ef320ad746e1d3b628ba79b9859f741e082542a385502f25dbf55296c3a545e3872760ab7
  baseY := 0x3617de4a96262c6f5d9e98bf9292dc29f8f41dbd289a147ce9da3113b5f0b8c00a60b1ce1d7e819d7a431d7c90ea0e5f
  width := 48

structure Point where
  x : Nat
  y : Nat
  z : Nat

namespace Point

def neutral : Point := ⟨1, 1, 0⟩

def ofAffine (x y : Nat) : Point := ⟨x, y, 1⟩

end Point

variable (c : Curve)

def base : Point := Point.ofAffine c.baseX c.baseY

def sub (a b : Nat) : Nat := PrimeField.sub c.p a b

/-- The affine coordinates of a point that is not neutral. -/
def toAffine (point : Point) : Nat × Nat :=
  let inverse := PrimeField.inverse c.p point.z
  let square := inverse * inverse % c.p
  (point.x * square % c.p, point.y * (square * inverse % c.p) % c.p)

def double (a : Point) : Point :=
  let delta := a.z * a.z % c.p
  let gamma := a.y * a.y % c.p
  let beta := a.x * gamma % c.p
  let alpha := 3 * c.sub a.x delta * (a.x + delta) % c.p
  let x := c.sub (alpha * alpha % c.p) (8 * beta % c.p)
  let y := c.sub (alpha * c.sub (4 * beta % c.p) x % c.p) (8 * (gamma * gamma) % c.p)
  ⟨x, y, 2 * (a.y * a.z) % c.p⟩

def add (a b : Point) : Point :=
  if a.z = 0 then b
  else if b.z = 0 then a
  else
    let aSquare := a.z * a.z % c.p
    let bSquare := b.z * b.z % c.p
    let u := a.x * bSquare % c.p
    let s := a.y * (bSquare * b.z % c.p) % c.p
    let h := c.sub (b.x * aSquare % c.p) u
    let r := c.sub (b.y * (aSquare * a.z % c.p) % c.p) s
    if h = 0 then (if r = 0 then c.double a else Point.neutral)
    else
      let hSquare := h * h % c.p
      let hCube := hSquare * h % c.p
      let v := u * hSquare % c.p
      let x := c.sub (c.sub (r * r % c.p) hCube) (2 * v % c.p)
      ⟨x, c.sub (r * c.sub v x % c.p) (s * hCube % c.p), a.z * b.z % c.p * h % c.p⟩

/-- The sum `m a + n b`, by one pass over the bits of both numbers. -/
def combine (m : Nat) (a : Point) (n : Nat) (b : Point) : Point :=
  let both := c.add a b
  (List.zip (PrimeField.bits (8 * c.width) m) (PrimeField.bits (8 * c.width) n)).foldl
    (fun sum (i, j) =>
      let sum := c.double sum
      if i && j then c.add sum both else if i then c.add sum a else if j then c.add sum b else sum)
    Point.neutral

def multiplyBase (m : Nat) : Point := c.combine m c.base 0 Point.neutral

/-- Whether coordinates are reduced and satisfy the equation of the curve. -/
def contains (x y : Nat) : Bool :=
  x < c.p && y < c.p && y * y % c.p = c.sub ((x * x % c.p * x + c.b) % c.p) (3 * x % c.p)

/-- A point with abscissa `x`, if there is one: the root that the exponentiation gives. -/
def lift? (x : Nat) : Option Nat :=
  if x < c.p then PrimeField.sqrt? c.p (c.sub ((x * x % c.p * x + c.b) % c.p) (3 * x % c.p)) else none

/-- Reads a point that is not neutral: both coordinates after `04`, the first and the parity of the
second after `02` or `03`, or the first alone after `05`, which stands for the lesser root. -/
def readPoint? : Bytes → Option Point
  | [] => none
  | form :: octets =>
    if form = 0x04 ∧ octets.length = 2 * c.width then
      let x := Bytes.toNat (octets.take c.width)
      let y := Bytes.toNat (octets.drop c.width)
      if c.contains x y then some (Point.ofAffine x y) else none
    else if (form = 0x02 ∨ form = 0x03 ∨ form = 0x05) ∧ octets.length = c.width then do
      let x := Bytes.toNat octets
      let y ← c.lift? x
      let other := PrimeField.neg c.p y
      return Point.ofAffine x <|
        if form = 0x05 then min y other else if y % 2 = form.toNat % 2 then y else other
    else none

/-- Both coordinates after `04`. -/
def writePoint (point : Point) : Bytes :=
  let (x, y) := c.toAffine point
  0x04 :: Bytes.ofNat c.width x ++ Bytes.ofNat c.width y

end Curve

end KeyPool
