import KeyPool.Crypto.PrimeField
import KeyPool.Crypto.Sha512

/-!
Signatures on the twisted Edwards curve `y² - x² = 1 + d x² y²` over the field of `2 ^ 255 - 19`
elements. Points are kept in extended coordinates: `(x, y, z, t)` stands for `(x / z, y / z)`, with
`t = x y / z`.
-/

namespace KeyPool.Ed25519

def p : Nat := Nat.pow 2 255 - 19

def d : Nat := 0x52036cee2b6ffe738cc740797779e89800700a4d4141d8ab75eb4dca135978a3

/-- The order of the group that the base point generates. -/
def order : Nat := Nat.pow 2 252 + 27742317777372353535851937790883648493

def rootOfMinusOne : Nat := 0x2b8324804fc1df0b2b4d00993dfbd7a72f431806ad2fe478c4ee1b274a0ea0b0

structure Point where
  x : Nat
  y : Nat
  z : Nat
  t : Nat

def ofAffine (x y : Nat) : Point := ⟨x, y, 1, x * y % p⟩

def neutral : Point := ofAffine 0 1

def base : Point := ofAffine
  0x216936d3cd6e53fec0a4e231fdd6dc5c692cc7609525a7b2c9562d608f25d51a
  0x6666666666666666666666666666666666666666666666666666666666666658

def sub (a b : Nat) : Nat := PrimeField.sub p a b

def neg (a : Point) : Point := ⟨PrimeField.neg p a.x, a.y, a.z, PrimeField.neg p a.t⟩

def add (a b : Point) : Point :=
  let m := sub a.y a.x * sub b.y b.x % p
  let n := (a.y + a.x) * (b.y + b.x) % p
  let k := 2 * d * a.t % p * b.t % p
  let l := 2 * a.z * b.z % p
  let e := sub n m
  let f := sub l k
  let g := l + k
  let h := n + m
  ⟨e * f % p, g * h % p, f * g % p, e * h % p⟩

/-- The sum `m a + n b`, by one pass over the bits of both numbers. -/
def combine (m : Nat) (a : Point) (n : Nat) (b : Point) : Point :=
  let both := add a b
  (List.zip (PrimeField.bits 256 m) (PrimeField.bits 256 n)).foldl
    (fun sum (i, j) =>
      let sum := add sum sum
      if i && j then add sum both else if i then add sum a else if j then add sum b else sum)
    neutral

/-- The ordinate in little-endian octets with the parity of the abscissa in the top bit. -/
def writePoint (a : Point) : Bytes :=
  let inverse := PrimeField.inverse p a.z
  let x := a.x * inverse % p
  let y := a.y * inverse % p
  Bytes.ofNatLittle 32 (y + x % 2 * Nat.pow 2 255)

/-- An abscissa for an ordinate, of either parity. -/
def lift? (y : Nat) : Option Nat :=
  let u := sub (y * y % p) 1
  let v := (d * (y * y % p) + 1) % p
  let v3 := v * v % p * v % p
  let x := u * v3 % p * PrimeField.pow p (u * (v3 * v3 % p * v % p) % p) ((p - 5) / 8) % p
  let check := v * (x * x % p) % p
  if check = u then some x
  else if check = PrimeField.neg p u then some (x * rootOfMinusOne % p)
  else none

/-- Reads a point. An ordinate that is not reduced is taken modulo the prime, and a sign on the
abscissa zero has no effect. -/
def readPoint? (octets : Bytes) : Option Point := do
  let n := Bytes.toNatLittle octets
  let y := n % Nat.pow 2 255 % p
  let x ← lift? y
  return ofAffine (if x % 2 = n / Nat.pow 2 255 % 2 then x else PrimeField.neg p x) y

/-- Whether the sixty-four octets sign the message: the second half is a reduced number and the
first is exactly the encoding that the equation calls for. -/
def verify (keyOctets : Bytes) (key : Point) (message signature : Bytes) : Bool :=
  let r := signature.take 32
  let s := Bytes.toNatLittle (signature.drop 32)
  let k := Bytes.toNatLittle (Sha512.hash (r ++ keyOctets ++ message)) % order
  s < order && writePoint (combine s base k (neg key)) = r

/-- The secret number and the seed of one-time numbers that a secret of thirty-two octets stands
for. -/
def expand (secret : Bytes) : Nat × Bytes :=
  let digest := Sha512.hash secret
  let n := Bytes.toNatLittle (digest.take 32)
  (n % Nat.pow 2 254 / 8 * 8 + Nat.pow 2 254, digest.drop 32)

def publicKey (secret : Bytes) : Bytes := writePoint (combine (expand secret).1 base 0 neutral)

def sign (secret message : Bytes) : Bytes :=
  let (a, seed) := expand secret
  let once := Bytes.toNatLittle (Sha512.hash (seed ++ message)) % order
  let r := writePoint (combine once base 0 neutral)
  let k := Bytes.toNatLittle (Sha512.hash (r ++ publicKey secret ++ message)) % order
  r ++ Bytes.ofNatLittle 32 ((once + k * a) % order)

end KeyPool.Ed25519
