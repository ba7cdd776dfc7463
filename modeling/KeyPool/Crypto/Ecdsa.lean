import KeyPool.Crypto.Sha512
import KeyPool.Crypto.Weierstrass
import KeyPool.Der.Value

/-!
Signatures of the elliptic curve digital signature algorithm, as a pair of numbers and as the
sequence of two integers that certificates carry.
-/

namespace KeyPool.Ecdsa

structure Signature where
  r : Nat
  s : Nat
  deriving DecidableEq, Repr

namespace Signature

/-- A sequence of two integers from 1 to below the order of the group, with nothing after it. -/
def ofBytes? (c : Curve) (encoded : Bytes) : Option Signature := do
  let number := Der.Reader.tagged Der.Tag.integer Der.natural?
  let (r, s) ← Der.Reader.exactly (Der.Reader.sequence do return (← number, ← number)) encoded
  guard (0 < r ∧ r < c.order ∧ 0 < s ∧ s < c.order)
  return ⟨r, s⟩

def toBytes (signature : Signature) : Bytes :=
  Der.wrap Der.Tag.sequence <|
    Der.wrap Der.Tag.integer (Der.encodeNatural signature.r)
      ++ Der.wrap Der.Tag.integer (Der.encodeNatural signature.s)

end Signature

/-- Whether a signature with parts in range belongs to a digest and a public point. -/
def verify (c : Curve) (key : Curve.Point) (digest : Bytes) (signature : Signature) : Bool :=
  let inverse := PrimeField.inverse c.order signature.s
  let m := Bytes.toNat digest * inverse % c.order
  let n := signature.r * inverse % c.order
  let sum := c.combine m c.base n key
  sum.z ≠ 0 && (c.toAffine sum).1 % c.order = signature.r

/-- A number from 1 to below the order of the group that depends on all of the seed. -/
def scalarOf (c : Curve) (seed : Bytes) : Nat := Bytes.toNat (Sha512.hash seed) % (c.order - 1) + 1

/-- Signs a digest. The one-time number is drawn from the secret and the digest. -/
def sign (c : Curve) (secret : Nat) (digest : Bytes) : Signature :=
  let once := scalarOf c (Bytes.ofNat c.width secret ++ digest)
  let r := (c.toAffine (c.multiplyBase once)).1 % c.order
  ⟨r, PrimeField.inverse c.order once * (Bytes.toNat digest + r * secret) % c.order⟩

end KeyPool.Ecdsa
