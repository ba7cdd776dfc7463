import KeyPool.Number.Binary64

/-!
The shortest decimal that reads back as a given floating point number, and its text. Among the decimals
of one length the nearest is taken, and the greater of two that are equally near.
-/

namespace KeyPool

namespace Magnitude

/-- Compares `a / b` with `c / d`. -/
def ratioLe (a b : Nat × Nat) : Bool := a.1 * b.2 ≤ b.1 * a.2

/-- The least and the greatest ratio that may round to a magnitude: halfway to its neighbours. -/
def bounds (m : Magnitude) : (Nat × Nat) × (Nat × Nat) :=
  let up := (Magnitude.mk (2 * m.mantissa + 1) (m.exponent - 1)).ratio
  let down :=
    if m.mantissa = Nat.pow 2 52 ∧ -1074 < m.exponent then
      (Magnitude.mk (4 * m.mantissa - 1) (m.exponent - 2)).ratio
    else (Magnitude.mk (2 * m.mantissa - 1) (m.exponent - 1)).ratio
  (down, up)

/-- Whether a ratio rounds to a magnitude. A bound itself does if the mantissa is even. -/
def roundsTo (m : Magnitude) (r : Nat × Nat) : Bool :=
  let (down, up) := m.bounds
  if m.mantissa % 2 = 0 then ratioLe down r && ratioLe r up
  else !ratioLe r down && !ratioLe up r

/-- The number of digits before the decimal point of a positive ratio, and less than one by each zero
after the point where it has none. -/
def wholeDigits (r : Nat × Nat) : Int :=
  if r.2 ≤ r.1 then (toString (r.1 / r.2)).length else 1 - (toString ((r.2 - 1) / r.1)).length

/-- The decimal of at most `count` digits that reads back as `m`, as digits and exponent. -/
def shortOfLength? (m : Magnitude) (count : Nat) : Option (Nat × Int) :=
  let value := m.ratio
  let exponent := wholeDigits value - count
  let unit := powerOfTen exponent
  let num := value.1 * unit.2
  let den := value.2 * unit.1
  let below := num / den
  let decimal (digits : Nat) : Nat × Nat := (digits * unit.1, unit.2)
  let nearAbove := den ≤ 2 * (num % den)
  let (first, second) := if nearAbove then (below + 1, below) else (below, below + 1)
  let chosen? :=
    if m.roundsTo (decimal first) then some first
    else if m.roundsTo (decimal second) then some second
    else none
  chosen?.map fun digits =>
    if digits = Nat.pow 10 count then (1, exponent + count) else (digits, exponent)

/-- Digits and exponent of the shortest decimal; seventeen digits always suffice. -/
def shortest (m : Magnitude) : Nat × Int :=
  if m.mantissa = 0 then (0, 0)
  else ((List.range 17).findSome? fun n => m.shortOfLength? (n + 1)).getD (0, 0)

/-- Digits with an exponent, written in full. -/
def positional (digits : Nat) (exponent : Int) : String :=
  let text := toString digits
  if 0 ≤ exponent then text ++ String.ofList (List.replicate exponent.toNat '0')
  else
    let places := (-exponent).toNat
    let padded := String.ofList (List.replicate (places + 1 - text.length) '0') ++ text
    let whole := padded.length - places
    String.ofList (padded.toList.take whole) ++ "." ++ String.ofList (padded.toList.drop whole)

end Magnitude

namespace Binary64

/-- The text of a number: all digits in full, no fraction where there is none. -/
def toText : Binary64 → String
  | finite negative m =>
    let (digits, exponent) := m.shortest
    (if negative then "-" else "") ++
      (if digits = 0 then "0" else Magnitude.positional digits exponent)
  | infinite negative => if negative then "-inf" else "inf"
  | nan => "NaN"

end Binary64

end KeyPool
