import KeyPool.Bytes
import KeyPool.Number.Binary64

/-!
The lexical layer of JSON: blanks, strings, numbers and words, and the passing over of values that
nobody asks for. A reader takes what it reads off the front of a text. When it fails it says whether the
text ended, is not JSON, or is JSON of another kind than was asked for.
-/

namespace KeyPool.Json

/-- Why a text is not the JSON of a value. -/
inductive Fault where
  /-- The text ends where more must follow. -/
  | ended
  /-- The text is not JSON. -/
  | malformed
  /-- What is written is not a value of the kind that is asked for. -/
  | mistyped
  deriving DecidableEq, Repr

/-- Takes a value off the front of a text. -/
abbrev Reader := StateT (List Char) (Except Fault)

namespace Reader

variable {α β σ : Type}

def isBlank (c : Char) : Bool := c = ' ' || c = '\n' || c = '\t' || c = '\r'

/-- The first character after blanks, left in place. -/
def peek : Reader Char := fun cs =>
  match cs.dropWhile isBlank with
  | [] => .error .ended
  | c :: rest => .ok (c, c :: rest)

def char : Reader Char := fun
  | [] => .error .ended
  | c :: rest => .ok (c, rest)

/-- A character that must follow blanks. -/
def symbol (c : Char) : Reader Unit := do
  let d ← peek
  if d = c then discard char else throw .malformed

/-- Repeats a step until it gives an answer. A step must take something off the text to be repeated. -/
def loop (step : σ → Reader (σ ⊕ β)) (s : σ) : Reader β := fun cs =>
  match step s cs with
  | .error e => .error e
  | .ok (.inr b, rest) => .ok (b, rest)
  | .ok (.inl s, rest) => if rest.length < cs.length then loop step s rest else .error .malformed
termination_by cs => cs.length

/-- The letters of a word, one after another. -/
def word : List Char → Reader Unit
  | [] => return ()
  | c :: rest => do
    let d ← char
    if d = c then word rest else throw .malformed

/-! ## Strings -/

/-- Four hexadecimal digits. With fewer than four octets left the text has ended. -/
def hexUnit : Reader Nat := fun
  | a :: b :: c :: d :: rest =>
    match Bytes.hexValue? a, Bytes.hexValue? b, Bytes.hexValue? c, Bytes.hexValue? d with
    | some a, some b, some c, some d => .ok (((a * 16 + b) * 16 + c) * 16 + d, rest)
    | _, _, _, _ => .error .malformed
  | short => if short.foldl (fun n c => n + c.utf8Size) 0 < 4 then .error .ended else .error .malformed

/-- The character of a code unit outside the surrogates, or of a pair of them; the second one must
follow in an escape of its own. -/
def unicodeEscape : Reader Char := do
  let unit ← hexUnit
  if 0xdc00 ≤ unit ∧ unit ≤ 0xdfff then throw .malformed
  else if unit < 0xd800 ∨ 0xdfff < unit then return Char.ofNat unit
  else
    let backslash ← char
    if backslash = '\\' then
      let letter ← char
      if letter = 'u' then
        let second ← hexUnit
        if 0xdc00 ≤ second ∧ second ≤ 0xdfff then
          return Char.ofNat (0x10000 + (unit - 0xd800) * 0x400 + (second - 0xdc00))
        else throw .malformed
      else throw .malformed
    else throw .malformed

/-- The characters that a single letter stands for after a backslash. -/
def shortEscape? (c : Char) : Option Char :=
  if c = '"' ∨ c = '\\' ∨ c = '/' then some c
  else if c = 'b' then some '\x08'
  else if c = 'f' then some '\x0c'
  else if c = 'n' then some '\n'
  else if c = 'r' then some '\r'
  else if c = 't' then some '\t'
  else none

/-- The rest of a string, of which some characters are read, in reverse. -/
def stringStep (read : List Char) : Reader (List Char ⊕ String) := do
  let c ← char
  if c = '"' then return .inr (String.ofList read.reverse)
  else if c = '\\' then
    let letter ← char
    if letter = 'u' then return .inl ((← unicodeEscape) :: read)
    else
      match shortEscape? letter with
      | some escaped => return .inl (escaped :: read)
      | none => throw .malformed
  else if c.toNat < 0x20 then throw .malformed
  else return .inl (c :: read)

/-- What follows an opening quote, up to the closing one. -/
def string : Reader String := loop stringStep []

/-- Like `stringStep`, but surrogates need no partner. -/
def skipStringStep (_ : Unit) : Reader (Unit ⊕ Unit) := do
  let c ← char
  if c = '"' then return .inr ()
  else if c = '\\' then
    let letter ← char
    if letter = 'u' then
      discard hexUnit
      return .inl ()
    else if (shortEscape? letter).isSome then return .inl ()
    else throw .malformed
  else if c.toNat < 0x20 then throw .malformed
  else return .inl ()

def skipString : Reader Unit := loop skipStringStep ()

/-! ## Numbers -/

def digitValue (c : Char) : Nat := c.toNat - 48

/-- The run of digits at the front. -/
def digits : Reader (List Nat) := fun cs =>
  .ok ((cs.takeWhile Char.isDigit).map digitValue, cs.dropWhile Char.isDigit)

/-- Takes the next character if it is one of some. -/
def oneOf (cs : List Char) : Reader (Option Char) := fun
  | c :: rest => if cs.contains c then .ok (some c, rest) else .ok (none, c :: rest)
  | [] => .ok (none, [])

end Reader

/-- A number as written. -/
structure Numeral where
  negative : Bool
  /-- The leading digits that fit sixty-four bits. -/
  significand : Nat
  /-- The power of ten that goes with them. -/
  exponent : Int
  /-- Whether the text has neither fraction nor exponent, and all its digits fit. -/
  whole : Bool
  deriving DecidableEq, Repr

namespace Numeral

/-- Appends digits while the result fits sixty-four bits, and says how many are left over. -/
def accumulate (significand : Nat) : List Nat → Nat × Nat
  | [] => (significand, 0)
  | d :: rest =>
    if 10 * significand + d < 18446744073709551616 then accumulate (10 * significand + d) rest
    else (significand, (d :: rest).length)

/-- The integer that is written, unless it is to be read as a floating point number: with a fraction
or an exponent, beyond sixty-four bits, or a negative zero. -/
def integer? (n : Numeral) : Option Int :=
  if n.whole = false then none
  else if n.negative then
    if 1 ≤ n.significand ∧ n.significand ≤ 9223372036854775808 then some (-(n.significand : Int)) else none
  else some n.significand

def overPowerOfTen? (m : Magnitude) (places : Nat) : Option Magnitude :=
  (Magnitude.ofDecimal? 1 places).bind m.over?

/-- Divides by ten to the 308th some times, or until nothing is left. -/
def scaleDown? (m : Magnitude) : (times : Nat) → Option Magnitude
  | 0 => some m
  | times + 1 =>
    if m.mantissa = 0 then some m else (overPowerOfTen? m 308).bind fun m => scaleDown? m times

/-- The magnitude of a number: its significand and a power of ten, each rounded, and their product or
quotient rounded again. -/
def magnitude? (n : Numeral) : Option Magnitude :=
  match Magnitude.ofDecimal? n.significand 0 with
  | none => none
  | some m =>
    if n.exponent < 0 then
      let places := n.exponent.natAbs
      let times := (places - 1) / 308
      (scaleDown? m times).bind fun m => overPowerOfTen? m (places - 308 * times)
    else if n.significand = 0 then some .zero
    else if n.exponent ≤ 308 then (Magnitude.ofDecimal? 1 n.exponent).bind m.times?
    else none

end Numeral

namespace Reader

variable {α β σ : Type}

/-- The exponent after its letter; one that has too many digits counts as very great. -/
def exponentPart : Reader Int := do
  let sign ← oneOf ['+', '-']
  let first ← char
  if first.isDigit then
    let rest ← digits
    let n : Nat := (digitValue first :: rest).foldl (fun n d => min (10 * n + d) 2147483648) 0
    return if sign = some '-' then -(n : Int) else (n : Int)
  else throw .malformed

/-- An exponent, if there is one. -/
def optionalExponent : Reader (Option Int) := do
  match ← oneOf ['e', 'E'] with
  | some _ => return some (← exponentPart)
  | none => return none

/-- Fraction and exponent after a significand of which `dropped` digits did not fit. -/
def numeralEnd (negative : Bool) (significand dropped : Nat) : Reader Numeral := do
  match ← oneOf ['.'] with
  | some _ =>
    match ← digits with
    | [] => do
      discard char
      throw .malformed
    | fraction =>
      let (significand, lost) := Numeral.accumulate significand fraction
      let places : Int := (dropped : Int) - (fraction.length - lost : Nat)
      return ⟨negative, significand, places + (← optionalExponent).getD 0, false⟩
  | none =>
    match ← optionalExponent with
    | some e => return ⟨negative, significand, (dropped : Int) + e, false⟩
    | none => return ⟨negative, significand, dropped, dropped = 0⟩

/-- A number after its sign. A zero may not lead other digits. -/
def numeral (negative : Bool) : Reader Numeral := do
  let first ← char
  if first.isDigit = false then throw .malformed
  else
    let rest ← digits
    if first = '0' ∧ rest ≠ [] then throw .malformed
    else
      let (significand, dropped) := Numeral.accumulate (digitValue first) rest
      let n ← numeralEnd negative significand dropped
      if n.integer?.isNone ∧ n.magnitude?.isNone then throw .malformed else return n

/-- The digits of a number that nobody asks for, which must be there. -/
def skipDigits : Reader Unit := fun cs =>
  match cs with
  | c :: rest => if c.isDigit then .ok ((), rest.dropWhile Char.isDigit) else .error .malformed
  | [] => .error .malformed

/-- Passes over the fraction and exponent of a number. -/
def skipFraction : Reader Unit := do
  match ← oneOf ['.'] with
  | some _ => skipDigits
  | none => pure ()
  match ← oneOf ['e', 'E'] with
  | some _ => do
    discard (oneOf ['+', '-'])
    skipDigits
  | none => pure ()

/-- Passes over a number after its sign. What is missing at its end counts as malformed. -/
def skipNumber : Reader Unit := fun cs =>
  match cs with
  | '0' :: c :: rest => if c.isDigit then .error .malformed else skipFraction (c :: rest)
  | cs => (do skipDigits; skipFraction) cs

/-! ## Values that nobody asks for -/

/-- What a bracket has opened. -/
inductive Frame where
  | array | object
  deriving DecidableEq, Repr

def Frame.closer : Frame → Char
  | array => ']'
  | object => '}'

/-- A member's name up to the colon. -/
def skipKey : Reader Unit := do
  symbol '"'
  skipString
  symbol ':'

/-- A value without parts, of which the first character is not yet taken. -/
def skipScalar : Reader Unit := do
  let c ← char
  if c = '"' then skipString
  else if c = 'n' then word "ull".toList
  else if c = 't' then word "rue".toList
  else if c = 'f' then word "alse".toList
  else if c = '-' then skipNumber
  else if c.isDigit then fun cs => skipNumber (c :: cs)
  else throw .malformed

/-- Goes on inside some frames, where a value has just ended or one is to follow. -/
def skipStep : List Frame × Bool → Reader (List Frame × Bool ⊕ Unit)
  | ([], true) => return .inr ()
  | (frame :: frames, true) => do
    let c ← peek
    discard char
    if c = ',' then
      if frame = .object then skipKey
      return .inl (frame :: frames, false)
    else if c = frame.closer then return .inl (frames, true)
    else throw .malformed
  | (frames, false) => do
    let c ← peek
    if c = '[' ∨ c = '{' then
      discard char
      let frame : Frame := if c = '[' then .array else .object
      let d ← peek
      if d = frame.closer then
        discard char
        return .inl (frames, true)
      else
        if frame = .object then skipKey
        return .inl (frame :: frames, false)
    else
      skipScalar
      return .inl (frames, true)

def skipValue : Reader Unit := loop skipStep ([], false)

/-- Fails because the value that follows is not of the kind that is asked for, unless it does not follow
or is no value. Of arrays and objects only the bracket is looked at. -/
def otherKind : Reader α := do
  let c ← peek
  if c = '[' ∨ c = '{' then throw .mistyped
  else
    discard char
    if c = '"' then discard string
    else if c = 'n' then word "ull".toList
    else if c = 't' then word "rue".toList
    else if c = 'f' then word "alse".toList
    else if c = '-' then discard (numeral true)
    else if c.isDigit then discard fun cs => numeral false (c :: cs)
    else throw .malformed
    throw .mistyped

/-- Applies a reader to a whole text, after which only blanks may stand. -/
def run (r : Reader α) (text : String) : Except Fault α :=
  match r text.toList with
  | .error e => .error e
  | .ok (a, rest) => if rest.all isBlank then .ok a else .error .malformed

end Reader

end KeyPool.Json
