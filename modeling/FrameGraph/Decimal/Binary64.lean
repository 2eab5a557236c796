/-!
# Binary floating-point numbers, exactly

A floating-point number is kept as what it denotes: not a number, an infinity, or `± mantissa · 2 ^
exponent`. Reading a decimal, converting an integer and narrowing to a shorter format are one
rounding of an exact quotient, to the nearest number of the format and to the even mantissa on a
tie. Nothing here uses machine arithmetic.
-/

namespace FrameGraph

/-- A binary64 number. The mantissa is below `2 ^ 53` and the exponent at least `-1074`; the
mantissa is at least `2 ^ 52` unless the exponent is `-1074`, so every number has one form. -/
inductive Binary64 where
  | nan
  | infinite (negative : Bool)
  | finite (negative : Bool) (mantissa : Nat) (exponent : Int)
  deriving DecidableEq, Repr, Inhabited

/-- A binary format: the bits of a mantissa and the range of the exponents of its unit. -/
structure BinaryFormat where
  precision : Nat
  minExponent : Int
  maxExponent : Int
  deriving Repr

namespace BinaryFormat

def binary64 : BinaryFormat := ⟨53, -1074, 971⟩
def binary32 : BinaryFormat := ⟨24, -149, 104⟩
def binary16 : BinaryFormat := ⟨11, -24, 5⟩

end BinaryFormat

/-- The quotient `a / b` rounded to the nearest integer, to the even one on a tie. -/
def roundDiv (a b : Nat) : Nat :=
  let q := a / b
  let r := a % b
  if b < 2 * r ∨ (2 * r = b ∧ q % 2 = 1) then q + 1 else q

/-- The fraction `num / den / 2 ^ e` with natural numerator and denominator. -/
def scaleBy (num den : Nat) (e : Int) : Nat × Nat :=
  if 0 ≤ e then (num, den * Nat.pow 2 e.toNat) else (num * Nat.pow 2 (-e).toNat, den)

namespace Binary64

def zero (negative : Bool) : Binary64 := .finite negative 0 (-1074)

/-- The exponent of the unit in which `num / den` has exactly `precision` bits before the point, and
at least the least exponent of the format. -/
def unitExponent (fmt : BinaryFormat) (num den : Nat) : Int :=
  let guess := (num.log2 : Int) - den.log2 - (fmt.precision - 1 : Nat)
  let (n, d) := scaleBy num den guess
  let exact := if n < Nat.pow 2 (fmt.precision - 1) * d then guess - 1 else guess
  max exact fmt.minExponent

/-- A mantissa and exponent in the one form of a binary64 number. -/
def normalize (negative : Bool) (mantissa : Nat) (exponent : Int) : Binary64 :=
  if mantissa = 0 then zero negative
  else
    let shift := min (52 - (mantissa.log2 : Int)) (exponent + 1074)
    .finite negative (mantissa * Nat.pow 2 shift.toNat) (exponent - shift.toNat)

/-- The number of a format nearest to `± num / den`; beyond the largest one lies infinity. Every
number of the shorter formats is a binary64 number. -/
def round (fmt : BinaryFormat) (negative : Bool) (num den : Nat) : Binary64 :=
  if num = 0 then zero negative
  else
    let e := unitExponent fmt num den
    let (n, d) := scaleBy num den e
    let m := roundDiv n d
    let (m, e) := if m = Nat.pow 2 fmt.precision then (m / 2, e + 1) else (m, e)
    if fmt.maxExponent < e then .infinite negative else normalize negative m e

/-- The binary64 number nearest to `± digits · 10 ^ exponent`. Beyond a thousand places the answer
is infinity or zero whatever the digits are. -/
def ofDecimal (negative : Bool) (digits : Nat) (exponent : Int) : Binary64 :=
  let places : Int := (Nat.toDigits 10 digits).length
  if digits = 0 then zero negative
  else if 1000 < exponent + places then .infinite negative
  else if exponent + places < -1000 then zero negative
  else if 0 ≤ exponent then round .binary64 negative (digits * Nat.pow 10 exponent.toNat) 1
  else round .binary64 negative digits (Nat.pow 10 (-exponent).toNat)

/-- The binary64 number nearest to an integer, if that is finite. -/
def ofInt? (n : Int) : Option Binary64 :=
  match round .binary64 (n < 0) n.natAbs 1 with
  | .infinite _ => none
  | x => some x

/-- The number of a shorter format nearest to a binary64 number. -/
def narrow (fmt : BinaryFormat) : Binary64 → Binary64
  | .finite neg m e =>
    if 0 ≤ e then round fmt neg (m * Nat.pow 2 e.toNat) 1 else round fmt neg m (Nat.pow 2 (-e).toNat)
  | x => x

/-! ## Reading -/

/-- The digits at the head of a text, as a number with their count, and the rest. -/
def takeDigits (s : List Char) : Nat × Nat × List Char :=
  let digits := s.takeWhile Char.isDigit
  let value := digits.foldl (fun n c => 10 * n + (c.toNat - '0'.toNat)) 0
  (value, digits.length, s.dropWhile Char.isDigit)

def takeSign : List Char → Bool × List Char
  | '-' :: rest => (true, rest)
  | '+' :: rest => (false, rest)
  | rest => (false, rest)

/-- An optional exponent, the letter `e` with a signed number, up to the end of the text. -/
def readExponent : List Char → Option Int
  | [] => some 0
  | c :: rest =>
    if c = 'e' ∨ c = 'E' then
      let (neg, rest) := takeSign rest
      match takeDigits rest with
      | (n, count, []) => if count = 0 then none else some (if neg then -n else n)
      | _ => none
    else none

/-- Reads an optional sign and a decimal: digits, an optional point with digits, an optional
exponent; or one of the words `inf` and `nan`. -/
def read? (s : List Char) : Option Binary64 :=
  let (neg, body) := takeSign s
  if body = ['i', 'n', 'f'] then some (.infinite neg)
  else if body = ['n', 'a', 'n'] then some .nan
  else
    let (whole, wholeCount, rest) := takeDigits body
    let (fraction, fractionCount, rest) := match rest with
      | '.' :: rest => takeDigits rest
      | rest => (0, 0, rest)
    if wholeCount + fractionCount = 0 then none
    else (readExponent rest).map fun e =>
      ofDecimal neg (whole * Nat.pow 10 fractionCount + fraction) (e - fractionCount)

end Binary64

end FrameGraph
