import FrameGraph.Decimal.Binary64

/-!
# The shortest decimal of a binary number

A binary64 number is written with the fewest decimal digits that read back as that number and, of
the decimals with so few digits, with the one nearest to it. The number stands for the interval of
reals that round to it; the ends belong to it when its mantissa is even. For one digit, two digits
and so on up to seventeen the two neighbours of the number on that decimal grid are tried.
-/

namespace FrameGraph

/-- A positive decimal, `digits · 10 ^ exponent`. -/
structure Decimal where
  digits : Nat
  exponent : Int
  deriving Repr, DecidableEq, Inhabited

namespace Decimal

/-- Moves the zeros at the end of the digits into the exponent. -/
def trimZeros : Nat → Decimal → Decimal
  | 0, d => d
  | n + 1, d =>
    if d.digits ≠ 0 ∧ d.digits % 10 = 0 then trimZeros n ⟨d.digits / 10, d.exponent + 1⟩ else d

/-- The decimal digits, most significant first. -/
def digitChars (d : Decimal) : List Char := Nat.toDigits 10 d.digits

/-- The exponent of the first digit. -/
def leading (d : Decimal) : Int := d.exponent + (d.digitChars.length - 1 : Nat)

end Decimal

/-- The fraction `num / den` with its denominator cleared of a decimal unit `10 ^ e`. -/
def scaleByTen (num den : Nat) (e : Int) : Nat × Nat :=
  if 0 ≤ e then (num, den * Nat.pow 10 e.toNat) else (num * Nat.pow 10 (-e).toNat, den)

/-- The exponent of the first decimal digit of a positive fraction. -/
def decimalExponent (num den : Nat) : Int :=
  let guess : Int := ((Nat.toDigits 10 num).length : Int) - (Nat.toDigits 10 den).length
  let (n, d) := scaleByTen num den guess
  if d ≤ n then guess else guess - 1

namespace Shortest

/-- The exponent of the unit of the decimal grid on which a number with the given leading exponent
has `digits` digits. -/
def grid (leading : Int) (digits : Nat) : Int := leading - digits + 1

/-- The reals that round to a number, as numerators over one denominator: the number itself, the
half ways to its lower and to its upper neighbour, and whether these ends round to it. -/
structure Interval where
  value : Nat
  lower : Nat
  upper : Nat
  denominator : Nat
  closed : Bool
  deriving Repr

/-- The interval of a finite number in quarters of its unit. Just above a power of two the lower
neighbour is half as far as the upper one. -/
def Interval.ofFinite (mantissa : Nat) (exponent : Int) : Interval :=
  let quarters (n : Nat) : Nat × Nat := scaleBy n 1 (2 - exponent)
  let low := if mantissa = Nat.pow 2 52 ∧ -1074 < exponent then 4 * mantissa - 1 else 4 * mantissa - 2
  { value := (quarters (4 * mantissa)).1
    lower := (quarters low).1
    upper := (quarters (4 * mantissa + 2)).1
    denominator := (quarters 1).2
    closed := mantissa % 2 = 0 }

/-- Whether `c · 10 ^ unit` lies in the interval. -/
def Interval.contains (i : Interval) (unit : Int) (c : Nat) : Bool :=
  let low := scaleByTen i.lower i.denominator unit
  let high := scaleByTen i.upper i.denominator unit
  if i.closed then low.1 ≤ c * low.2 ∧ c * high.2 ≤ high.1
  else low.1 < c * low.2 ∧ c * high.2 < high.1

/-- The point of a decimal grid in the interval that is nearest to the number, of two equally near
ones the one with the even last digit. -/
def Interval.onGrid? (i : Interval) (unit : Int) : Option Nat :=
  let (num, den) := scaleByTen i.value i.denominator unit
  let below := num / den
  let above := below + 1
  match i.contains unit below, i.contains unit above with
  | false, false => none
  | true, false => some below
  | false, true => some above
  | true, true =>
    let twice := 2 * (num % den)
    if twice < den ∨ (twice = den ∧ below % 2 = 0) then some below else some above

/-- Tries the grids with `digits`, `digits + 1`, … digits; seventeen always suffice. -/
def search (i : Interval) (leading : Int) : Nat → Nat → Decimal
  | 0, digits => ⟨(i.onGrid? (grid leading digits)).getD 0, grid leading digits⟩
  | more + 1, digits =>
    match i.onGrid? (grid leading digits) with
    | some c => ⟨c, grid leading digits⟩
    | none => search i leading more (digits + 1)

end Shortest

/-- The shortest decimal of a positive finite number. -/
def shortest (mantissa : Nat) (exponent : Int) : Decimal :=
  let i := Shortest.Interval.ofFinite mantissa exponent
  (Shortest.search i (decimalExponent i.value i.denominator) 16 1).trimZeros 20

namespace Binary64

/-- How a decimal is written: positional for a leading exponent from `leastPositional` up to but not
including `firstScientific`, else with an exponent of at least `exponentWidth` digits. -/
structure Notation where
  leastPositional : Int
  firstScientific : Int
  exponentWidth : Nat

/-- Numbers from `0.0001` up to `10 ^ 16` are positional, and an exponent has a sign and at least
two digits. -/
def plainNotation : Notation := ⟨-4, 16, 2⟩

/-- The text of an exponent: sign and digits. -/
def exponentText (width : Nat) (e : Int) : List Char :=
  let digits := Nat.toDigits 10 e.natAbs
  (if e < 0 then '-' else '+') :: (List.replicate (width - digits.length) '0' ++ digits)

/-- A positive decimal in a notation. A positional whole number keeps the fraction `.0`; a number of
one digit with an exponent has no point. -/
def Notation.write (n : Notation) (d : Decimal) : List Char :=
  let digits := d.digitChars
  let leading := d.leading
  if leading < n.leastPositional ∨ n.firstScientific ≤ leading then
    let mantissa := match digits with
      | [] => []
      | [c] => [c]
      | c :: rest => c :: '.' :: rest
    mantissa ++ 'e' :: exponentText n.exponentWidth leading
  else if 0 ≤ d.exponent then
    digits ++ List.replicate d.exponent.toNat '0' ++ ['.', '0']
  else if 0 ≤ leading then
    digits.take (leading.toNat + 1) ++ '.' :: digits.drop (leading.toNat + 1)
  else '0' :: '.' :: (List.replicate (-leading - 1).toNat '0' ++ digits)

/-- The text of a number: its shortest decimal, `inf` or `nan`, after a minus sign if it is
negative. -/
def text : Binary64 → String
  | .nan => "nan"
  | .infinite neg => if neg then "-inf" else "inf"
  | .finite neg m e =>
    let body := if m = 0 then ['0', '.', '0'] else plainNotation.write (shortest m e)
    String.ofList (if neg then '-' :: body else body)

end Binary64

end FrameGraph
