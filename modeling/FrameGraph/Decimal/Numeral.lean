import FrameGraph.Decimal.Binary64
import FrameGraph.Text.Blank
import FrameGraph.Text.Digit

/-!
# Numerals

A numeral is read from a text. White space at its ends does not count, digits of every script stand
for those of ASCII, and single low lines between digits are gaps without meaning. An integer has a
base, which a mark of its own may announce once more; a number with a fraction may be one of the
words for infinity and for what is not a number.
-/

namespace FrameGraph.Numeral

/-- A character of a numeral in ASCII. What stands for nothing there becomes a question mark, which
no numeral holds. -/
def toAscii (c : Char) : Char :=
  if c.toNat < 0x80 then c
  else if Text.isBlank c then ' '
  else
    match Text.digitValue? c with
    | some d => Char.ofNat (0x30 + d)
    | none => '?'

/-- The white space of ASCII that may stand around a numeral. -/
def isMargin (c : Char) : Bool := c = ' ' || (0x09 ≤ c.toNat && c.toNat ≤ 0x0D)

/-- The characters of a numeral in ASCII, without what stands around it. -/
def trimmed (s : List Char) : List Char := Text.stripBy isMargin (s.map toAscii)

/-- Without gaps, which must stand between two digits of a class. -/
def dropGaps? (isDigit : Char → Bool) (afterDigit : Bool) : List Char → Option (List Char)
  | [] => some []
  | c :: rest =>
    if c = '_' then
      if afterDigit && rest.head?.any isDigit then dropGaps? isDigit false rest else none
    else (dropGaps? isDigit (isDigit c) rest).map (c :: ·)

/-- The number that digits to a base denote, if there are any and all are below the base. -/
def ofDigits? (base : Nat) (s : List Char) : Option Nat :=
  if s = [] then none
  else
    s.foldlM (fun n c => do
      let d ← Text.hexValue? c
      if d < base then return base * n + d else none) 0

/-- The letter that announces a base behind a zero. -/
def baseLetter? : Nat → Option Char
  | 2 => some 'b'
  | 8 => some 'o'
  | 16 => some 'x'
  | _ => none

/-- Without the mark of a base, and whether there was one. A gap may follow it. -/
def dropBaseMark (base : Nat) : List Char → Bool × List Char
  | '0' :: c :: rest =>
    if baseLetter? base = some c.toLower then (true, rest) else (false, '0' :: c :: rest)
  | s => (false, s)

def maxDigits : Nat := 4300

def integer? (base : Nat) (s : List Char) : Option Int := do
  let (negative, body) := Binary64.takeSign (trimmed s)
  let (marked, body) := dropBaseMark base body
  let digits ← dropGaps? (fun c => (Text.hexValue? c).isSome) marked body
  if base = 10 ∧ maxDigits < digits.length then none
  else
    let n ← ofDigits? base digits
    return if negative then -n else n

def real? (s : List Char) : Option Binary64 := do
  let s ← dropGaps? Char.isDigit false ((trimmed s).map Char.toLower)
  let (negative, body) := Binary64.takeSign s
  if body = "infinity".toList then return .infinite negative else Binary64.read? s

end FrameGraph.Numeral
