import FrameGraph.Decimal.Arithmetic
import FrameGraph.Decimal.Numeral
import FrameGraph.Fault
import FrameGraph.Text.Quoted
import FrameGraph.Yaml.Tag

/-!
# Numbers of a document

What an integer or a floating-point number that is written in a document denotes. Gaps between
digits do not count. A text with a tag of its own need not have the form of a number, and is then
not readable.
-/

namespace FrameGraph.Yaml

def dropGaps (s : List Char) : List Char := s.filter (· ≠ '_')

/-- A number that was read, if there is one. -/
def numeral {α : Type} (s : List Char) : Option α → Except Fault α
  | some n => .ok n
  | none => .error (.badData s!"not a numeral: {Text.quoteText (String.ofList s)}")

def integer (base : Nat) (s : List Char) : Except Fault Int :=
  numeral s (Numeral.integer? base s)

def real (s : List Char) : Except Fault Binary64 := numeral s (Numeral.real? s)

/-- The integer that a text denotes: to the base two, sixteen or eight after a mark, to the base
sixty where it has colons, and to the base ten otherwise. -/
def readInt (text : String) : Except Fault Int := do
  let s := dropGaps text.toList
  if s = [] then .error .indexOutOfRange
  else
    let (negative, s) := Binary64.takeSign s
    let n ← match s with
      | [] => .error .indexOutOfRange
      | ['0'] => .ok 0
      | '0' :: 'b' :: digits => integer 2 digits
      | '0' :: 'x' :: digits => integer 16 digits
      | '0' :: digits => integer 8 ('0' :: digits)
      | s =>
        if ':' ∈ s then do
          let digits ← (splitAt ':' s).mapM (integer 10)
          .ok (digits.foldl (fun n digit => 60 * n + digit) 0)
        else integer 10 s
    .ok (if negative then -n else n)

/-- The sum of the digits of a number to the base sixty, the last of which comes first and counts
`weight`. -/
def sexagesimal (sum : Binary64) (weight : Int) : List Binary64 → Except Fault Binary64
  | [] => .ok sum
  | digit :: rest =>
    match Binary64.ofInt? weight with
    | some w => sexagesimal (sum.add (digit.mul w)) (60 * weight) rest
    | none => .error .overflow

/-- A floating-point number that was read. The word for what is no number always gives the same
value. -/
inductive ReadFloat where
  | undefined
  | value (x : Binary64)

def readFloat (text : String) : Except Fault ReadFloat := do
  let s := (dropGaps text.toList).map Char.toLower
  if s = [] then .error .indexOutOfRange
  else
    let (negative, s) := Binary64.takeSign s
    if s = ['.', 'n', 'a', 'n'] then .ok .undefined
    else
      let x ←
        if s = ['.', 'i', 'n', 'f'] then .ok (.infinite false)
        else if ':' ∈ s then do
          let digits ← (splitAt ':' s).mapM real
          sexagesimal (.zero false) 1 digits.reverse
        else real s
      .ok (.value (if negative then x.neg else x))

end FrameGraph.Yaml
