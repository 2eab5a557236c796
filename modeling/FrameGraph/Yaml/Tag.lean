import FrameGraph.Number
import FrameGraph.Yaml.Timestamp

/-!
# Tags

A tag says what a node of a document stands for. A scalar without quotes that has no tag gets one
from its text: the words for nothing, for truth values and for two keys of mappings, the forms of
integers and floating-point numbers, and the forms of dates and times; every other scalar is a text.

* `Tag.ofPlain`: the tag of a scalar without quotes.
-/

namespace FrameGraph.Yaml

inductive Tag where
  | null
  | bool
  | int
  | float
  | text
  | timestamp
  /-- A byte string in Base64. -/
  | binary
  | list
  | dict
  /-- A list of pairs, one from each of a sequence of mappings. -/
  | pairs
  | set
  /-- The key that merges other mappings. -/
  | merge
  /-- The key of a mapping's default value. -/
  | default
  /-- A tag that stands for nothing. -/
  | unknown (name : String)
  deriving DecidableEq, Repr

/-- The beginning of the full names of tags. -/
def Tag.standard : String := "tag:yaml.org,2002:"

def Tag.ofName (name : String) : Tag :=
  match ([("null", .null), ("bool", .bool), ("int", .int), ("float", .float), ("str", .text),
      ("timestamp", .timestamp), ("binary", .binary), ("seq", .list), ("map", .dict),
      ("omap", .pairs), ("pairs", .pairs), ("set", .set), ("merge", .merge),
      ("value", .default)].find? fun e => Tag.standard ++ e.1 = name) with
  | some e => e.2
  | none => .unknown name

/-! ## Words -/

def isNullWord (s : String) : Bool := ["", "~", "null", "Null", "NULL"].contains s

/-- A word in lower case, with a capital or in upper case. -/
def casings (word : String) : List String := [word, word.capitalize, word.map Char.toUpper]

def trueWords : List String := ["yes", "true", "on"]
def falseWords : List String := ["no", "false", "off"]

def isBoolWord (s : String) : Bool := (trueWords ++ falseWords).any fun w => (casings w).contains s

/-! ## Numbers -/

/-- Whether a text is not empty and has only characters of a class. -/
def isRun (p : Char → Bool) (s : List Char) : Bool := s ≠ [] && s.all p

def isDigitOrGap (c : Char) : Bool := c.isDigit || c = '_'

/-- Whether a text begins with a digit that a class admits and has only digits and gaps. -/
def isGrouped (leading : Char → Bool) : List Char → Bool
  | [] => false
  | c :: rest => leading c && rest.all isDigitOrGap

def dropSign (s : List Char) : List Char := (Binary64.takeSign s).2

def splitAt (mark : Char) : List Char → List (List Char)
  | [] => [[]]
  | c :: rest =>
    if c = mark then [] :: splitAt mark rest
    else
      match splitAt mark rest with
      | part :: parts => (c :: part) :: parts
      | [] => [[c]]

/-- Whether a text is a number below sixty, of one or two digits. -/
def isSixtieth : List Char → Bool
  | [c] => c.isDigit
  | [c, d] => '0' ≤ c && c ≤ '5' && d.isDigit
  | _ => false

/-- Whether parts are the digits of a number to the base sixty, of which there are at least two. -/
def isSexagesimal (leading : Char → Bool) : List (List Char) → Bool
  | first :: second :: rest =>
    isGrouped leading first && (second :: rest).all isSixtieth
  | _ => false

def isNonzeroDigit (c : Char) : Bool := c.isDigit && c ≠ '0'

/-- The forms of integers: binary, octal, decimal, hexadecimal, and to the base sixty. -/
def isIntForm (s : List Char) : Bool :=
  let s := dropSign s
  let based := match s with
    | '0' :: 'b' :: digits => isRun (fun c => c = '0' || c = '1' || c = '_') digits
    | '0' :: 'x' :: digits =>
    isRun (fun c => isDigitOrGap c || 'a' ≤ c && c ≤ 'f' || 'A' ≤ c && c ≤ 'F') digits
    | '0' :: digits => isRun (fun c => '0' ≤ c && c ≤ '7' || c = '_') digits
    | _ => false
  based || s = ['0'] || isGrouped isNonzeroDigit s || isSexagesimal isNonzeroDigit (splitAt ':' s)

/-- An exponent after a fraction: it has a sign. -/
def isExponentForm : List Char → Bool
  | [] => true
  | e :: sign :: digits =>
    (e = 'e' || e = 'E') && (sign = '-' || sign = '+') && isRun Char.isDigit digits
  | _ => false

/-- The forms of floating-point numbers: with a point, to the base sixty, and three words. A number
that begins with the point has no sign. -/
def isFloatForm (s : List Char) : Bool :=
  let body := dropSign s
  let whole := body.takeWhile (· ≠ '.')
  match body.dropWhile (· ≠ '.') with
  | '.' :: rest =>
    let ending := rest.dropWhile isDigitOrGap
    if whole = [] then
      [".inf", ".Inf", ".INF"].contains (String.ofList body) ||
        [".nan", ".NaN", ".NAN"].contains (String.ofList s) ||
        (s = body && rest.head?.any Char.isDigit && isExponentForm ending)
    else
      (isGrouped Char.isDigit whole && isExponentForm ending) ||
        (isSexagesimal Char.isDigit (splitAt ':' whole) && ending = [])
  | _ => false

def Tag.ofPlain (s : String) : Tag :=
  let chars := s.toList
  if isNullWord s then .null
  else if isBoolWord s then .bool
  else if isFloatForm chars then .float
  else if isIntForm chars then .int
  else if s = "<<" then .merge
  else if s = "=" then .default
  else if (Timestamp.read? chars).any Timestamp.isPlain then .timestamp
  else .text

end FrameGraph.Yaml
