import FrameGraph.Value

/-!
# Elements of arrays

An array holds elements of one type: truth values, integers of a width, floating-point numbers of a
format, texts or byte strings of a length, or any values. A value is stored by the rules of the
type, and several values have a type that takes all of them.

* `ElementType.store`: a value as an element.
* `ElementType.join`: the type for the elements of two types.
-/

namespace FrameGraph

inductive ElementType where
  | bool
  | int8
  | uint8
  | int16
  | uint16
  | int32
  | uint32
  | int64
  | uint64
  | float16
  | float32
  | float64
  | text (length : Nat)
  | bytes (length : Nat)
  /-- Values of any type. -/
  | any
  deriving DecidableEq, Repr, Inhabited

namespace ElementType

def named : List ElementType :=
  [bool, int8, uint8, int16, uint16, int32, uint32, int64, uint64, float16, float32, float64, any]

def name : ElementType → String
  | bool => "bool"
  | int8 => "int8"
  | uint8 => "uint8"
  | int16 => "int16"
  | uint16 => "uint16"
  | int32 => "int32"
  | uint32 => "uint32"
  | int64 => "int64"
  | uint64 => "uint64"
  | float16 => "float16"
  | float32 => "float32"
  | float64 => "float64"
  | text length => "<U" ++ toString length
  | bytes length => "|S" ++ toString length
  | any => "object"

def ofName? (s : String) : Option ElementType := named.find? fun t => t.name == s

/-- The least and the greatest integer of an integer type. -/
def range? : ElementType → Option (Int × Int)
  | int8 => some (-(Nat.pow 2 7), Nat.pow 2 7 - 1)
  | uint8 => some (0, Nat.pow 2 8 - 1)
  | int16 => some (-(Nat.pow 2 15), Nat.pow 2 15 - 1)
  | uint16 => some (0, Nat.pow 2 16 - 1)
  | int32 => some (-(Nat.pow 2 31), Nat.pow 2 31 - 1)
  | uint32 => some (0, Nat.pow 2 32 - 1)
  | int64 => some (-(Nat.pow 2 63), Nat.pow 2 63 - 1)
  | uint64 => some (0, Nat.pow 2 64 - 1)
  | _ => none

def format? : ElementType → Option BinaryFormat
  | float16 => some .binary16
  | float32 => some .binary32
  | float64 => some .binary64
  | _ => none

/-! ## Conversions of values -/

/-- An integer towards zero from a floating-point number. -/
def truncate : Binary64 → Except Fault Int
  | .nan => .error (.badData "")
  | .infinite _ => .error .overflow
  | .finite neg m e =>
    let n := (scaleBy m 1 (-e)).1 / (scaleBy m 1 (-e)).2
    .ok (if neg then -n else n)

/-- The characters of a byte string, in which only those of ASCII mean something. -/
def asciiChars (data : List UInt8) : List Char :=
  data.map fun b => if b < 0x80 then Char.ofNat b.toNat else '\uFFFD'

/-- The numeral that a text or a byte string is read as. -/
def numeral? : Value → Option (List Char)
  | .text s => some s.toList
  | .bytes data => some (asciiChars data)
  | _ => none

/-- A value as an integer: a number towards zero, or what a numeral denotes. -/
def integerOf (v : Value) : Except Fault Int :=
  match v with
  | .bool b => .ok (if b then 1 else 0)
  | .int n => .ok n
  | .float x => truncate x
  | v =>
    match (numeral? v).map (Numeral.integer? 10) with
    | some (some n) => .ok n
    | some none => .error (.badData "")
    | none => .error .wrongType

/-- A value as a floating-point number: a number, what a numeral denotes, or no number at all. -/
def realOf (v : Value) : Except Fault Binary64 :=
  match v with
  | .null => .ok .nan
  | .number n =>
    match n.toBinary64? with
    | some x => .ok x
    | none => .error .overflow
  | v =>
    match (numeral? v).map Numeral.real? with
    | some (some x) => .ok x
    | some none => .error (.badData "")
    | none => .error .wrongType

/-- A value as a text: byte strings are read as ASCII, and sequences have no text. -/
def textOf (v : Value) : Except Fault String :=
  match v with
  | .text s => .ok s
  | .bytes data =>
    if data.all (· < 0x80) then .ok (String.ofList (asciiChars data)) else .error (.badData "")
  | .list _ => .error (.badData "")
  | v => v.literal fun _ => .error .wrongType

/-- The characters of a text up to a length, without null characters at the end. -/
def cut (length : Nat) (s : List Char) : List Char :=
  ((s.take length).reverse.dropWhile (· = '\x00')).reverse

/-! ## Storing -/

/-- Whether an integer type takes unsigned words of 64 bits before signed ones. -/
def takesUnsigned : ElementType → Bool
  | uint32 => true
  | uint64 => true
  | _ => false

/-- An integer as an element of an integer type. Integers must lie in its range; what comes from
other values must fit a word of 64 bits, of which the low bits count. -/
def storeInteger (t : ElementType) (range : Int × Int) (v : Value) : Except Fault Value := do
  let n ← integerOf v
  let (low, high) := range
  let isExact := v matches .bool _ || v matches .int _
  if low ≤ n ∧ n ≤ high then return .int n
  else if isExact then throw .overflow
  else if -(Nat.pow 2 63) ≤ n ∧ (n < Nat.pow 2 63 ∨ (t.takesUnsigned ∧ n < Nat.pow 2 64)) then
    return .int (low + (n - low) % (high - low + 1))
  else throw .overflow

def store (t : ElementType) (v : Value) : Except Fault Value :=
  match t with
  | bool => .ok (.bool v.truthy)
  | any => .ok v
  | text length => do return .text (String.ofList (cut length (← textOf v).toList))
  | bytes length =>
    match v with
    | .bytes data => .ok (.bytes (((data.take length).reverse.dropWhile (· = 0)).reverse))
    | v => do
      let chars := (← textOf v).toList
      if chars.all fun c => c.toNat < 0x80 then
        return .bytes ((cut length chars).map fun c => UInt8.ofNat c.toNat)
      else throw (.badData "")
  | t =>
    match t.range?, t.format? with
    | some range, _ => t.storeInteger range v
    | none, some format => do return .float ((← realOf v).narrow format)
    | none, none => .error .wrongType

/-! ## Types of values -/

/-- The type of the element that a value makes on its own. Texts take at least one place. -/
def ofValue : Value → ElementType
  | .bool _ => bool
  | .int n =>
    if -(Nat.pow 2 63) ≤ n ∧ n < Nat.pow 2 63 then int64 else if 0 ≤ n ∧ n < Nat.pow 2 64 then uint64 else any
  | .float _ => float64
  | .text s => text (max 1 s.length)
  | .bytes data => bytes (max 1 data.length)
  | _ => any

/-- The number of characters that the elements of a type take as texts. -/
def textLength : ElementType → Nat
  | bool => 5
  | int64 => 21
  | uint64 => 20
  | float64 => 32
  | text length => length
  | bytes length => length
  | _ => 0

/-- The type for the elements of two of the types that values have on their own. -/
def join (t u : ElementType) : ElementType :=
  if t = u then t
  else
    match t, u with
    | any, _ => any
    | _, any => any
    | text _, _ => text (max t.textLength u.textLength)
    | _, text _ => text (max t.textLength u.textLength)
    | bytes _, _ => bytes (max t.textLength u.textLength)
    | _, bytes _ => bytes (max t.textLength u.textLength)
    | bool, u => u
    | t, bool => t
    | _, _ => float64

def ofValues : List Value → ElementType
  | [] => float64
  | v :: rest => rest.foldl (fun t v => t.join (ofValue v)) (ofValue v)

end ElementType

end FrameGraph
