import FrameGraph.Decimal.Numeral
import FrameGraph.Decimal.Shortest
import FrameGraph.Fault

/-!
# Numbers of a configuration

A configured number is a truth value, an integer or a floating-point number. They compare by what
they denote: `true` is one and `false` is zero, and an integer compares with a floating-point number
exactly, however large it is. A floating-point number that is not a number compares false with
everything, itself included.

* `lt_int`, `le_int`: on integers the comparisons are those of the integers.
-/

namespace FrameGraph

inductive Number where
  | bool (b : Bool)
  | int (n : Int)
  | float (x : Binary64)
  deriving DecidableEq, Repr, Inhabited

namespace Number

/-- What a number denotes: nothing, an infinity, or `n · 2 ^ e`. -/
inductive Magnitude where
  | undefined
  | infinite (negative : Bool)
  | dyadic (n : Int) (e : Int)
  deriving DecidableEq, Repr

def magnitude : Number → Magnitude
  | .bool b => .dyadic (if b then 1 else 0) 0
  | .int n => .dyadic n 0
  | .float .nan => .undefined
  | .float (.infinite neg) => .infinite neg
  | .float (.finite neg m e) => .dyadic (if neg then -m else m) e

/-- Two dyadic numbers as multiples of the smaller unit. -/
def align (n : Int) (e : Int) (m : Int) (f : Int) : Int × Int :=
  let unit := min e f
  (n * Nat.pow 2 (e - unit).toNat, m * Nat.pow 2 (f - unit).toNat)

/-- The order of what two numbers denote, if both denote something. -/
def Magnitude.compare? : Magnitude → Magnitude → Option Ordering
  | .undefined, _ => none
  | _, .undefined => none
  | .infinite a, .infinite b => some (if a = b then .eq else if a then .lt else .gt)
  | .infinite a, .dyadic _ _ => some (if a then .lt else .gt)
  | .dyadic _ _, .infinite b => some (if b then .gt else .lt)
  | .dyadic n e, .dyadic m f => let (x, y) := align n e m f; some (compare x y)

def compare? (a b : Number) : Option Ordering := a.magnitude.compare? b.magnitude

def lt (a b : Number) : Bool := a.compare? b == some .lt

def le (a b : Number) : Bool := a.compare? b == some .lt || a.compare? b == some .eq

def equal (a b : Number) : Bool := a.compare? b == some .eq

def isZero (a : Number) : Bool := a.equal (.int 0)

/-- The text of a number. Integers of too many digits have none. -/
def text : Number → Except Fault String
  | .bool b => .ok (if b then "True" else "False")
  | .int n => if n.natAbs < Nat.pow 10 Numeral.maxDigits then .ok (toString n) else .error .tooManyDigits
  | .float x => .ok x.text

/-- The binary64 number nearest to a number, unless the number is an integer beyond all of them. -/
def toBinary64? : Number → Option Binary64
  | .bool b => Binary64.ofInt? (if b then 1 else 0)
  | .int n => Binary64.ofInt? n
  | .float x => some x

theorem text_error {n : Number} {fault : Fault} (h : n.text = .error fault) :
    fault.isBadValue = true := by
  cases n with
  | bool b => cases h
  | float x => cases h
  | int k =>
    rw [text] at h
    split at h <;> cases h
    rfl

/-! ## Comparison of integers -/

theorem align_zero (n m : Int) : align n 0 m 0 = (n, m) := by simp [align]

theorem compare?_int (a b : Int) : (int a).compare? (int b) = some (compare a b) := by
  simp [compare?, magnitude, Magnitude.compare?, align_zero]

@[simp] theorem lt_int (a b : Int) : (int a).lt (int b) = decide (a < b) := by
  simp only [lt, compare?_int]
  rcases Int.lt_trichotomy a b with h | h | h
  · simp [compare, compareOfLessAndEq, h]
  · simp [compare, compareOfLessAndEq, h]
  · have h1 : ¬ a < b := by omega
    have h2 : ¬ a = b := by omega
    simp [compare, compareOfLessAndEq, h1, h2]

@[simp] theorem le_int (a b : Int) : (int a).le (int b) = decide (a ≤ b) := by
  simp only [le, compare?_int]
  rcases Int.lt_trichotomy a b with h | h | h
  · have h1 : a ≤ b := by omega
    simp [compare, compareOfLessAndEq, h, h1]
  · simp [compare, compareOfLessAndEq, h]
  · have h1 : ¬ a < b := by omega
    have h2 : ¬ a = b := by omega
    have h3 : ¬ a ≤ b := by omega
    simp [compare, compareOfLessAndEq, h1, h2, h3]

end Number

end FrameGraph
