import FrameGraph.Decimal.Binary64

/-!
# Sums and products of binary floating-point numbers

The sum and the product of two numbers are their exact values, rounded once. An infinity absorbs
finite numbers; opposite infinities have no sum, and an infinity and zero have no product.
-/

namespace FrameGraph.Binary64

/-- The number nearest to `± n · 2 ^ e`. -/
def ofDyadic (negative : Bool) (n : Nat) (e : Int) : Binary64 :=
  if 0 ≤ e then round .binary64 negative (n * Nat.pow 2 e.toNat) 1
  else round .binary64 negative n (Nat.pow 2 (-e).toNat)

def signed (negative : Bool) (n : Nat) : Int := if negative then -n else n

/-- The sum. A sum of zero is negative only if both numbers are. -/
def add : Binary64 → Binary64 → Binary64
  | .nan, _ => .nan
  | _, .nan => .nan
  | .infinite a, .infinite b => if a = b then .infinite a else .nan
  | .infinite a, _ => .infinite a
  | _, .infinite b => .infinite b
  | .finite a m e, .finite b n f =>
    let unit := min e f
    let total := signed a m * Nat.pow 2 (e - unit).toNat + signed b n * Nat.pow 2 (f - unit).toNat
    if total = 0 then zero (a && b && m = 0 && n = 0) else ofDyadic (total < 0) total.natAbs unit

def mul : Binary64 → Binary64 → Binary64
  | .nan, _ => .nan
  | _, .nan => .nan
  | .infinite a, .infinite b => .infinite (a != b)
  | .infinite a, .finite b n _ => if n = 0 then .nan else .infinite (a != b)
  | .finite a m _, .infinite b => if m = 0 then .nan else .infinite (a != b)
  | .finite a m e, .finite b n f => ofDyadic (a != b) (m * n) (e + f)

def neg : Binary64 → Binary64
  | .nan => .nan
  | .infinite a => .infinite !a
  | .finite a m e => .finite (!a) m e

end FrameGraph.Binary64
