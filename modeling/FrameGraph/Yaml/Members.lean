import FrameGraph.Value

/-!
# The order of a set's members

The members of a set stand in a table whose size is a power of two, and are gone through by their
places in it. A number goes to the place that its residue names. Where that place is taken, a short
run of places behind it is tried, then the run at another place that the residue leads to, and so
on. The numbers that are equal have one residue, whatever their types.
-/

namespace FrameGraph

namespace Number

/-- Residues are taken modulo this prime, for which `2 ^ 61` is one. -/
def residueModulus : Nat := Nat.pow 2 61 - 1

/-- The residue of what a number denotes, with its sign. The residue minus one is kept free. -/
def Magnitude.residue? : Magnitude → Option Int
  | .undefined => none
  | .infinite negative => some (if negative then -314159 else 314159)
  | .dyadic n e =>
    let r : Int := (n.natAbs * Nat.pow 2 (e % 61).toNat % residueModulus : Nat)
    let signed := if n < 0 then -r else r
    some (if signed = -1 then -2 else signed)

def residue? (n : Number) : Option Int := n.magnitude.residue?

end Number

namespace Yaml

namespace Members

/-- The size of the table for so many members: eight places for a few, else the least power of two
above twice their number. -/
def tableSize (count : Nat) : Nat := if count < 5 then 8 else Nat.pow 2 (Nat.log2 (2 * count) + 1)

/-- A residue as a word of 64 bits. -/
def word (residue : Int) : Nat := (residue % Nat.pow 2 64).toNat

/-- The places that are tried at once, where the table has so many behind the first one. -/
def runLength : Nat := 10

/-- The first free place that is tried: in the run at `place`, and then where that and the rest of
the word lead to. -/
def seek (size : Nat) (isFree : Nat → Bool) : Nat → Nat → Nat → Nat
  | 0, place, _ => place
  | fuel + 1, place, rest =>
    let tries := if place + runLength ≤ size then runLength else 1
    match (List.range' place tries).find? isFree with
    | some free => free
    | none => seek size isFree fuel ((5 * place + 1 + rest / 32) % size) (rest / 32)

/-- Takes up a member. The rest of a word is used up after 13 steps, and from then on the places go
round through the whole table. -/
def place (table : Array (Option Value)) (member : Int × Value) : Array (Option Value) :=
  let size := table.size
  let isFree (k : Nat) : Bool := (table[k]?).join.isNone
  let start := word member.1
  table.setIfInBounds (seek size isFree (size + 14) (start % size) start) (some member.2)

/-- Takes up members in order. -/
def fill (table : Array (Option Value)) (members : List (Int × Value)) : Array (Option Value) :=
  members.foldl place table

/-- The residue of a member, if it is a number that denotes something. -/
def residue? : Value → Option Int
  | .number n => n.residue?
  | _ => none

end Members

/-- The members of a set in the order in which they are gone through. Members of other types than
numbers stand as they are written. -/
def arranged (members : List Value) : List Value :=
  match members.mapM Members.residue? with
  | none => members
  | some residues =>
    let table := Array.replicate (Members.tableSize members.length) none
    (Members.fill table (residues.zip members)).toList.filterMap id

end Yaml

end FrameGraph
