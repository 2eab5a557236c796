import FrameGraph.Image.Element
import FrameGraph.Value.Entries

/-!
# Arrays of pixels

The data of a message is an array of elements of one type, with a shape and in row-major order. An
array is read from nested lists, whose lengths are its shape; its type is stated or follows from the
values in them. An index names one element, or all below it if it is shorter than the shape.
-/

namespace FrameGraph

structure PixelArray where
  shape : List Nat
  type : ElementType
  /-- The elements in row-major order. -/
  data : Array Value
  deriving Inhabited

namespace PixelArray

/-- The array of a message without data. -/
def empty : PixelArray := ⟨[0], .uint8, #[]⟩

def dimensions (a : PixelArray) : Nat := a.shape.length

def size (a : PixelArray) : Nat := a.data.size

/-- The number of elements of an array of a shape. -/
def count (shape : List Nat) : Nat := shape.foldl (· * ·) 1

/-! ## Nested lists -/

mutual

/-- A value with the groups of messages in its lists as lists of names. -/
def spelled : Value → Value
  | .group _ members => .list (Value.names members)
  | .list items => .list (spelledItems items)
  | v => v

def spelledItems : List Value → List Value
  | [] => []
  | v :: rest => spelled v :: spelledItems rest

end

/-- The shape that the first items of nested lists suggest. -/
def shapeOf : Value → List Nat
  | .list [] => [0]
  | .list (x :: rest) => (rest.length + 1) :: shapeOf x
  | _ => []

mutual

/-- The values in nested lists of a given shape. Lists of different lengths side by side have no
shape. -/
def flatten : List Nat → Value → Except Fault (List Value)
  | [], .list _ => .error (.badData "")
  | [], v => .ok [v]
  | n :: shape, .list items =>
    if items.length = n then flattenItems shape items else .error (.badData "")
  | _ :: _, _ => .error (.badData "")

def flattenItems (shape : List Nat) : List Value → Except Fault (List Value)
  | [] => .ok []
  | x :: rest => do
    let first ← flatten shape x
    let others ← flattenItems shape rest
    .ok (first ++ others)

end

/-- The shape of nested lists of at most so many dimensions, and the values in them. -/
def nested (most : Nat) (v : Value) : Except Fault (List Nat × List Value) := do
  let v := spelled v
  let shape := shapeOf v
  let values ← flatten shape v
  if shape.length ≤ most then return (shape, values) else throw (.badData "")

def mostDimensions : Nat := 64

def ofValue (v : Value) : Except Fault PixelArray := do
  let (shape, values) ← nested mostDimensions v
  let type := ElementType.ofValues values
  return ⟨shape, type, (← values.mapM type.store).toArray⟩

/-- An array of a stated shape and element type, whose elements are read from a value in order. -/
def ofElements (shape : List Nat) (type : ElementType) (v : Value) : Except Fault PixelArray := do
  let (_, values) ← nested mostDimensions v
  let stored ← values.mapM type.store
  if stored.length = count shape then return ⟨shape, type, stored.toArray⟩
  else throw (.badData "")

/-! ## Elements -/

/-- The places an index names. A negative index counts from the end. -/
def places? : List Nat → List Int → Option (List Nat)
  | shape, [] => some (List.range (count shape))
  | [], _ :: _ => none
  | n :: shape, i :: index =>
    let j := if i < 0 then i + n else i
    if 0 ≤ j ∧ j < n then
      (places? shape index).map fun ks => ks.map (j.toNat * count shape + ·)
    else none

/-- Consecutive parts of a list, each of the same size. -/
def blocks (number size : Nat) (vs : List Value) : List (List Value) :=
  (List.range number).map fun k => (vs.drop (k * size)).take size

/-- The elements of an array of one shape for an array of another one with as many dimensions: a
single item is repeated. -/
def stretch : List Nat → List Nat → List Value → List Value
  | n :: source, m :: target, vs =>
    let parts := (blocks n (count source) vs).map (stretch source target)
    if n = m then parts.flatten else (List.replicate m parts.flatten).flatten
  | _, _, vs => vs

/-- The elements of an array of one shape for an array of another one, if every dimension agrees or
has a single item. Dimensions in front may be missing. -/
def stretch? (source target : List Nat) (vs : List Value) : Option (List Value) :=
  let source := List.replicate (target.length - source.length) 1 ++ source
  if (source.zip target).all fun d => d.1 = d.2 || d.1 = 1 then some (stretch source target vs)
  else none

/-- The elements that values make, up to the first that makes none. -/
def storeEach (type : ElementType) : List Value → List Value × Option Fault
  | [] => ([], none)
  | v :: rest =>
    match type.store v with
    | .ok element =>
      let (elements, fault) := storeEach type rest
      (element :: elements, fault)
    | .error fault => ([], some fault)

/-- The elements that a value makes in a part of an array with the given shape: the element that it
is, if the part is a single one, or else those of nested lists. Lists that have the shape of the
part make elements up to the first that cannot be stored, and others all or none. -/
def elementsFor (type : ElementType) (target : List Nat) (v : Value) : List Value × Option Fault :=
  match if target = [] then .ok ([], [v]) else nested target.length v with
  | .error fault => ([], some fault)
  | .ok (source, values) =>
    match storeEach type values with
    | (elements, none) =>
      match stretch? source target elements with
      | some elements => (elements, none)
      | none => ([], some (.badData ""))
    | (elements, some fault) => (if source = target then elements else [], some fault)

/-- Changes the elements an index names: one to a value, several to one value or to those in nested
lists. What was changed before a value that cannot be stored stays changed. -/
def set (a : PixelArray) (index : List Int) (v : Value) : PixelArray × Option Fault :=
  match places? a.shape index with
  | none => (a, some .indexOutOfRange)
  | some places =>
    let (elements, fault) := elementsFor a.type (a.shape.drop index.length) v
    let changes := places.zip elements
    ({ a with data := changes.foldl (fun d e => d.setIfInBounds e.1 e.2) a.data }, fault)

end PixelArray

end FrameGraph
