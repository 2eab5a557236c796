import FrameGraph.Value

/-!
# Assets

Binary resources of a node or a pipeline are kept on a shelf under absolute keys: a key that does
not start with a slash is put behind the root of its shelf. Replacing an asset keeps its place.

* `find?_put_self`, `find?_put_of_ne`: what is put under a key is found under it and changes no
  other.
-/

namespace FrameGraph

structure Asset where
  key : String
  data : List UInt8
  deriving DecidableEq, Repr, Inhabited

namespace Asset

def size (a : Asset) : Nat := a.data.length

def text (a : Asset) : String := "Asset(key=" ++ a.key ++ ", size=" ++ toString a.size ++ ")"

/-- Counts from the negative of this one on, and below it, can be stated. -/
def countLimit : Int := Nat.pow 2 63

/-- The bytes that come with a byte string, which count with its own. -/
def overhead : Int := 33

/-- Counts below this one can be held. -/
def memoryLimit : Int := Nat.pow 2 40

def byteOf : Value → Except Fault UInt8
  | .bool b => .ok (if b then 1 else 0)
  | .int n => if 0 ≤ n ∧ n < 256 then .ok (UInt8.ofNat n.toNat) else .error (.badData "")
  | _ => .error .wrongType

/-- A value as bytes: a byte string itself, as many zero bytes as a number says, the bytes of a list
or of the keys of a dictionary, or none for a group without members. -/
def dataOf : Value → Except Fault (List UInt8)
  | .bytes data => .ok data
  | .bool b => .ok (if b then [0] else [])
  | .int n =>
    if n < -countLimit ∨ countLimit ≤ n + overhead then .error .overflow
    else if n < 0 then .error (.badData "")
    else if memoryLimit ≤ n then .error .outOfMemory
    else .ok (List.replicate n.toNat 0)
  | .list items => items.mapM byteOf
  | .dict entries => (entries.map Prod.fst).mapM byteOf
  | .group _ members => if members = [] then .ok [] else .error .wrongType
  | _ => .error .wrongType

end Asset

def isAbsoluteKey (key : String) : Bool := key.toList.head? = some '/'

/-- The assets of one owner, in the order in which their keys were first set. -/
structure Shelf where
  root : String
  assets : List Asset := []
  deriving Repr, Inhabited

namespace Shelf

def fullKey (s : Shelf) (key : String) : String := if isAbsoluteKey key then key else s.root ++ key

def find? (key : String) : List Asset → Option Asset
  | [] => none
  | a :: rest => if a.key = key then some a else find? key rest

/-- Puts an asset into a list in the place of the one with its key, else at the end. -/
def put (asset : Asset) : List Asset → List Asset
  | [] => [asset]
  | a :: rest => if a.key = asset.key then asset :: rest else a :: put asset rest

def get? (s : Shelf) (key : String) : Option Asset := find? (s.fullKey key) s.assets

def set (s : Shelf) (key : String) (data : List UInt8) : Shelf × Asset :=
  let asset : Asset := ⟨s.fullKey key, data⟩
  ({ s with assets := put asset s.assets }, asset)

/-- Removes the asset under a key, and tells whether there was one. -/
def remove (s : Shelf) (key : String) : Shelf × Bool :=
  ({ s with assets := s.assets.filter fun a => a.key ≠ s.fullKey key }, (s.get? key).isSome)

def contains (s : Shelf) (key : String) : Bool := (s.get? key).isSome

def size (s : Shelf) : Nat := s.assets.length

def text (s : Shelf) : String :=
  "AssetManager(root=" ++ Text.quoteText s.root ++ ", assets=" ++ toString s.size ++ ")"

theorem find?_put_self (asset : Asset) (assets : List Asset) :
    find? asset.key (put asset assets) = some asset := by
  induction assets with
  | nil => simp [put, find?]
  | cons a rest ih =>
    by_cases h : a.key = asset.key
    · simp [put, h, find?]
    · simp [put, h, find?, ih]

theorem find?_put_of_ne (asset : Asset) (assets : List Asset) {key : String} (h : asset.key ≠ key) :
    find? key (put asset assets) = find? key assets := by
  induction assets with
  | nil => simp [put, find?, h]
  | cons a rest ih =>
    by_cases ha : a.key = asset.key
    · have : a.key ≠ key := ha ▸ h
      simp [put, ha, find?, h]
    · simp [put, ha, find?, ih]

end Shelf

end FrameGraph
