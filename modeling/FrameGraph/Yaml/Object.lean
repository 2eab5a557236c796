import FrameGraph.Text.Base64
import FrameGraph.Value
import FrameGraph.Yaml.Document
import FrameGraph.Yaml.Numeral

/-!
# The objects of a document

Every node of a document becomes one object, however many aliases stand for it. The object of a
sequence or mapping is made empty and filled later, in the order in which such objects were made,
so an object may come to contain itself. What is wrong with a node is found when its object is made
or filled. A mapping takes in the entries of the mappings under its merge keys first, in front of
its own ones.

* `Objects.ofDocument`: the objects of a document.
-/

namespace FrameGraph.Yaml

/-- What an object holds; other objects are given by their numbers. -/
inductive Holding where
  | atom (v : Value)
  | list (items : List Nat)
  | tuple (items : List Nat)
  | set (members : List Nat)
  | dict (entries : List (Nat × Nat))
  deriving Inhabited

/-- The objects of a document by number, and the number of the one that contains the others. -/
structure Objects where
  holdings : Array Holding
  root : Nat

/-- The objects made so far. -/
structure Builder where
  parts : Array Part
  /-- The first object is what is no number, which is the same one everywhere. -/
  holdings : Array Holding := #[.atom (.float .nan)]
  /-- The objects of nodes, by the numbers of these. -/
  made : Array (Option Nat)
  /-- The nodes whose objects were made empty, oldest first. -/
  begun : Array Nat := #[]

abbrev Building := EStateM Fault Builder

namespace Building

/-- What goes wrong with a node that does not fit its tag. -/
def misfit {α : Type} : Building α := throw (.document .construction)

def require {α : Type} (x : Except Fault α) : Building α :=
  match x with
  | .ok a => pure a
  | .error fault => throw fault

def part (number : Nat) : Building Part := do return ((← get).parts[number]?).getD default

def hasTag (tag : Tag) (number : Nat) : Building Bool := do return (← part number).tag = tag

def make (h : Holding) : Building Nat := do
  let number := (← get).holdings.size
  modify fun s => { s with holdings := s.holdings.push h }
  return number

/-! ## Scalars -/

/-- The text of a scalar, or of the default value of a mapping. -/
def textOf : Nat → Nat → Building String
  | 0, _ => throw .tooDeep
  | fuel + 1, number => do
    match (← part number).content with
    | .scalar text => return text
    | .sequence _ => misfit
    | .mapping entries =>
      match ← entries.findM? fun e => hasTag .default e.1 with
      | some e => textOf fuel e.2
      | none => misfit

/-- The truth value of a word in any case. -/
def boolOfWord (s : String) : Except Fault Bool :=
  let word := s.map Char.toLower
  if trueWords.contains word then .ok true
  else if falseWords.contains word then .ok false
  else .error .notATruthWord

/-- The date or moment of a text, which may end in a line end. Only scalars have one. -/
def timestampOf (text : String) : Content → Except Fault Value
  | .scalar _ =>
    let s := text.toList
    let s := if s.getLast? = some '\n' then s.dropLast else s
    match Timestamp.read? s with
    | some t => t.value
    | none => .error .noMember
  | _ => .error .wrongType

def bytesOf (text : String) : Except Fault Value :=
  let isAscii := text.toList.all fun c => c.toNat < 0x80
  match if isAscii then Text.Base64.read? text.toList else none with
  | some data => .ok (.bytes data)
  | none => .error (.document .construction)

def makeScalar (tag : Tag) (content : Content) (text : String) : Building Nat := do
  match tag with
  | .null => make (.atom .null)
  | .bool => make (.atom (.bool (← require (boolOfWord text))))
  | .int => make (.atom (.int (← require (readInt text))))
  | .float =>
    match ← require (readFloat text) with
    | .undefined => return 0
    | .value x => make (.atom (.float x))
  | .text => make (.atom (.text text))
  | .timestamp => make (.atom (← require (timestampOf text content)))
  | .binary => make (.atom (← require (bytesOf text)))
  | _ => misfit

/-! ## Objects -/

/-- The empty object of a collection, for the tags that stand for one. -/
def emptyHolding? : Tag → Option Holding
  | .list => some (.list [])
  | .pairs => some (.list [])
  | .set => some (.set [])
  | .dict => some (.dict [])
  | _ => none

def isKnown : Tag → Bool
  | .merge | .default | .unknown _ => false
  | _ => true

/-- The object of a node, which is made if need be. -/
def object (number : Nat) : Building Nat := do
  let s ← get
  match (s.made[number]?).join with
  | some o => return o
  | none =>
    let p ← part number
    let o ← match emptyHolding? p.tag with
      | some h => do
        let o ← make h
        modify fun s => { s with begun := s.begun.push number }
        pure o
      | none =>
        if isKnown p.tag then do makeScalar p.tag p.content (← textOf (s.parts.size + 1) number)
        else misfit
    modify fun s => { s with made := s.made.setIfInBounds number (some o) }
    return o

/-! ## Mappings -/

def entriesOf (number : Nat) : Building (List (Nat × Nat)) := do
  match (← part number).content with
  | .mapping entries => return entries
  | _ => misfit

def setEntries (number : Nat) (entries : List (Nat × Nat)) : Building Unit :=
  modify fun s =>
    { s with parts := s.parts.modify number fun p => { p with content := .mapping entries } }

/-- Makes the keys of default values texts like others. -/
def renameDefault (number : Nat) : Building Unit := do
  if ← hasTag .default number then
    modify fun s => { s with parts := s.parts.modify number fun p => { p with tag := .text } }

/-- Removes the first entry under a merge key and answers its value. -/
def takeMerge? (number : Nat) : Building (Option Nat) := do
  let entries ← entriesOf number
  match ← entries.findM? fun e => hasTag .merge e.1 with
  | none => return none
  | some e =>
    setEntries number (entries.eraseP fun f => f.1 = e.1)
    return some e.2

/-- Puts the entries of the mappings under the merge keys of a mapping in front of its own. Of
several mappings the first one comes last, so that it overrides the others. -/
def flatten : Nat → Nat → Building Unit
  | 0, _ => throw .tooDeep
  | fuel + 1, number => do
    let mergedFrom (number : Nat) : Building (List (Nat × Nat)) := do
      flatten fuel number
      entriesOf number
    let mut merged := []
    for _ in ← entriesOf number do
      match ← takeMerge? number with
      | none => pure ()
      | some source =>
        match (← part source).content with
        | .mapping _ => merged := merged ++ (← mergedFrom source)
        | .sequence items => merged := merged ++ (← items.mapM mergedFrom).reverse.flatten
        | .scalar _ => misfit
    setEntries number (merged ++ (← entriesOf number))
    (← entriesOf number).forM fun e => renameDefault e.1

def isKey (o : Nat) : Building Bool := do
  match (← get).holdings[o]? with
  | some (.atom v) => return v.isKey
  | _ => return false

def sameKey (a b : Nat) : Building Bool := do
  let s ← get
  match s.holdings[a]?, s.holdings[b]? with
  | some (.atom v), some (.atom w) => return a = b || v.equal w
  | _, _ => return false

/-- Writes an entry: a key keeps its place and its first object. -/
def insert (key value : Nat) : List (Nat × Nat) → Building (List (Nat × Nat))
  | [] => return [(key, value)]
  | e :: rest => do
    if ← sameKey key e.1 then return (e.1, value) :: rest
    else return e :: (← insert key value rest)

def mappingEntries (number : Nat) : Building (List (Nat × Nat)) := do
  let _ ← entriesOf number
  flatten ((← get).parts.size + 1) number
  (← entriesOf number).foldlM (fun d e => do
    let key ← object e.1
    if !(← isKey key) then misfit
    insert key (← object e.2) d) []

/-! ## Filling -/

def itemsOf (number : Nat) : Building (List Nat) := do
  match (← part number).content with
  | .sequence items => return items
  | _ => misfit

/-- The pair of a mapping with one entry. -/
def pair (number : Nat) : Building Nat := do
  match ← entriesOf number with
  | [(k, v)] => do
    let key ← object k
    make (.tuple [key, ← object v])
  | _ => misfit

def holding (number : Nat) : Building Holding := do
  match (← part number).tag with
  | .list => return .list (← (← itemsOf number).mapM object)
  | .pairs => return .list (← (← itemsOf number).mapM pair)
  | .set => return .set ((← mappingEntries number).map Prod.fst)
  | _ => return .dict (← mappingEntries number)

/-- Fills the objects that were made empty, from the one in a place on. Every node is begun at most
once. -/
def fill : Nat → Nat → Building Unit
  | 0, _ => return
  | fuel + 1, place => do
    match (← get).begun[place]? with
    | none => return
    | some number =>
      let h ← holding number
      let o ← object number
      modify fun s => { s with holdings := s.holdings.setIfInBounds o h }
      fill fuel (place + 1)

end Building

def Objects.ofDocument (d : Document) : Except Fault Objects :=
  let make : Building Nat := do
    let root ← Building.object d.root
    Building.fill d.parts.size 0
    return root
  match make.run { parts := d.parts, made := Array.replicate d.parts.size none } with
  | .ok root s => .ok ⟨s.holdings, root⟩
  | .error fault _ => .error fault

end FrameGraph.Yaml
