import FrameGraph.Yaml.Members
import FrameGraph.Yaml.Object

/-!
# The value of a document

The objects of a document are put together to one value. Dates, moments and collections carry the
number of their object as a label, by which two places of the document show that they hold the same
object; where an object contains itself its label stands for it.

* `Objects.value`: the value of the root.
* `load`: the value of a document's text.
-/

namespace FrameGraph.Yaml

/-- The values of objects that were put together and depend on none around them, by number. -/
abbrev Assembly := StateM (Array (Option Value))

/-- A value, and the labels in it that stand for objects around it. -/
structure OpenValue where
  value : Value
  outer : List Nat

namespace Assembly

/-- An atom. Numbers and texts need no label, but for what is no number. -/
def ofAtom (number : Nat) (v : Value) : OpenValue :=
  match v with
  | .date _ | .moment _ | .float .nan => ⟨.labelled number false v, []⟩
  | v => ⟨v, []⟩

def ofCollection (number : Nat) (v : Value) (outer : List Nat) : Assembly OpenValue := do
  let recursive := outer.contains number
  let value := Value.labelled number recursive v
  let outer := outer.filter (· ≠ number)
  if outer = [] then modify fun known => known.setIfInBounds number (some value)
  return ⟨value, outer⟩

def outerOf (vs : List OpenValue) : List Nat := (vs.flatMap OpenValue.outer).eraseDups

/-- The value of an object among those of `path`, which are around it. -/
def value (o : Objects) : Nat → List Nat → Nat → Assembly OpenValue
  | 0, _, number => return ⟨.again number, [number]⟩
  | fuel + 1, path, number => do
    match ((← get)[number]?).join with
    | some v => return ⟨v, []⟩
    | none =>
      if path.contains number then return ⟨.again number, [number]⟩
      else
        let within := value o fuel (number :: path)
        let list (make : List Value → Value) (items : List Nat) : Assembly OpenValue := do
          let items ← items.mapM within
          ofCollection number (make (items.map OpenValue.value)) (outerOf items)
        match (o.holdings[number]?).getD default with
        | .atom v => return ofAtom number v
        | .list items => list .list items
        | .tuple items => list .tuple items
        | .set members => list (fun items => .set (arranged items)) members
        | .dict entries =>
          let keys ← entries.mapM fun e => within e.1
          let values ← entries.mapM fun e => within e.2
          ofCollection number
            (.dict ((keys.map OpenValue.value).zip (values.map OpenValue.value)))
            (outerOf (keys ++ values))

end Assembly

/-- The value of the root. No object is among more than all of them. -/
def Objects.value (o : Objects) : Value :=
  let size := o.holdings.size
  ((Assembly.value o (size + 1) [] o.root).run (Array.replicate size none)).1.value

/-- The value of the only document of a text; nothing, if there is none. -/
def load (text : String) : Except Fault Value := do
  match ← Document.ofTokens (Token.scan text.toList) with
  | some document => return (← Objects.ofDocument document).value
  | none => .ok .null

end FrameGraph.Yaml
