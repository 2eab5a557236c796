import FrameGraph.Text.Base64
import FrameGraph.Value
import FrameGraph.Yaml.Page

/-!
# Writing documents

A value is written in blocks: the entries of a dictionary and the items of a list on lines of their
own, indented by two more columns than what contains them. A list under a key needs no indentation,
and empty collections are written in brackets. What stands in several places is written once, with
an anchor, and the other places refer to it.

* `render`: the document of a value.
-/

namespace FrameGraph.Yaml

/-- The text of a floating-point number, which always has a point. -/
def floatText (x : Binary64) : String :=
  match x with
  | .nan => ".nan"
  | .infinite negative => if negative then "-.inf" else ".inf"
  | x =>
    let s := x.text.toList
    if '.' ∉ s ∧ 'e' ∈ s then
      String.ofList (s.takeWhile (· ≠ 'e') ++ ['.', '0'] ++ s.dropWhile (· ≠ 'e'))
    else x.text

/-! ## What stands in several places -/

/-- The labels that were met, and those of them that were met again, in the order in which this
happened. -/
structure Survey where
  met : List Nat := []
  shared : List Nat := []

/-- What goes through a value before it is written, and finds what cannot be written. -/
abbrev Surveying := EStateM Fault Survey

namespace Surveying

/-- The deepest nesting of collections that is written. -/
def maxDepth : Nat := 329

/-- Notes a label that was met before. -/
def share (label : Nat) : Surveying Unit :=
  modify fun s => if s.shared.contains label then s else { s with shared := s.shared ++ [label] }

mutual

/-- Goes through a value inside `depth` collections. -/
def value (depth : Nat) : Value → Surveying Unit
  | .list items => items' (depth + 1) items
  | .tuple items => items' (depth + 1) items
  | .set members => items' (depth + 1) members
  | .dict entries => entries' (depth + 1) entries
  | .number n =>
    match n.text with
    | .ok _ => return
    | .error fault => throw fault
  | .labelled _ _ (.number _) => return
  | .labelled label _ content => do
    if (← get).met.contains label then share label
    else
      modify fun s => { s with met := label :: s.met }
      value depth content
  | .again label => share label
  | _ => return

def items' (depth : Nat) : List Value → Surveying Unit
  | [] => if maxDepth < depth then throw .tooDeep else return
  | v :: rest => do
    if maxDepth < depth then throw .tooDeep
    value depth v
    items' depth rest

def entries' (depth : Nat) : List (Value × Value) → Surveying Unit
  | [] => if maxDepth < depth then throw .tooDeep else return
  | (k, v) :: rest => do
    if maxDepth < depth then throw .tooDeep
    value depth k
    value depth v
    entries' depth rest

end

end Surveying

/-! ## Scalars -/

/-- The scalar that stands for a value, with the name of its tag. Messages have no written form and
are written as nothing. -/
def scalarOf : Value → Tag × String × String
  | .bool b => (.bool, "bool", if b then "true" else "false")
  | .int n => (.int, "int", toString n)
  | .float x => (.float, "float", floatText x)
  | .text s => (.text, "str", s)
  | .date d => (.timestamp, "timestamp", d.text)
  | .moment m => (.timestamp, "timestamp", m.text)
  | .labelled _ _ content => scalarOf content
  | _ => (.null, "null", "null")

/-- The longest key, with its tag, that stands on the line of its value. -/
def maxKeyLength : Nat := 127

/-- The name under which what has a label is written once and referred to. -/
def Page.anchor? (p : Page) (label : Nat) : Option String :=
  (p.shared.idxOf? label).map fun n => "id" ++ zeroPadded 3 (n + 1)

def Page.refers (p : Page) (v : Value) : Bool :=
  match v.label? with
  | some label => p.written.contains label
  | none => false

/-- Whether a key can stand on the line of its value. -/
def Page.isSimpleKey (p : Page) (k : Value) : Bool :=
  p.refers k ||
    match k.content with
    | .list items => items.isEmpty
    | .tuple items => items.isEmpty
    | .set _ | .dict _ | .bytes _ => false
    | _ =>
      let (_, tag, text) := scalarOf k
      let anchor := (k.label?.bind p.anchor?).getD ""
      anchor.length + 2 + tag.length + text.length ≤ maxKeyLength && text != "" &&
        !(analyze text.toList).multiline

/-! ## Blocks -/

/-- The column of a block inside another one. -/
def inner : Option Nat → Nat
  | none => 0
  | some column => column + 2

/-- Writes bytes on lines of their own. -/
def Page.bytes (p : Page) (column : Nat) (data : List UInt8) : Page :=
  let p := p.mark "!!binary" true false
  if data.isEmpty then p.mark "''" true false
  else p.literal column ((Text.Base64.write data).splitOn "\n").dropLast

/-- The column of the items of a list inside a block. `afterKey` says that the list belongs to a
key. -/
def Page.itemColumn (p : Page) (block : Option Nat) (afterKey : Bool) : Nat :=
  match block with
  | some column => if afterKey && !p.fresh then column else column + 2
  | none => 0

mutual

/-- Writes a value inside a block. `afterKey` says that it belongs to a key. -/
def Page.value (p : Page) (block : Option Nat) (afterKey : Bool) : Value → Page
  | .list items =>
    if items.isEmpty then (p.mark "[" true false).mark "]" false false
    else p.items (p.itemColumn block afterKey) items
  | .tuple items =>
    if items.isEmpty then (p.mark "[" true false).mark "]" false false
    else p.items (p.itemColumn block afterKey) items
  | .set members =>
    let p := p.mark "!!set" true false
    if members.isEmpty then (p.mark "\x7b" true false).mark "\x7d" false false
    else p.members (inner block) members
  | .dict entries =>
    if entries.isEmpty then (p.mark "\x7b" true false).mark "\x7d" false false
    else p.entries (inner block) entries
  | .labelled label _ content =>
    match p.anchor? label with
    | none => p.value block afterKey content
    | some name =>
      if p.written.contains label then p.mark ("*" ++ name) true false
      else
        let p := { p with written := label :: p.written }
        (p.mark ("&" ++ name) true false).value block afterKey content
  | .again label => p.mark ("*" ++ (p.anchor? label).getD "") true false
  | .bytes data => p.bytes (block.getD 0 + 2) data
  | v =>
    let (tag, _, text) := scalarOf v
    p.scalar (block.getD 0 + 2) false tag text

def Page.items (p : Page) (column : Nat) : List Value → Page
  | [] => p
  | v :: rest =>
    let p := ((p.indent column).mark "-" true true).value (some column) false v
    p.items column rest

/-- Writes a key, and whatever comes before its value. -/
def Page.key (p : Page) (column : Nat) : Value → Page
  | .labelled label _ content =>
    match p.anchor? label with
    | none => p.key column content
    | some name =>
      if p.written.contains label then p.mark ("*" ++ name) true false
      else
        let p := { p with written := label :: p.written }
        (p.mark ("&" ++ name) true false).key column content
  | .again label => p.mark ("*" ++ (p.anchor? label).getD "") true false
  | k =>
    let (tag, _, text) := scalarOf k
    p.scalar (column + 2) true tag text

def Page.entries (p : Page) (column : Nat) : List (Value × Value) → Page
  | [] => p
  | (k, v) :: rest =>
    let p := p.indent column
    let p :=
      if p.isSimpleKey k then (p.key column k).mark ":" false false
      else
        let p := (p.mark "?" true true).value (some column) true k
        (p.indent column).mark ":" true true
    (p.value (some column) true v).entries column rest

/-- Writes the members of a set as keys without values. -/
def Page.members (p : Page) (column : Nat) : List Value → Page
  | [] => p
  | k :: rest =>
    let p := p.indent column
    let p :=
      if p.isSimpleKey k then (p.key column k).mark ":" false false
      else
        let p := (p.mark "?" true true).value (some column) true k
        (p.indent column).mark ":" true true
    (p.scalar (column + 2) false .null "null").members column rest

end

def render (v : Value) : Except Fault String :=
  match (Surveying.value 0 v).run {} with
  | .error fault _ => .error fault
  | .ok _ s => .ok ((({ shared := s.shared } : Page).value none false v).indent 0).text

end FrameGraph.Yaml
