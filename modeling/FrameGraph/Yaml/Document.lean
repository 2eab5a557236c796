import FrameGraph.Yaml.Tag
import FrameGraph.Yaml.Token

/-!
# Documents

A document consists of scalars, sequences and mappings, each with a tag and a number, by which
sequences and mappings refer to what is in them. An alias stands for the node that its anchor names,
which may be one that contains the alias. The reader goes down the grammar of tokens; it stops at
the first token that fits nowhere, at an alias without an anchor, or where the tokens end because
none could be read.

* `Document.ofTokens`: the only document among some tokens.
-/

namespace FrameGraph.Yaml

/-- What a node of a document holds; other nodes are given by their numbers. -/
inductive Content where
  | scalar (text : String)
  | sequence (items : List Nat)
  | mapping (entries : List (Nat × Nat))
  deriving Inhabited, Repr

/-- A node of a document. -/
structure Part where
  tag : Tag
  content : Content
  deriving Repr

instance : Inhabited Part := ⟨⟨.null, .scalar ""⟩⟩

/-- The nodes of a document by number, and the number of the node that contains the others. -/
structure Document where
  parts : Array Part
  root : Nat
  deriving Repr

/-- What the reader of a document has left, and what it remembers. -/
structure DocumentReader where
  tokens : List Token
  failure : Option Fault
  parts : Array Part := #[]
  /-- The numbers of the nodes with names. -/
  anchors : List (String × Nat) := []
  /-- The full forms of the handles of tags. -/
  handles : List (String × String) := []
  /-- The number of sequences and mappings around the present node. -/
  depth : Nat := 0

abbrev Reading := EStateM Fault DocumentReader

namespace Reading

def misplaced {α : Type} : Reading α := throw (.document .structural)

def peek : Reading Token := do
  match (← get).tokens with
  | t :: _ => return t
  | [] => throw ((← get).failure.getD (.document .structural))

def skip : Reading Unit := modify fun s => { s with tokens := s.tokens.tail }

/-! ## What stands before the content of a node -/

structure Properties where
  anchor : Option String := none
  tag : Option (Option String × String) := none

/-- Reads the anchor and the tag of a node, in either order. -/
def properties : Reading Properties := do
  match ← peek with
  | .anchor name =>
    skip
    match ← peek with
    | .tag handle suffix => skip; return ⟨some name, some (handle, suffix)⟩
    | _ => return ⟨some name, none⟩
  | .tag handle suffix =>
    skip
    match ← peek with
    | .anchor name => skip; return ⟨some name, some (handle, suffix)⟩
    | _ => return ⟨none, some (handle, suffix)⟩
  | _ => return {}

/-- The full name of a tag, whose handle must be known. -/
def fullName : Option String × String → Reading String
  | (none, suffix) => return suffix
  | (some handle, suffix) => do
    match (← get).handles.find? fun e => e.1 = handle with
    | some e => return e.2 ++ suffix
    | none => misplaced

/-- The tag of a node by its full name. The name `!` asks for the tag that the content implies. -/
def tagOr (implied : Tag) : Option String → Tag
  | none => implied
  | some "!" => implied
  | some name => .ofName name

/-- Begins a node, whose anchor must be new, and answers its number. -/
def beginPart (anchor : Option String) : Reading Nat := do
  let number := (← get).parts.size
  match anchor with
  | none => modify fun s => { s with parts := s.parts.push default }
  | some name =>
    if (← get).anchors.any fun e => e.1 = name then throw (.document .composition)
    modify fun s => { s with parts := s.parts.push default, anchors := (name, number) :: s.anchors }
  return number

/-- Says what a node that was begun holds. -/
def endPart (number : Nat) (tag : Tag) (content : Content) : Reading Nat := do
  modify fun s => { s with parts := s.parts.setIfInBounds number ⟨tag, content⟩ }
  return number

def maxDepth : Nat := 486

def enter : Reading Unit := do
  if (← get).depth = maxDepth then throw .tooDeep
  modify fun s => { s with depth := s.depth + 1 }

def leave : Reading Unit := modify fun s => { s with depth := s.depth - 1 }

def resolve (name : String) : Reading Nat := do
  match (← get).anchors.find? fun e => e.1 = name with
  | some (_, number) => return number
  | none => throw (.document .composition)

def emptyScalar : Reading Nat := do
  endPart (← beginPart none) (.ofPlain "") (.scalar "")

/-! ## Nodes -/

inductive Context where
  /-- In a flow collection, which holds no blocks. -/
  | flow
  | block
  /-- After a key or a colon, where the items of a sequence need no indentation. -/
  | entry
  deriving DecidableEq

/-- Whether a node is left out before a token: inside a block sequence. -/
def endsItem : Token → Bool
  | .item | .blockEnd => true
  | _ => false

/-- Whether a node is left out before a token: inside a sequence without indentation. -/
def endsBareItem : Token → Bool
  | .item | .key | .value | .blockEnd => true
  | _ => false

/-- Whether a node is left out before a token: inside a block mapping. -/
def endsEntry : Token → Bool
  | .key | .value | .blockEnd => true
  | _ => false

/-- Whether a node is left out before a token: the key of a pair inside a flow sequence. -/
def endsPairKey : Token → Bool
  | .value | .comma | .flowSequenceEnd => true
  | _ => false

/-- Whether a node is left out before a token: the value of a pair inside a flow sequence. -/
def endsPairValue : Token → Bool
  | .comma | .flowSequenceEnd => true
  | _ => false

/-- Whether a node is left out before a token: the key of an entry inside a flow mapping. -/
def endsFlowKey : Token → Bool
  | .value | .comma | .flowMappingEnd => true
  | _ => false

/-- Whether a node is left out before a token: the value of an entry inside a flow mapping. -/
def endsFlowValue : Token → Bool
  | .comma | .flowMappingEnd => true
  | _ => false

/-- Passes the comma before an item of a flow collection that is not the first one. -/
def comma (first : Bool) : Reading Unit := do
  if first then return
  match ← peek with
  | .comma => skip
  | _ => misplaced

/-- A sequence whose items are still to be read. -/
def sequence (number : Nat) (name : Option String) (items : Reading (List Nat)) : Reading Nat := do
  enter
  let items ← items
  leave
  endPart number (tagOr .list name) (.sequence items)

/-- A mapping whose entries are still to be read. -/
def mapping (number : Nat) (name : Option String) (entries : Reading (List (Nat × Nat))) :
    Reading Nat := do
  enter
  let entries ← entries
  leave
  endPart number (tagOr .dict name) (.mapping entries)

/-- A node without content, which has an anchor or a tag. -/
def empty (anchor name : Option String) : Reading Nat := do
  if anchor.isNone ∧ name.isNone then misplaced
  else endPart (← beginPart anchor) (tagOr (.ofPlain "") name) (.scalar "")

mutual

/-- Reads a node. `fuel` bounds the depth of the calls. -/
def node (context : Context) : Nat → Reading Nat
  | 0 => misplaced
  | fuel + 1 => do
    match ← peek with
    | .reference name => skip; resolve name
    | _ =>
      let p ← properties
      let name ← p.tag.mapM fullName
      content context p.anchor name fuel

/-- Reads the content of a node after its properties. -/
def content (context : Context) (anchor name : Option String) : Nat → Reading Nat
  | 0 => misplaced
  | fuel + 1 => do
    match ← peek with
    | .scalar text quoted =>
      skip
      let implied := if quoted && name.isNone then .text else .ofPlain text
      endPart (← beginPart anchor) (tagOr implied name) (.scalar text)
    | .flowSequenceStart =>
      let number ← beginPart anchor
      skip
      sequence number name (flowItems true fuel)
    | .flowMappingStart =>
      let number ← beginPart anchor
      skip
      mapping number name (flowEntries true fuel)
    | .sequenceStart =>
      if context = .flow then empty anchor name
      else
        let number ← beginPart anchor
        skip
        sequence number name (items fuel)
    | .mappingStart =>
      if context = .flow then empty anchor name
      else
        let number ← beginPart anchor
        skip
        mapping number name (entries fuel)
    | .item =>
      if context = .entry then
        sequence (← beginPart anchor) name (bareItems fuel)
      else empty anchor name
    | _ => empty anchor name

/-- Reads a node unless it is left out before the next token. -/
def optional (context : Context) (ends : Token → Bool) : Nat → Reading Nat
  | 0 => misplaced
  | fuel + 1 => do if ends (← peek) then emptyScalar else node context fuel

/-- The items of a block sequence. -/
def items : Nat → Reading (List Nat)
  | 0 => misplaced
  | fuel + 1 => do
    match ← peek with
    | .item =>
      skip
      let item ← optional .block endsItem fuel
      return item :: (← items fuel)
    | .blockEnd => skip; return []
    | _ => misplaced

/-- The items of a sequence without indentation, up to a token that begins no item. -/
def bareItems : Nat → Reading (List Nat)
  | 0 => misplaced
  | fuel + 1 => do
    match ← peek with
    | .item =>
      skip
      let item ← optional .block endsBareItem fuel
      return item :: (← bareItems fuel)
    | _ => return []

/-- The entries of a block mapping. -/
def entries : Nat → Reading (List (Nat × Nat))
  | 0 => misplaced
  | fuel + 1 => do
    match ← peek with
    | .key =>
      skip
      let key ← optional .entry endsEntry fuel
      let value ← value .entry endsEntry fuel
      return (key, value) :: (← entries fuel)
    | .blockEnd => skip; return []
    | _ => misplaced

/-- The value of an entry, which may be left out with its colon. -/
def value (context : Context) (ends : Token → Bool) : Nat → Reading Nat
  | 0 => misplaced
  | fuel + 1 => do
    match ← peek with
    | .value => skip; optional context ends fuel
    | _ => emptyScalar

/-- The items of a flow sequence. An item with a colon is a mapping of one entry. -/
def flowItems (first : Bool) : Nat → Reading (List Nat)
  | 0 => misplaced
  | fuel + 1 => do
    match ← peek with
    | .flowSequenceEnd => skip; return []
    | _ =>
      comma first
      match ← peek with
      | .flowSequenceEnd => skip; return []
      | .key =>
        let number ← beginPart none
        skip
        enter
        let key ← optional .flow endsPairKey fuel
        let value ← value .flow endsPairValue fuel
        leave
        let pair ← endPart number .dict (.mapping [(key, value)])
        return pair :: (← flowItems false fuel)
      | _ =>
        let item ← node .flow fuel
        return item :: (← flowItems false fuel)

/-- The entries of a flow mapping. A node without a colon is a key without a value. -/
def flowEntries (first : Bool) : Nat → Reading (List (Nat × Nat))
  | 0 => misplaced
  | fuel + 1 => do
    match ← peek with
    | .flowMappingEnd => skip; return []
    | _ =>
      comma first
      match ← peek with
      | .flowMappingEnd => skip; return []
      | .key =>
        skip
        let key ← optional .flow endsFlowKey fuel
        let value ← value .flow endsFlowValue fuel
        return (key, value) :: (← flowEntries false fuel)
      | _ =>
        let key ← node .flow fuel
        let value ← emptyScalar
        return (key, value) :: (← flowEntries false fuel)

end

/-! ## Documents -/

def standardHandles : List (String × String) := [("!", "!"), ("!!", Tag.standard)]

/-- Reads directives. `version` tells whether one has named the version. -/
def directives (version : Bool) : Nat → Reading Unit
  | 0 => misplaced
  | fuel + 1 => do
    match ← peek with
    | .directive (.version major) =>
      if version ∨ major ≠ 1 then misplaced
      skip
      directives true fuel
    | .directive (.handle handle full) =>
      if (← get).handles.any fun e => e.1 = handle then misplaced
      skip
      modify fun s => { s with handles := (handle, full) :: s.handles }
      directives version fuel
    | .directive .other => skip; directives version fuel
    | _ => modify fun s => { s with handles := s.handles ++ standardHandles }

/-- Reads the beginning of a document that is marked. -/
def documentStart (fuel : Nat) : Reading Unit := do
  modify fun s => { s with handles := [] }
  directives false fuel
  match ← peek with
  | .documentStart => skip
  | _ => misplaced

/-- Passes the marks at the end of a document. -/
def skipEnds : Nat → Reading Unit
  | 0 => misplaced
  | fuel + 1 => do
    match ← peek with
    | .documentEnd => skip; skipEnds fuel
    | _ => return

/-- Reads the content of a document that is marked; it may be left out. -/
def documentContent (fuel : Nat) : Reading Nat := do
  match ← peek with
  | .directive _ | .documentStart | .documentEnd | .streamEnd => emptyScalar
  | _ => node .block fuel

/-- Reads to the end, where no second document may begin. -/
def finish (fuel : Nat) : Reading Unit := do
  skipEnds fuel
  match ← peek with
  | .streamEnd => return
  | _ =>
    documentStart fuel
    throw (.document .composition)

/-- Reads the only document and answers its root. An empty text has none. -/
def document (fuel : Nat) : Reading (Option Nat) := do
  match ← peek with
  | .streamEnd => return none
  | .directive _ | .documentStart =>
    documentStart fuel
    let root ← documentContent fuel
    finish fuel
    return some root
  | _ =>
    modify fun s => { s with handles := standardHandles }
    let root ← node .block fuel
    finish fuel
    return some root

end Reading

/-- The only document among tokens, if there is one. No call is nested deeper than a few times the
number of tokens. -/
def Document.ofTokens (scan : Scan) : Except Fault (Option Document) :=
  let reader : DocumentReader := { tokens := scan.tokens, failure := scan.failure }
  match (Reading.document (4 * scan.tokens.length + 16)).run reader with
  | .ok root s => .ok (root.map fun root => ⟨s.parts, root⟩)
  | .error fault _ => .error fault

end FrameGraph.Yaml
