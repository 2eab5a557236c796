import FrameGraph.Graph.Ports

/-!
# Making and removing nodes

A pipeline makes a node of a kind from given settings: the settings are completed and checked first,
then the node gets the next id and the ports its kind declares. A node that is refused uses up no
id. Removing a node removes every connection that touches it.

* `Graph.create`, `Graph.remove`: the two operations.
* `Graph.setSettings`: further settings of a node, which stay also where the rules refuse them.
-/

namespace FrameGraph

namespace Graph

/-! ## Declared ports -/

def declareInput (g : Graph) (n : Ref .node) (d : InputDeclaration) (l : PortLabel) :
    Except Fault (Graph × Ref .port) :=
  g.newInput n l .single d.accepts (.bool d.blocking) (.int d.queueSize) (.bool d.wait)

def declareStaticInput (n : Ref .node) (g : Graph) (d : InputDeclaration) : Except Fault Graph := do
  let (g, p) ← g.declareInput n d ⟨"", d.name⟩
  g.registerPort n .input p

def declareStaticOutput (n : Ref .node) (g : Graph) (d : OutputDeclaration) :
    Except Fault Graph := do
  let (g, p) := g.newOutput n ⟨"", d.name⟩ .multiple d.accepts
  g.registerPort n .output p

def declareInputMap (n : Ref .node) (g : Graph) (d : String × InputDeclaration) :
    Except Fault Graph := do
  let (g, p) ← g.declareInput n d.2 ⟨"", d.2.name⟩
  let (g, m) := g.newPortMap d.1 .input p
  g.registerMap n .input m

def declareOutputMap (n : Ref .node) (g : Graph) (d : String × OutputDeclaration) :
    Except Fault Graph := do
  let (g, p) := g.newOutput n ⟨"", d.2.name⟩ .multiple d.2.accepts
  let (g, m) := g.newPortMap d.1 .output p
  g.registerMap n .output m

/-- Makes and registers the ports and port maps that a kind declares. -/
def declarePorts (g : Graph) (n : Ref .node) (d : Declarations) : Except Fault Graph := do
  let g ← d.inputs.foldlM (declareStaticInput n) g
  let g ← d.outputs.foldlM (declareStaticOutput n) g
  let g ← d.inputMaps.foldlM (declareInputMap n) g
  d.outputMaps.foldlM (declareOutputMap n) g

/-! ## Nodes -/

/-- The complete settings of a new node, if the given ones are entries that keep the rules. -/
def newSettings (g : Graph) (kind : NodeKind) (id : Nat) (given : Value) :
    Except Fault Entries := do
  let given ← Entries.ofValue (given.orElse (.dict []))
  let settings := kind.settings id given
  Settings.check kind g.messages.text settings
  .ok settings

def create (g : Graph) (p : Ref .pipeline) (kind : NodeKind) (given : Value) :
    Except Fault (Graph × Ref .node) := do
  let id := (g.pipeline p).nextId
  let settings ← g.newSettings kind id given
  let shelf : Shelf := { root := "/node/" ++ toString id ++ "/" }
  let (nodes, n) := g.nodes.push { kind, pipeline := p, id, settings, shelf }
  let g ← { g with nodes }.declarePorts n kind.declarations
  .ok (g.modifyPipeline p fun pipeline =>
    { pipeline with nodes := pipeline.nodes ++ [(id, n)], nextId := id + 1 }, n)

/-- Whether a node is in the table of a pipeline under its own id. -/
def isMember (g : Graph) (p : Ref .pipeline) (n : Ref .node) : Bool :=
  (g.pipeline p).node? (g.node n).id = some n

/-- Removes a node and its connections, and tells whether it was there. -/
def remove (g : Graph) (p : Ref .pipeline) (n : Ref .node) : Graph × Bool :=
  if g.isMember p n then
    let id := (g.node n).id
    (g.modifyPipeline p fun pipeline =>
      { pipeline with
        nodes := pipeline.nodes.filter fun e => e.1 ≠ id
        connections := pipeline.connections.filter fun c => !c.touches id }, true)
  else (g, false)

/-- Adds settings to a node and checks them all. -/
def setSettings (g : Graph) (n : Ref .node) (v : Value) : Graph × Option Fault :=
  let node := g.node n
  let (settings, fault) := node.settings.merge v
  let g := g.modifyNode n fun node => { node with settings }
  match fault with
  | some fault => (g, some fault)
  | none =>
    match Settings.check node.kind g.messages.text settings with
    | .ok () => (g, none)
    | .error fault => (g, some fault)

/-- Makes a pipeline, whose name must have a text. -/
def newPipeline (g : Graph) (name : Value) : Except Fault (Graph × Ref .pipeline) := do
  let (pipelines, p) := g.pipelines.push { name, logName := ← g.shown name }
  .ok ({ g with pipelines }, p)

end Graph

/-! ## Descriptions -/

structure OutputView where
  label : PortLabel
  kind : String

structure InputView where
  label : PortLabel
  kind : String
  blocking : Value
  queueSize : Number
  wait : Value

/-- A node with its settings and the ports it has now. -/
structure NodeView where
  id : Nat
  name : String
  role : String
  settings : Entries
  outputs : List OutputView
  inputs : List InputView

/-- A pipeline with its nodes, connections and the keys of its own assets. -/
structure PipelineView where
  name : Value
  nodes : List NodeView
  connections : List Connection
  assets : List String

namespace Graph

def outputView (g : Graph) (p : Ref .port) : OutputView :=
  ⟨(g.port p).label, (g.port p).kindName⟩

def inputView? (g : Graph) (p : Ref .port) : Option InputView :=
  (g.port p).input?.map fun i =>
    ⟨(g.port p).label, (g.port p).kindName, i.blocking, i.queueSize, i.wait⟩

def nodeView (g : Graph) (n : Ref .node) : NodeView :=
  let node := g.node n
  { id := node.id
    name := node.kind.name
    role := node.kind.role.name
    settings := node.settings
    outputs := (g.portsOf n .output).map g.outputView
    inputs := (g.portsOf n .input).filterMap g.inputView? }

def pipelineView (g : Graph) (p : Ref .pipeline) : PipelineView :=
  let pipeline := g.pipeline p
  { name := pipeline.name
    nodes := pipeline.nodes.map fun e => g.nodeView e.2
    connections := pipeline.connections
    assets := pipeline.shelf.assets.map Asset.key }

end Graph

end FrameGraph
