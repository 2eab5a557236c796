import FrameGraph.Asset
import FrameGraph.Connection
import FrameGraph.Message
import FrameGraph.Node.Settings
import FrameGraph.Registry

/-!
# Graphs

A graph holds any number of pipelines with their nodes, ports, port maps, queues and messages, each
in its table. Pipelines number their nodes from zero and list connections between these. A node
knows its pipeline and a port its node, but neither keeps the other alive: a pipeline or node that
nobody holds any more is marked as gone, and what belongs to it can still be read through others.

* `Graph.pipelineOf?`: the pipeline of a port, if its node and that pipeline still exist.
* `Graph.port?`: the port of a node under a label, by going through all its ports.
-/

namespace FrameGraph

structure Pipeline where
  name : Value
  /-- The name as its records show it. -/
  logName : String
  /-- The nodes by id, in the order of creation. -/
  nodes : List (Nat × Ref .node) := []
  nextId : Nat := 0
  connections : List Connection := []
  shelf : Shelf := { root := "/" }
  alive : Bool := true
  deriving Inhabited

namespace Pipeline

def node? (p : Pipeline) (id : Nat) : Option (Ref .node) := p.nodes.lookup id

end Pipeline

structure Node where
  kind : NodeKind
  pipeline : Ref .pipeline
  id : Nat
  settings : Entries
  shelf : Shelf
  outputs : Registry := {}
  inputs : Registry := {}
  alive : Bool := true
  deriving Inhabited

namespace Node

def registry (n : Node) : Direction → Registry
  | .output => n.outputs
  | .input => n.inputs

def setRegistry (n : Node) (d : Direction) (r : Registry) : Node :=
  match d with
  | .output => { n with outputs := r }
  | .input => { n with inputs := r }

@[simp] theorem setRegistry_id (n : Node) (d : Direction) (r : Registry) :
    (n.setRegistry d r).id = n.id := by
  cases d <;> rfl

@[simp] theorem setRegistry_kind (n : Node) (d : Direction) (r : Registry) :
    (n.setRegistry d r).kind = n.kind := by
  cases d <;> rfl

@[simp] theorem setRegistry_pipeline (n : Node) (d : Direction) (r : Registry) :
    (n.setRegistry d r).pipeline = n.pipeline := by
  cases d <;> rfl

@[simp] theorem setRegistry_alive (n : Node) (d : Direction) (r : Registry) :
    (n.setRegistry d r).alive = n.alive := by
  cases d <;> rfl

@[simp] theorem setRegistry_shelf (n : Node) (d : Direction) (r : Registry) :
    (n.setRegistry d r).shelf = n.shelf := by
  cases d <;> rfl

@[simp] theorem setRegistry_settings (n : Node) (d : Direction) (r : Registry) :
    (n.setRegistry d r).settings = n.settings := by
  cases d <;> rfl

@[simp] theorem setRegistry_self (n : Node) (d : Direction) : n.setRegistry d (n.registry d) = n := by
  cases d <;> rfl

theorem registry_setRegistry (n : Node) (d d' : Direction) (r : Registry) :
    (n.setRegistry d r).registry d' = if d' = d then r else n.registry d' := by
  cases d <;> cases d' <;> rfl

end Node

structure Graph where
  pipelines : Table .pipeline Pipeline := {}
  nodes : Table .node Node := {}
  ports : Table .port Port := {}
  portMaps : Table .portMap PortMap := {}
  queues : Table .queue (Queue Value) := {}
  messages : Messages := {}
  /-- Shelves of their own, besides those of pipelines and nodes. -/
  shelves : Table .shelf Shelf := {}
  deriving Inhabited

namespace Graph

def pipeline (g : Graph) (p : Ref .pipeline) : Pipeline := g.pipelines.get p

def node (g : Graph) (n : Ref .node) : Node := g.nodes.get n

def port (g : Graph) (p : Ref .port) : Port := g.ports.get p

def portMap (g : Graph) (m : Ref .portMap) : PortMap := g.portMaps.get m

def queue (g : Graph) (q : Ref .queue) : Queue Value := g.queues.get q

def modifyPipeline (g : Graph) (p : Ref .pipeline) (f : Pipeline → Pipeline) : Graph :=
  { g with pipelines := g.pipelines.modify p f }

def modifyNode (g : Graph) (n : Ref .node) (f : Node → Node) : Graph :=
  { g with nodes := g.nodes.modify n f }

def modifyPort (g : Graph) (p : Ref .port) (f : Port → Port) : Graph :=
  { g with ports := g.ports.modify p f }

def setQueue (g : Graph) (q : Ref .queue) (queue : Queue Value) : Graph :=
  { g with queues := g.queues.set q queue }

theorem pipeline_modifyPipeline (g : Graph) (p r : Ref .pipeline) (f : Pipeline → Pipeline) :
    (g.modifyPipeline p f).pipeline r =
      if r = p ∧ g.pipelines.Has p then f (g.pipeline r) else g.pipeline r :=
  Table.get_modify _ _ _ _

theorem pipeline_modifyPipeline_self {g : Graph} {p : Ref .pipeline} (hp : g.pipelines.Has p)
    (f : Pipeline → Pipeline) : (g.modifyPipeline p f).pipeline p = f (g.pipeline p) := by
  rw [pipeline_modifyPipeline, if_pos ⟨rfl, hp⟩]

theorem node_modifyNode (g : Graph) (n m : Ref .node) (f : Node → Node) :
    (g.modifyNode n f).node m = if m = n ∧ g.nodes.Has n then f (g.node m) else g.node m :=
  Table.get_modify _ _ _ _

theorem registry_modifyNode (g : Graph) (n m : Ref .node) (d e : Direction) (r : Registry) :
    ((g.modifyNode n fun node => node.setRegistry d r).node m).registry e =
      if m = n ∧ e = d ∧ g.nodes.Has n then r else (g.node m).registry e := by
  rw [node_modifyNode]
  by_cases hm : m = n ∧ g.nodes.Has n
  · rw [if_pos hm, Node.registry_setRegistry]
    simp only [hm, true_and, and_true]
  · rw [if_neg hm, if_neg fun hc => hm ⟨hc.1, hc.2.2⟩]

theorem port_modifyPort (g : Graph) (p r : Ref .port) (f : Port → Port) :
    (g.modifyPort p f).port r = if r = p ∧ g.ports.Has p then f (g.port r) else g.port r :=
  Table.get_modify _ _ _ _

theorem queue_setQueue (g : Graph) (q r : Ref .queue) (queue : Queue Value) :
    (g.setQueue q queue).queue r = if r = q ∧ g.queues.Has q then queue else g.queue r :=
  Table.get_modify _ _ _ _

/-! ## Owners -/

/-- The node of a port, which may be gone. -/
def owner (g : Graph) (p : Ref .port) : Except Fault (Ref .node) :=
  let port := g.port p
  if (g.node port.node).alive then .ok port.node else .error (.orphanedPort port.label.text)

/-- The pipeline of a node, which may be gone. -/
def home (g : Graph) (n : Ref .node) : Except Fault (Ref .pipeline) :=
  let node := g.node n
  if (g.pipeline node.pipeline).alive then .ok node.pipeline else .error (.orphanedNode node.id)

/-- The pipeline of a port, if it and the node in between still exist. -/
def pipelineOf? (g : Graph) (p : Ref .port) : Option (Ref .pipeline) :=
  let node := g.node (g.port p).node
  if node.alive && (g.pipeline node.pipeline).alive then some node.pipeline else none

/-! ## Ports of a node -/

/-- The ports of a node: the static ones, then those of its port maps. -/
def portsOf (g : Graph) (n : Ref .node) (d : Direction) : List (Ref .port) :=
  ((g.node n).registry d).enumerate g.portMaps

/-- The first port of a node that has a label now. -/
def port? (g : Graph) (n : Ref .node) (d : Direction) (l : PortLabel) : Option (Ref .port) :=
  (g.portsOf n d).find? fun p => (g.port p).label = l

/-- The port maps of a node in the order of registration. -/
def portMapsOf (g : Graph) (n : Ref .node) (d : Direction) : List (Ref .portMap) :=
  ((g.node n).registry d).maps.map Prod.snd

def portMap? (g : Graph) (n : Ref .node) (d : Direction) (name : String) : Option (Ref .portMap) :=
  ((g.node n).registry d).map? name

/-- The queue of a port, if the port is an input. -/
def queueOf? (g : Graph) (p : Ref .port) : Option (Ref .queue) := (g.port p).input?.map Input.queue

/-! ## Texts -/

def shown (g : Graph) (v : Value) : Except Fault String := v.shown g.messages.text

def nodeText (g : Graph) (n : Ref .node) : String :=
  let node := g.node n
  node.kind.name ++ "(id=" ++ toString node.id ++ ", type=" ++ node.kind.role.name ++
    ", outputs=" ++ toString (g.portsOf n .output).length ++
    ", inputs=" ++ toString (g.portsOf n .input).length ++ ")"

/-- A port with the id of its node, if that still exists. -/
def portText (g : Graph) (p : Ref .port) : String :=
  let port := g.port p
  let node := g.node port.node
  (match port.direction with | .output => "Output" | .input => "Input") ++ "(node=" ++
    (if node.alive then toString node.id else "None") ++ ", port=" ++ port.label.text ++ ")"

def pipelineText (g : Graph) (p : Ref .pipeline) : Except Fault String := do
  let pipeline := g.pipeline p
  return "Pipeline(id=" ++ (← g.shown pipeline.name) ++ ", nodes=" ++
    toString pipeline.nodes.length ++ ", connections=" ++
    toString pipeline.connections.length ++ ")"

def queueText (g : Graph) (q : Ref .queue) : Except Fault String := (g.queue q).text g.messages.text

end Graph

end FrameGraph
