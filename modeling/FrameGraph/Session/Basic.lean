import FrameGraph.Session.Command

/-!
# Sessions

A session binds objects to handles, in the order in which the handles were first bound. Handles hold
their objects; a pipeline that no handle and no waiting operation holds is gone, and a node is gone
when in addition no remaining pipeline contains it. At most one operation waits at a time.

* `Session.collect`: marks what nothing holds any more as gone.
-/

namespace FrameGraph

inductive Object where
  | pipeline (ref : Ref .pipeline)
  | node (ref : Ref .node)
  | port (ref : Ref .port)
  | portMap (ref : Ref .portMap)
  | queue (ref : Ref .queue)
  | message (ref : Ref .message)
  | shelf (ref : Ref .shelf)
  | connection (record : ConnectionRecord)

/-- An operation that waits: a delivery, a message for a full queue, or a reader of an empty queue,
which may belong to a node. -/
inductive Waiting where
  | deliver (delivery : Delivery)
  | put (queue : Ref .queue) (message : Value)
  | take (queue : Ref .queue) (reader : Option (Ref .node))

structure Session where
  workspace : Workspace := {}
  handles : List (Handle × Object) := []
  /-- The waiting operation with the number of the step that began it. -/
  waiting : Option (Nat × Waiting) := none
  step : Nat := 0

/-- What changes a session, and may be denied. -/
abbrev Run := EStateM Denial Session

namespace Session

/-! ## Handles -/

/-- Binds a handle; a handle that is bound keeps its place. -/
def bindHandle (h : Handle) (o : Object) : List (Handle × Object) → List (Handle × Object)
  | [] => [(h, o)]
  | e :: rest => if e.1 = h then (h, o) :: rest else e :: bindHandle h o rest

def bind (s : Session) (h : Handle) (o : Object) : Session :=
  { s with handles := bindHandle h o s.handles }

def object? (s : Session) (h : Handle) : Option Object :=
  (s.handles.find? fun e => e.1 = h).map Prod.snd

/-- The first handle of an object that satisfies a condition. -/
def handleWhere (s : Session) (p : Object → Bool) : Option Handle :=
  (s.handles.find? fun e => p e.2).map Prod.fst

def nodeHandle? (s : Session) (n : Ref .node) : Option Handle :=
  s.handleWhere fun | .node m => m = n | _ => false

def pipelineHandle? (s : Session) (p : Ref .pipeline) : Option Handle :=
  s.handleWhere fun | .pipeline q => q = p | _ => false

def messageHandle? (s : Session) (m : Ref .message) : Option Handle :=
  s.handleWhere fun | .message n => n = m | _ => false

/-- The message bound to a handle as a value. -/
def message? (s : Session) (h : Handle) : Option Value :=
  match s.object? h with
  | some (.message m) =>
    match (s.workspace.graph.messages.get m).content with
    | .group members => some (.group m members)
    | _ => some (.message m)
  | _ => none

/-! ## What is held -/

/-- The pipelines that handles and the waiting operation hold. -/
def heldPipelines (s : Session) : List (Ref .pipeline) :=
  let byHandle := s.handles.filterMap fun e => match e.2 with | .pipeline p => some p | _ => none
  match s.waiting with
  | some (_, .deliver d) => d.pipeline :: byHandle
  | _ => byHandle

/-- The nodes that handles and the waiting operation hold. -/
def heldNodes (s : Session) : List (Ref .node) :=
  let byHandle := s.handles.filterMap fun e => match e.2 with | .node n => some n | _ => none
  match s.waiting with
  | some (_, .deliver d) => d.node :: byHandle
  | some (_, .take _ (some n)) => n :: byHandle
  | _ => byHandle

/-- Marks pipelines and nodes that nothing holds as gone. -/
def collect (s : Session) : Session :=
  let g := s.workspace.graph
  let pipelines := s.heldPipelines
  let nodes := s.heldNodes ++ pipelines.flatMap fun p => (g.pipeline p).nodes.map Prod.snd
  let g := g.pipelines.refs.foldl (fun g p =>
    g.modifyPipeline p fun pipeline => { pipeline with alive := pipeline.alive && p ∈ pipelines }) g
  let g := g.nodes.refs.foldl (fun g n =>
    g.modifyNode n fun node => { node with alive := node.alive && n ∈ nodes }) g
  { s with workspace := { s.workspace with graph := g } }

/-! ## Reading commands -/

def graph : Run Graph := do return (← get).workspace.graph

def setGraph (g : Graph) : Run Unit :=
  modify fun s => { s with workspace := { s.workspace with graph := g } }

def require {α : Type} (x : Except Fault α) : Run α :=
  match x with
  | .ok a => pure a
  | .error fault => throw (.fault fault)

def expect {α : Type} : Option α → Run α
  | some a => pure a
  | none => throw .badRequest

def act {α : Type} (a : Action α) : Run α := do
  let s ← get
  match a.run s.workspace with
  | .ok x w => set { s with workspace := w }; return x
  | .error fault w => set { s with workspace := w }; throw (.fault fault)

def object (h : Handle) : Run Object := do expect ((← get).object? h)

def pipeline (h : Handle) : Run (Ref .pipeline) := do
  match ← object h with
  | .pipeline p => return p
  | _ => throw .badRequest

def node (h : Handle) : Run (Ref .node) := do
  match ← object h with
  | .node n => return n
  | _ => throw .badRequest

def port (h : Handle) : Run (Ref .port) := do
  match ← object h with
  | .port p => return p
  | _ => throw .badRequest

/-- The port bound to a handle, which must have a direction. -/
def directed (d : Direction) (h : Handle) : Run (Ref .port) := do
  let p ← port h
  if ((← graph).port p).direction = d then return p else throw .badRequest

def portMap (h : Handle) : Run (Ref .portMap) := do
  match ← object h with
  | .portMap m => return m
  | _ => throw .badRequest

/-- The map bound to a handle, which must hold ports of a direction. -/
def directedMap (d : Direction) (h : Handle) : Run (Ref .portMap) := do
  let m ← portMap h
  if ((← graph).portMap m).direction = d then return m else throw .badRequest

/-- The queue bound to a handle, or the queue of the input bound to it. -/
def queue (h : Handle) : Run (Ref .queue) := do
  match ← object h with
  | .queue q => return q
  | .port p => expect ((← graph).queueOf? p)
  | _ => throw .badRequest

def message (h : Handle) : Run (Ref .message) := do
  match ← object h with
  | .message m => return m
  | _ => throw .badRequest

def connection (h : Handle) : Run ConnectionRecord := do
  match ← object h with
  | .connection c => return c
  | _ => throw .badRequest

def shelfOwner (h : Handle) : Run ShelfOwner := do
  match ← object h with
  | .pipeline p => return .pipeline p
  | .node n => return .node n
  | .shelf s => return .shelf s
  | _ => throw .badRequest

/-- The node bound to a handle, which must hand messages to the host, and its queue: that of the
input it declared first. -/
def host (h : Handle) : Run (Ref .node × Ref .queue) := do
  let n ← node h
  let g ← graph
  if (g.node n).kind ≠ .hostOutput then throw .badRequest
  let p ← expect ((g.node n).inputs.ports.head?.map Prod.snd)
  return (n, ← expect (g.queueOf? p))

end Session

end FrameGraph
