import FrameGraph.Graph.Resources
import FrameGraph.Proofs.Queue.Calls
import FrameGraph.Session.Evaluate

/-!
# Operations and runs

A run starts with the empty graph and carries out operations one after the other: everything that
can be asked of pipelines, nodes, ports, port maps, queues, deliveries and assets. An operation that
is refused is part of a run like any other. Labels are the names under which ports are found, so a
port that some registry or port map lists keeps its label.

* `Operation.after`: the graph after an operation, `Operation.event?`: what it achieved on a
  pipeline, if it did.
* `Graph.Run`: the graphs that runs reach, with the history of what was achieved.
-/

namespace FrameGraph

inductive Operation where
  | newPipeline (name : Value)
  | create (p : Ref .pipeline) (kind : NodeKind) (given : Value)
  | remove (p : Ref .pipeline) (n : Ref .node)
  | link (p : Ref .pipeline) (o i : Ref .port)
  | unlink (p : Ref .pipeline) (o i : Ref .port)
  | newOutput (n : Ref .node) (l : PortLabel) (kind : SenderKind) (accepts : List Accepts)
  | newInput (n : Ref .node) (l : PortLabel) (kind : ReceiverKind) (accepts : List Accepts)
      (blocking size wait : Value)
  | newPortMap (name : String) (d : Direction) (template : Ref .port)
  | copyPort (p : Ref .port)
  | registerPorts (n : Ref .node) (d : Direction) (ports : List (Ref .port))
  | registerMaps (n : Ref .node) (d : Direction) (maps : List (Ref .portMap))
  | getOrCreate (m : Ref .portMap) (key : String)
  | changePort (p : Ref .port) (change : PortChange)
  | setBlocking (p : Ref .port) (v : Value)
  | setQueueSize (p : Ref .port) (v : Value)
  | setWait (p : Ref .port) (v : Value)
  | setReuse (p : Ref .port) (v : Value)
  | newQueue (name : String) (size blocking : Value)
  /-- An attempt at a call on a queue. -/
  | call (q : Ref .queue) (c : Queue.Call Value)
  | send (o : Ref .port) (m : Value)
  /-- A delivery that waits in some queue tries to go on. -/
  | resume (d : Delivery)
  | trySend (o : Ref .port) (m : Value)
  | setSettings (n : Ref .node) (v : Value)
  | setShelf (owner : ShelfOwner) (shelf : Shelf)
  | newShelf (root : String)
  /-- Messages are made and changed. -/
  | setMessages (messages : Messages)
  /-- Nothing holds the pipeline any more. -/
  | forgetPipeline (p : Ref .pipeline)
  /-- Nothing holds the node any more. -/
  | forgetNode (n : Ref .node)

namespace Graph

/-- No registry and no port map lists the port. -/
def Unlisted (g : Graph) (p : Ref .port) : Prop :=
  (∀ n d, ∀ e ∈ ((g.node n).registry d).ports, e.2 ≠ p) ∧
    ∀ m, ∀ e ∈ (g.portMap m).entries, e.2 ≠ p

/-- The graph in the result of an operation, or the graph before it if it is refused. -/
def orSame {β : Type} (g : Graph) : Except Fault (Graph × β) → Graph
  | .ok r => r.1
  | .error _ => g

end Graph

namespace Operation

/-- The objects that an operation names exist, and a listed port keeps its label. -/
def Fits (g : Graph) : Operation → Prop
  | .create p _ _ => g.pipelines.Has p
  | .remove p n => g.pipelines.Has p ∧ g.nodes.Has n
  | .link p o i => g.pipelines.Has p ∧ g.ports.Has o ∧ g.ports.Has i
  | .unlink p o i => g.pipelines.Has p ∧ g.ports.Has o ∧ g.ports.Has i
  | .newOutput n _ _ _ => g.nodes.Has n
  | .newInput n _ _ _ _ _ _ => g.nodes.Has n
  | .newPortMap _ _ template => g.ports.Has template
  | .copyPort p => g.ports.Has p
  | .registerPorts n _ ports => g.nodes.Has n ∧ ∀ p ∈ ports, g.ports.Has p
  | .registerMaps n _ maps => g.nodes.Has n ∧ ∀ m ∈ maps, g.portMaps.Has m
  | .getOrCreate m _ => g.portMaps.Has m
  | .changePort p change => g.ports.Has p ∧
      (g.Unlisted p ∨ (change.name = none ∧ change.group = none))
  | _ => True

def after (g : Graph) : Operation → Graph
  | .newPipeline name => g.orSame (g.newPipeline name)
  | .create p kind given => g.orSame (g.create p kind given)
  | .remove p n => (g.remove p n).1
  | .link p o i => g.orSame (g.connect p o i)
  | .unlink p o i => g.orSame (g.disconnect p o i)
  | .newOutput n l kind accepts => (g.newOutput n l kind accepts).1
  | .newInput n l kind accepts blocking size wait =>
    g.orSame (g.newInput n l kind accepts blocking size wait)
  | .newPortMap name d template => (g.newPortMap name d template).1
  | .copyPort p => (g.copyPort p).1
  | .registerPorts n d ports => (g.registerEach (fun g p => g.registerPort n d p) ports).1
  | .registerMaps n d maps => (g.registerEach (fun g m => g.registerMap n d m) maps).1
  | .getOrCreate m key => g.orSame (g.getOrCreate m key)
  | .changePort p change =>
    match Session.changedPort (g.port p) change with
    | some port => g.modifyPort p fun _ => port
    | none => g
  | .setBlocking p v => g.setBlocking p v
  | .setQueueSize p v =>
    match g.setQueueSize p v with
    | .ok g' => g'
    | .error _ => g
  | .setWait p v => g.setWait p v
  | .setReuse p v => g.setReuse p v
  | .newQueue name size blocking => g.orSame (g.newQueue name size blocking)
  | .call q c => g.setQueue q ((g.queue q).attempt c).queue
  | .send o m =>
    match g.deliver o m with
    | .ok outcome => outcome.graph
    | .error _ => g
  | .resume d => (g.resume d).graph
  | .trySend o m => g.orSame (g.tryDeliver o m)
  | .setSettings n v => (g.setSettings n v).1
  | .setShelf owner shelf => g.setShelf owner shelf
  | .newShelf root => (g.newShelf root).1
  | .setMessages messages => { g with messages }
  | .forgetPipeline p => g.modifyPipeline p fun pipeline => { pipeline with alive := false }
  | .forgetNode n => g.modifyNode n fun node => { node with alive := false }

end Operation

/-! ## Histories -/

/-- What a call on a pipeline achieved. -/
inductive Event where
  | created (n : Ref .node)
  /-- A node was removed, which had this id. -/
  | removed (n : Ref .node) (id : Nat)
  | linked (o i : Ref .port) (c : Connection)
  | unlinked (c : Connection)
  deriving DecidableEq

/-- What was achieved on all pipelines, oldest first. -/
abbrev History := List (Ref .pipeline × Event)

def History.of (h : History) (p : Ref .pipeline) : List Event :=
  h.filterMap fun e => if e.1 = p then some e.2 else none

/-- What an operation achieves on a pipeline: nothing if it is refused or answers no. -/
def Operation.event? (g : Graph) : Operation → Option (Ref .pipeline × Event)
  | .create p kind given =>
    match g.create p kind given with
    | .ok (_, n) => some (p, .created n)
    | .error _ => none
  | .remove p n => if (g.remove p n).2 then some (p, .removed n (g.node n).id) else none
  | .link p o i =>
    match g.connect p o i with
    | .ok (_, c) => some (p, .linked o i c)
    | .error _ => none
  | .unlink p o i =>
    match g.disconnect p o i with
    | .ok (_, c, true) => some (p, .unlinked c)
    | _ => none
  | _ => none

/-- The graphs that are reached from the empty one, with their histories. -/
inductive Graph.Run : Graph → History → Prop where
  | start : Run {} []
  | next {g : Graph} {h : History} (op : Operation) :
      Run g h → op.Fits g → Run (op.after g) (h ++ (op.event? g).toList)

/-! ## Lists of operations -/

namespace Operation

/-- The graph and the history after operations in order. -/
def afterAll : Graph × History → List Operation → Graph × History
  | s, [] => s
  | s, op :: ops => afterAll (op.after s.1, s.2 ++ (op.event? s.1).toList) ops

def AllFit : Graph → List Operation → Prop
  | _, [] => True
  | g, op :: ops => op.Fits g ∧ AllFit (op.after g) ops

end Operation

/-- Histories only grow. -/
theorem Operation.exists_history (s : Graph × History) (ops : List Operation) :
    ∃ new, (afterAll s ops).2 = s.2 ++ new := by
  induction ops generalizing s with
  | nil => exact ⟨[], (List.append_nil _).symm⟩
  | cons op ops ih =>
    obtain ⟨new, hnew⟩ := ih (op.after s.1, s.2 ++ (op.event? s.1).toList)
    exact ⟨_, hnew.trans (List.append_assoc _ _ _)⟩

theorem Graph.Run.all {g : Graph} {h : History} (hrun : Run g h) {ops : List Operation}
    (hfits : Operation.AllFit g ops) :
    Run (Operation.afterAll (g, h) ops).1 (Operation.afterAll (g, h) ops).2 := by
  induction ops generalizing g h with
  | nil => exact hrun
  | cons op ops ih => exact ih (.next op hrun hfits.1) hfits.2

end FrameGraph
