import FrameGraph.Graph.Delivery
import FrameGraph.Graph.Resources

/-!
# Workspaces

A workspace is a graph with the files around it and a journal. An action changes a workspace and
may fail; what it changed before it failed stays. The actions here are the operations of the graph
together with the records they leave.

* `Workspace.create`, `Workspace.remove`, `Workspace.link`, `Workspace.unlink`: an operation of the
  graph and one record of its outcome.
-/

namespace FrameGraph

structure Workspace where
  graph : Graph := {}
  files : FileTree := {}
  /-- The records since the journal was last cleared, oldest first. -/
  journal : Journal := []
  deriving Inhabited

/-- What changes a workspace, and may fail. -/
abbrev Action := EStateM Fault Workspace

namespace Workspace

def view {α : Type} (f : Graph → α) : Action α := do return f (← get).graph

def require {α : Type} (x : Except Fault α) : Action α :=
  match x with
  | .ok a => pure a
  | .error fault => throw fault

def setGraph (g : Graph) : Action Unit := modify fun w => { w with graph := g }

def record (records : Journal) : Action Unit :=
  modify fun w => { w with journal := w.journal ++ records }

def pipelineRecord (g : Graph) (p : Ref .pipeline) (level : Level) (text : String) : Record :=
  ⟨level, .pipeline (g.pipeline p).logName, text⟩

def newPipeline (name : Value) : Action (Ref .pipeline) := do
  let (g, p) ← require ((← get).graph.newPipeline name)
  setGraph g
  return p

def create (p : Ref .pipeline) (kind : NodeKind) (given : Value) : Action (Ref .node) := do
  let (g, n) ← require ((← get).graph.create p kind given)
  setGraph g
  record [pipelineRecord g p .info s!"创建节点: {kind.name}({toString (g.node n).id})"]
  return n

def remove (p : Ref .pipeline) (n : Ref .node) : Action Bool := do
  let (g, found) := (← get).graph.remove p n
  setGraph g
  let node := g.node n
  let id := toString node.id
  record [if found then pipelineRecord g p .info s!"移除节点: {node.kind.name}({id})"
    else pipelineRecord g p .warning s!"节点{id}不属于该Pipeline"]
  return found

def link (p : Ref .pipeline) (o i : Ref .port) : Action Unit := do
  let g := (← get).graph
  match g.connect p o i with
  | .ok (g, c) =>
    setGraph g
    record [pipelineRecord g p .info s!"连接: {c.text}"]
  | .error fault =>
    match fault with
    | .refused (.incompatible out into) =>
      record [pipelineRecord g p .error (Refusal.incompatible out into).message]
    | _ => pure ()
    throw fault

/-- Links an output to an input in the pipeline of the output. -/
def linkOutput (o i : Ref .port) : Action Unit := do
  link (← require ((← get).graph.pipelineOf o)) o i

/-- Removes a connection of a pipeline, if there is one. -/
def unlink (p : Ref .pipeline) (o i : Ref .port) : Action Bool := do
  let (g, c, found) ← require ((← get).graph.disconnect p o i)
  setGraph g
  record [if found then pipelineRecord g p .info s!"断开连接: {c.text}"
    else pipelineRecord g p .warning s!"连接不存在: {c.text}"]
  return found

/-- Removes a connection of the pipeline of an output, if there is one. -/
def unlinkOutput (o i : Ref .port) : Action Bool := do
  unlink (← require ((← get).graph.pipelineOf o)) o i

/-- The port of a map under a key. -/
def getOrCreate (m : Ref .portMap) (key : String) : Action (Ref .port) := do
  let (g, p) ← require ((← get).graph.getOrCreate m key)
  setGraph g
  return p

/-- Takes over what a delivery did, and answers the rest of it if it waits. -/
def settle (outcome : Delivery.Outcome) : Action (Option Delivery) := do
  setGraph outcome.graph
  record outcome.journal
  return outcome.suspended

end Workspace

end FrameGraph
