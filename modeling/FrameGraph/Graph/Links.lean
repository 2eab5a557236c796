import FrameGraph.Graph.Nodes

/-!
# Linking ports

A link joins an output and an input of one pipeline. It is refused unless both ports are registered
on nodes that are in the pipeline, their kinds and message types are compatible, and the connection
is new. Unlinking removes the record that the two ports spell.

* `Graph.connect`: the checks in their order and the new record at the end of the list.
* `Graph.disconnect`: removes a record, and tells whether there was one.
-/

namespace FrameGraph.Graph

def samePipeline (g : Graph) (o i : Ref .port) : Bool :=
  match g.pipelineOf? o with
  | none => false
  | some p => g.pipelineOf? i = some p

def kindsMatch (o i : Port) : Bool :=
  match o.role, i.role with
  | .output sender, .input details => sender.feeds details.kind
  | _, _ => false

/-- Whether an output could be linked to an input: one pipeline, matching kinds and a common type of
message. -/
def canConnect (g : Graph) (o i : Ref .port) : Bool :=
  g.samePipeline o i && kindsMatch (g.port o) (g.port i) &&
    compatible (g.port o).accepts (g.port i).accepts

/-- The record that two ports spell, if both their nodes still exist. -/
def connectionOf (g : Graph) (o i : Ref .port) : Except Fault Connection := do
  let out ← g.owner o
  let into ← g.owner i
  .ok ⟨(g.node out).id, (g.port o).label, (g.node into).id, (g.port i).label⟩

/-- Refuses a port that is not the registered one of its label on a node of a pipeline. -/
def checkRegistered (g : Graph) (p : Ref .pipeline) (q : Ref .port) : Except Fault Unit :=
  let port := g.port q
  let node := g.node port.node
  if !g.isMember p port.node then do
    .error (.refused (.nodeRemoved node.kind.name node.id (← g.shown (g.pipeline p).name)))
  else if g.port? port.node port.direction port.label ≠ some q then
    .error (.refused (.portUnregistered (g.portText q) node.kind.name node.id))
  else .ok ()

def connect (g : Graph) (p : Ref .pipeline) (o i : Ref .port) : Except Fault (Graph × Connection) :=
  let outText := (g.port o).label.text
  if g.pipelineOf? o ≠ some p then do
    .error (.refused (.foreignOutput outText (← g.shown (g.pipeline p).name)))
  else if !g.canConnect o i then
    .error (.refused (.incompatible outText (g.port i).label.text))
  else do
    let c ← g.connectionOf o i
    g.checkRegistered p o
    g.checkRegistered p i
    if c ∈ (g.pipeline p).connections then .error (.refused (.connectionExists c.text))
    else
      .ok (g.modifyPipeline p fun pipeline =>
        { pipeline with connections := pipeline.connections ++ [c] }, c)

/-- Removes the connection that two ports spell. -/
def disconnect (g : Graph) (p : Ref .pipeline) (o i : Ref .port) :
    Except Fault (Graph × Connection × Bool) := do
  let c ← g.connectionOf o i
  if c ∈ (g.pipeline p).connections then
    .ok (g.modifyPipeline p fun pipeline =>
      { pipeline with connections := pipeline.connections.erase c }, c, true)
  else .ok (g, c, false)

/-- The pipeline of an output, which has to exist with the node in between. -/
def pipelineOf (g : Graph) (o : Ref .port) : Except Fault (Ref .pipeline) := do
  g.home (← g.owner o)

/-- The connections of a pipeline that start at an output. -/
def connectionsFrom (g : Graph) (p : Ref .pipeline) (o : Ref .port) : List Connection :=
  let id := (g.node (g.port o).node).id
  (g.pipeline p).connections.filter fun c => c.outputId = id && c.output = (g.port o).label

def connectionsOf (g : Graph) (o : Ref .port) : Except Fault (List Connection) := do
  let p ← g.pipelineOf o
  .ok (g.connectionsFrom p o)

end FrameGraph.Graph
