import FrameGraph.Graph.Basic

/-!
# Making and configuring ports

Ports are made with a node, by a port map on demand, or as shallow copies that share the queue of
the port they were copied from. Registration, look-up in port maps and the settings of inputs are
here too.

* `Graph.getOrCreate`: the port of a map under a key, made after the map's template if there is
  none.
-/

namespace FrameGraph.Graph

/-! ## Making ports -/

/-- A declaration of message types; an empty one stands for the default. -/
def acceptsOr (accepts : List Accepts) : List Accepts :=
  if accepts = [] then defaultAccepts else accepts

def newOutput (g : Graph) (n : Ref .node) (l : PortLabel) (kind : SenderKind)
    (accepts : List Accepts) : Graph × Ref .port :=
  let (ports, p) := g.ports.push ⟨n, l, acceptsOr accepts, .output kind⟩
  ({ g with ports }, p)

/-- A new input has an empty queue of its own, named after its label. -/
def newInput (g : Graph) (n : Ref .node) (l : PortLabel) (kind : ReceiverKind)
    (accepts : List Accepts) (blocking size wait : Value) : Except Fault (Graph × Ref .port) := do
  let queue ← Queue.make l.text size blocking
  let (queues, q) := g.queues.push queue
  let details : Input :=
    { kind, defaultBlocking := blocking, defaultQueueSize := queue.capacity, defaultWait := wait,
      queue := q }
  let (ports, p) := g.ports.push ⟨n, l, acceptsOr accepts, .input details⟩
  .ok ({ g with queues, ports }, p)

def newPortMap (g : Graph) (name : String) (d : Direction) (template : Ref .port) :
    Graph × Ref .portMap :=
  let (portMaps, m) := g.portMaps.push { name, direction := d, template }
  ({ g with portMaps }, m)

/-- A copy of a port, which shares the queue. -/
def copyPort (g : Graph) (p : Ref .port) : Graph × Ref .port :=
  let (ports, q) := g.ports.push (g.port p)
  ({ g with ports }, q)

def newQueue (g : Graph) (name : String) (size blocking : Value) :
    Except Fault (Graph × Ref .queue) := do
  let queue ← Queue.make name size blocking
  let (queues, q) := g.queues.push queue
  .ok ({ g with queues }, q)

/-! ## Settings of inputs -/

/-- Sets the policy of an input and of its queue. -/
def setBlocking (g : Graph) (p : Ref .port) (v : Value) : Graph :=
  match g.queueOf? p with
  | none => g
  | some q =>
    let g := g.modifyPort p fun port => port.updateInput fun i =>
      { i with blocking? := overrideOf v }
    g.setQueue q ((g.queue q).setBlocking v)

/-- Sets the capacity of an input and of its queue, unless it is refused. -/
def setQueueSize (g : Graph) (p : Ref .port) (v : Value) : Except Fault Graph :=
  match g.queueOf? p with
  | none => .ok g
  | some q => do
    let queue ← (g.queue q).resize v
    .ok ((g.modifyPort p fun port =>
      port.updateInput fun i => { i with queueSize? := some queue.capacity }).setQueue q queue)

/-- Sets whether the node waits for a new message at an input. -/
def setWait (g : Graph) (p : Ref .port) (v : Value) : Graph :=
  g.modifyPort p fun port => port.updateInput fun i => { i with wait? := overrideOf v }

/-- Sets whether the node uses the previous message of an input again instead of waiting. -/
def setReuse (g : Graph) (p : Ref .port) (v : Value) : Graph := g.setWait p (.bool !v.truthy)

/-! ## Port maps -/

/-- A port made after a template, with another label and, for an input, an empty queue. The
overrides of the template are set on the new port. -/
def clonePort (g : Graph) (template : Ref .port) (l : PortLabel) :
    Except Fault (Graph × Ref .port) := do
  let n ← g.owner template
  let port := g.port template
  match port.role with
  | .output kind => .ok (g.newOutput n l kind port.accepts)
  | .input i =>
    let (g, p) ← g.newInput n l i.kind port.accepts i.defaultBlocking (.number i.defaultQueueSize)
      i.defaultWait
    let g := match i.blocking? with
      | some v => g.setBlocking p v
      | none => g
    let g ← match i.queueSize? with
      | some n => g.setQueueSize p (.number n)
      | none => .ok g
    .ok (g.setWait p (i.wait?.getD .null), p)

/-- The port of a map under a key, made when it is first asked for. -/
def getOrCreate (g : Graph) (m : Ref .portMap) (key : String) : Except Fault (Graph × Ref .port) :=
  let portMap := g.portMap m
  match portMap.get? key with
  | some p => .ok (g, p)
  | none => do
    let (g, p) ← g.clonePort portMap.template ⟨portMap.name, key⟩
    .ok ({ g with portMaps := g.portMaps.modify m fun portMap => portMap.add key p }, p)

/-! ## Registration -/

/-- Registers a port under the label it has now. -/
def registerPort (g : Graph) (n : Ref .node) (d : Direction) (p : Ref .port) :
    Except Fault Graph := do
  let registry ← ((g.node n).registry d).addPort (g.port p).label p
  .ok (g.modifyNode n fun node => node.setRegistry d registry)

def registerMap (g : Graph) (n : Ref .node) (d : Direction) (m : Ref .portMap) :
    Except Fault Graph := do
  let registry ← ((g.node n).registry d).addMap (g.portMap m).name m
  .ok (g.modifyNode n fun node => node.setRegistry d registry)

/-- Carries out a registration for each of a list of objects, up to the first that is refused. What
was registered before it stays. -/
def registerEach {kind : Kind} (register : Graph → Ref kind → Except Fault Graph) (g : Graph) :
    List (Ref kind) → Graph × Option Fault
  | [] => (g, none)
  | r :: rest =>
    match register g r with
    | .ok g' => registerEach register g' rest
    | .error fault => (g, some fault)

end FrameGraph.Graph
