import FrameGraph.Graph.Links
import FrameGraph.Journal

/-!
# Delivery

An output sends a message to every input it is connected to. The connections are taken when the
delivery begins, but the node of each is looked up only when its turn comes, and with it the inputs
that have the label of the connection. A full blocking queue suspends the delivery; it goes on where
it stopped once the queue lets the message in.

* `Graph.deliver`: begins a delivery, `Graph.resume`: lets a suspended one go on.
* `Graph.tryDeliver`: tries all inputs without ever waiting, and tells whether all had room.
-/

namespace FrameGraph

/-- A delivery that waits in the queue of an input. -/
structure Delivery where
  message : Value
  pipeline : Ref .pipeline
  /-- The connection being served and its node. -/
  connection : Connection
  node : Ref .node
  waiting : Ref .queue
  /-- The ports of the node that come after the one it waits for. -/
  later : List (Ref .port)
  /-- The connections whose turn has not come. -/
  rest : List Connection
  deriving Inhabited

/-- What a delivery does to a graph: the records it leaves, and the rest of it if it waits. -/
structure Delivery.Outcome where
  graph : Graph
  journal : Journal := []
  suspended : Option Delivery := none

namespace Graph

def droppedRecord (queue : String) : Record := ⟨.debug, .queues, s!"队列{queue}已满，丢弃最旧的消息"⟩

def rejectedRecord (queue : String) : Record := ⟨.debug, .queues, s!"队列{queue}已满，发送失败"⟩

def skippedRecord (c : Connection) : Record :=
  ⟨.debug, .ports, s!"目标节点{toString c.inputId}已被移除，跳过连接 {c.text}"⟩

/-- One attempt to send a message into a queue, with the record of a lost message; nothing if the
sender has to wait. -/
def push (g : Graph) (q : Ref .queue) (m : Value) : Option (Graph × Journal) :=
  match (g.queue q).send m with
  | .waiting => none
  | .stored queue lost =>
    some (g.setQueue q queue, if lost.isSome then [droppedRecord queue.name] else [])

/-- Sends a message into a queue if there is room, with the record of a failure. -/
def tryPush (g : Graph) (q : Ref .queue) (m : Value) : Graph × Journal × Bool :=
  match (g.queue q).trySend m with
  | some queue => (g.setQueue q queue, [], true)
  | none => (g, [rejectedRecord (g.queue q).name], false)

/-- The queue of a port that is an input with a given label. -/
def target? (g : Graph) (l : PortLabel) (p : Ref .port) : Option (Ref .queue) :=
  if (g.port p).label = l then g.queueOf? p else none

/-- Serves the ports of one node: answers where the delivery has to wait, and the ports after it. -/
def serve (g : Graph) (m : Value) (l : PortLabel) :
    List (Ref .port) → Graph × Journal × Option (Ref .queue × List (Ref .port))
  | [] => (g, [], none)
  | p :: rest =>
    match g.target? l p with
    | none => serve g m l rest
    | some q =>
      match g.push q m with
      | none => (g, [], some (q, rest))
      | some (g, records) =>
        let (g, more, stop) := serve g m l rest
        (g, records ++ more, stop)

def serveAll (g : Graph) (m : Value) (p : Ref .pipeline) : List Connection → Delivery.Outcome
  | [] => { graph := g }
  | c :: rest =>
    match (g.pipeline p).node? c.inputId with
    | none =>
      let outcome := serveAll g m p rest
      { outcome with journal := skippedRecord c :: outcome.journal }
    | some n =>
      match g.serve m c.input (g.portsOf n .input) with
      | (g, records, some (waiting, later)) =>
        { graph := g
          journal := records
          suspended := some { message := m, pipeline := p, connection := c, node := n, waiting,
                              later, rest } }
      | (g, records, none) =>
        let outcome := serveAll g m p rest
        { outcome with journal := records ++ outcome.journal }

/-- Begins to send a message from an output. -/
def deliver (g : Graph) (o : Ref .port) (m : Value) : Except Fault Delivery.Outcome := do
  let p ← g.pipelineOf o
  .ok (g.serveAll m p (g.connectionsFrom p o))

/-- Lets a suspended delivery try again. -/
def resume (g : Graph) (d : Delivery) : Delivery.Outcome :=
  match g.push d.waiting d.message with
  | none => { graph := g, suspended := some d }
  | some (g, first) =>
    match g.serve d.message d.connection.input d.later with
    | (g, records, some (waiting, later)) =>
      { graph := g, journal := first ++ records, suspended := some { d with waiting, later } }
    | (g, records, none) =>
      let outcome := g.serveAll d.message d.pipeline d.rest
      { outcome with journal := first ++ records ++ outcome.journal }

/-! ## Delivery without waiting -/

def tryServe (g : Graph) (m : Value) (l : PortLabel) : List (Ref .port) → Graph × Journal × Bool
  | [] => (g, [], true)
  | p :: rest =>
    match g.target? l p with
    | none => tryServe g m l rest
    | some q =>
      let (g, records, sent) := g.tryPush q m
      let (g, more, others) := tryServe g m l rest
      (g, records ++ more, sent && others)

def tryServeAll (g : Graph) (m : Value) (p : Ref .pipeline) :
    List Connection → Graph × Journal × Bool
  | [] => (g, [], true)
  | c :: rest =>
    match (g.pipeline p).node? c.inputId with
    | none =>
      let (g, records, all) := tryServeAll g m p rest
      (g, skippedRecord c :: records, all)
    | some n =>
      let (g, records, here) := g.tryServe m c.input (g.portsOf n .input)
      let (g, more, others) := tryServeAll g m p rest
      (g, records ++ more, here && others)

/-- Sends a message from an output to every input that has room. -/
def tryDeliver (g : Graph) (o : Ref .port) (m : Value) : Except Fault (Graph × Journal × Bool) := do
  let p ← g.pipelineOf o
  .ok (g.tryServeAll m p (g.connectionsFrom p o))

end Graph

end FrameGraph
