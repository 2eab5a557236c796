import FrameGraph.Session.Evaluate

/-!
# Steps of a session

A step carries out one command, binds what it made, and then lets the waiting operation go on if it
can. While an operation waits, no other one that may wait is started and no handle is dropped. A
waiting operation that ends is reported with the step that began it.

* `Session.advance`: the waiting operation goes on until it ends or waits again.
* `Session.perform`: one step.
-/

namespace FrameGraph

inductive Outcome where
  | answer (a : Answer)
  | denied (d : Denial)
  | pending

structure Reply where
  outcome : Outcome
  /-- The operation that ended in this step after waiting, by the number of its own step. -/
  resumed : Option (Nat × Answer) := none
  journal : Journal := []

namespace Session

/-- Whether a command has to stay back while an operation waits. -/
def isHeldBack : Command → Bool
  | .drop _ => true
  | c => c.mayWait

/-- Binds the object a command made, and what came with it. -/
def bindResult (s : Session) (id : Option Handle) (made : Option Object)
    (more : List (Handle × Object)) : Session :=
  let s := match id, made with
    | some h, some o => s.bind h o
    | _, _ => s
  more.foldl (fun s e => s.bind e.1 e.2) s

/-- Carries out a command without regard to the waiting operation. -/
def carryOut (s : Session) (id : Option Handle) (c : Command) : Session × Outcome :=
  match (evaluate c).run s with
  | .ok (.answer a made more) s => (s.bindResult id made more, .answer a)
  | .ok (.wait w) s => ({ s with waiting := some (s.step, w) }, .pending)
  | .error d s => (s, .denied d)

def advanceDelivery (s : Session) (step : Nat) (d : Delivery) : Session × Option (Nat × Answer) :=
  let outcome := s.workspace.graph.resume d
  let journal := s.workspace.journal ++ outcome.journal
  let w := { s.workspace with graph := outcome.graph, journal }
  match outcome.suspended with
  | some d => ({ s with workspace := w, waiting := some (step, .deliver d) }, none)
  | none => ({ s with workspace := w, waiting := none }, some (step, .none))

/-- Lets the waiting operation go on, and answers what it ended with. -/
def advance (s : Session) : Session × Option (Nat × Answer) :=
  match s.waiting with
  | none => (s, none)
  | some (step, .deliver d) => s.advanceDelivery step d
  | some (step, .put q m) =>
    match s.workspace.graph.push q m with
    | none => (s, none)
    | some (g, records) =>
      let w := { s.workspace with graph := g, journal := s.workspace.journal ++ records }
      ({ s with workspace := w, waiting := none }, some (step, .none))
  | some (step, .take q _) =>
    match (s.workspace.graph.queue q).tryGet with
    | none => (s, none)
    | some (m, queue) =>
      let w := { s.workspace with graph := s.workspace.graph.setQueue q queue }
      ({ s with workspace := w, waiting := none }, some (step, .value m))

/-- One step: a command, whose object is bound to a handle if one is given. A command that could not
be read is denied for the reason given instead. -/
def perform (s : Session) (id : Option Handle) (c : Except Denial Command) : Session × Reply :=
  let s := { s with workspace := { s.workspace with journal := [] } }
  let busy := s.waiting.isSome
  let (s, outcome) := match c with
    | .error d => (s, Outcome.denied d)
    | .ok c => if busy && isHeldBack c then (s, .denied .busy) else s.carryOut id c
  let s := s.collect
  let (s, resumed) := if busy then s.advance else (s, none)
  let s := s.collect
  ({ s with step := s.step + 1 }, { outcome, resumed, journal := s.workspace.journal })

end Session

end FrameGraph
