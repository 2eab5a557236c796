import FrameGraph.Datatype
import FrameGraph.Endpoint
import FrameGraph.Queue

/-!
# Ports

A port belongs to a node, has a label and names the types of messages it carries. An output has a
sender kind; an input has a receiver kind, its own queue, and for three settings a default and an
override that applies once it is set. A port map is a group whose ports are made when they are first
asked for, after a template.

* `Input.blocking`, `Input.queueSize`, `Input.wait`: the override where there is one, else the
  default.
-/

namespace FrameGraph

inductive Direction where
  | output
  | input
  deriving DecidableEq, Repr, Inhabited

inductive SenderKind where
  | multiple
  | single
  deriving DecidableEq, Repr, Inhabited

inductive ReceiverKind where
  | single
  | multiple
  deriving DecidableEq, Repr, Inhabited

namespace SenderKind

def name : SenderKind → String
  | multiple => "MSender"
  | single => "SSender"

def ofName? (s : String) : Option SenderKind := [multiple, single].find? fun k => k.name == s

/-- Whether a sender may feed a receiver: a sender of many messages needs a receiver of single ones,
and a sender of single messages a receiver of many. -/
def feeds : SenderKind → ReceiverKind → Bool
  | multiple, .single => true
  | single, .multiple => true
  | _, _ => false

end SenderKind

namespace ReceiverKind

def name : ReceiverKind → String
  | single => "SReceiver"
  | multiple => "MReceiver"

def ofName? (s : String) : Option ReceiverKind := [single, multiple].find? fun k => k.name == s

end ReceiverKind

/-- What is particular to an input. A size is kept as the number it was set to. -/
structure Input where
  kind : ReceiverKind
  defaultBlocking : Value
  defaultQueueSize : Number
  defaultWait : Value
  blocking? : Option Value := none
  queueSize? : Option Number := none
  wait? : Option Value := none
  queue : Ref .queue
  deriving Inhabited

namespace Input

/-- Whether senders wait on a full queue. -/
def blocking (i : Input) : Value := i.blocking?.getD i.defaultBlocking

def queueSize (i : Input) : Number := i.queueSize?.getD i.defaultQueueSize

/-- Whether the node waits for a new message. -/
def wait (i : Input) : Value := i.wait?.getD i.defaultWait

/-- Whether the node uses the previous message again. -/
def reuse (i : Input) : Bool := !i.wait.truthy

end Input

/-- An override given as a value: nothing takes the override back. -/
def overrideOf : Value → Option Value
  | .null => none
  | v => some v

inductive Role where
  | output (kind : SenderKind)
  | input (details : Input)
  deriving Inhabited

def Role.direction : Role → Direction
  | .output _ => .output
  | .input _ => .input

structure Port where
  node : Ref .node
  label : PortLabel
  accepts : List Accepts
  role : Role
  deriving Inhabited

namespace Port

def direction (p : Port) : Direction := p.role.direction

/-- What is particular to an input, if the port is one. -/
def input? (p : Port) : Option Input :=
  match p.role with
  | .input details => some details
  | .output _ => none

def kindName (p : Port) : String :=
  match p.role with
  | .output kind => kind.name
  | .input details => details.kind.name

def updateInput (p : Port) (f : Input → Input) : Port :=
  match p.role with
  | .input details => { p with role := .input (f details) }
  | .output _ => p

@[simp] theorem updateInput_label (p : Port) (f : Input → Input) :
    (p.updateInput f).label = p.label := by
  unfold updateInput
  split <;> rfl

@[simp] theorem updateInput_node (p : Port) (f : Input → Input) :
    (p.updateInput f).node = p.node := by
  unfold updateInput
  split <;> rfl

theorem updateInput_input? (p : Port) (f : Input → Input) :
    (p.updateInput f).input? = p.input?.map f := by
  obtain ⟨_, _, _, role⟩ := p
  cases role <;> rfl

end Port

/-- A group of ports made on demand, with their keys in the order in which they were first asked
for. -/
structure PortMap where
  name : String
  direction : Direction
  template : Ref .port
  entries : List (String × Ref .port) := []
  deriving Inhabited

namespace PortMap

def get? (m : PortMap) (key : String) : Option (Ref .port) := m.entries.lookup key

/-- The ports in the order of their keys. -/
def ports (m : PortMap) : List (Ref .port) := m.entries.map Prod.snd

def add (m : PortMap) (key : String) (p : Ref .port) : PortMap :=
  { m with entries := m.entries ++ [(key, p)] }

def text (m : PortMap) : String :=
  (match m.direction with | .output => "OutputMap" | .input => "InputMap") ++ "(name=" ++ m.name ++
    ", keys=[" ++ ", ".intercalate (m.entries.map fun e => Text.quoteText e.1) ++ "])"

end PortMap

end FrameGraph
