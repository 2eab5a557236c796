import FrameGraph.Port

/-!
# Kinds of node

A node is a source, a processing stage or a sink. Its kind fixes the static ports it declares, the
port maps whose ports are made on demand, and the settings it understands.

* `NodeKind.declarations`: the ports of every kind, with the defaults of their queues.
-/

namespace FrameGraph

inductive NodeRole where
  | input
  | processing
  | output
  deriving DecidableEq, Repr, Inhabited

def NodeRole.name : NodeRole → String
  | .input => "input"
  | .processing => "processing"
  | .output => "output"

inductive NodeKind where
  /-- Nodes without declared ports or with the ports of their role only. -/
  | node
  | inputNode
  | processingNode
  | outputNode
  /-- A sensor's raw data. -/
  | rawInput
  | demosaic
  | toneMapping
  /-- Packs messages of one time from several inputs into a group. -/
  | frameSync
  /-- Splits a group into its members. -/
  | messageDemux
  /-- Hands messages to the host. -/
  | hostOutput
  deriving DecidableEq, Repr, Inhabited

structure InputDeclaration where
  name : String
  accepts : List Accepts := defaultAccepts
  blocking : Bool := true
  queueSize : Nat := Queue.defaultCapacity
  wait : Bool := true
  queueSize_pos : 0 < queueSize := by decide

structure OutputDeclaration where
  name : String
  accepts : List Accepts := defaultAccepts

/-- What a kind declares: static ports and named port maps with their templates. -/
structure Declarations where
  inputs : List InputDeclaration := []
  outputs : List OutputDeclaration := []
  inputMaps : List (String × InputDeclaration) := []
  outputMaps : List (String × OutputDeclaration) := []

namespace NodeKind

def all : List NodeKind :=
  [node, inputNode, processingNode, outputNode, rawInput, demosaic, toneMapping, frameSync,
    messageDemux, hostOutput]

def name : NodeKind → String
  | node => "Node"
  | inputNode => "InputNode"
  | processingNode => "ProcessingNode"
  | outputNode => "OutputNode"
  | rawInput => "RawInputNode"
  | demosaic => "DemosaicNode"
  | toneMapping => "ToneMappingNode"
  | frameSync => "FrameSyncNode"
  | messageDemux => "MessageDemuxNode"
  | hostOutput => "HostOutputNode"

def ofName? (s : String) : Option NodeKind := all.find? fun k => k.name == s

def role : NodeKind → NodeRole
  | inputNode => .input
  | rawInput => .input
  | outputNode => .output
  | hostOutput => .output
  | _ => .processing

/-- Frames and what is derived from them. -/
def framesOnly : List Accepts := [⟨.imgFrame, true⟩]

/-- The ports of a stage that turns frames into frames. -/
def frameStage : Declarations :=
  { inputs := [{ name := "input", accepts := framesOnly }]
    outputs := [{ name := "output", accepts := framesOnly }] }

/-- The ports of a kind. Control inputs do not block their senders and keep few messages. -/
def declarations : NodeKind → Declarations
  | node => {}
  | inputNode => {}
  | processingNode => frameStage
  | demosaic => frameStage
  | outputNode => { inputs := [{ name := "input" }] }
  | hostOutput => { inputs := [{ name := "input" }] }
  | rawInput =>
    { inputs := [{ name := "input_control", accepts := [⟨.buffer, false⟩], blocking := false,
                   queueSize := 4, wait := false }]
      outputs := [{ name := "raw", accepts := [⟨.imgFrame, false⟩] }] }
  | toneMapping =>
    { frameStage with
      inputs := frameStage.inputs ++
        [{ name := "input_config", blocking := false, queueSize := 1, wait := false }] }
  | frameSync =>
    { outputs := [{ name := "out", accepts := [⟨.messageGroup, false⟩] }]
      inputMaps := [("inputs", { name := "", blocking := false, queueSize := 2 })] }
  | messageDemux =>
    { inputs := [{ name := "input", accepts := [⟨.messageGroup, false⟩] }]
      outputMaps := [("outputs", { name := "" })] }

end NodeKind

end FrameGraph
