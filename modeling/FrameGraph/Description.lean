import FrameGraph.Workspace

/-!
# Pipelines from descriptions

A description names the nodes of a pipeline by aliases, with their types, settings and the settings
of their inputs, and lists connections between ports written as endpoints. Nodes are made in the
order of the description, each followed by the settings of its inputs, and then the connections are
made in order; the first thing that cannot be done ends the attempt. A description is a value of any
type, and what it lacks is found when it is read.

* `Description.build`: the pipeline of a description, with its nodes by alias.
-/

namespace FrameGraph

/-! ## Reading values -/

namespace Value

/-- A member of a dictionary, or a default. Other values have no members. -/
def memberOr (v : Value) (name : String) (default : Value) : Except Fault Value :=
  match v.content with
  | .dict entries => .ok ((Entries.field? entries name).getD default)
  | _ => .error .noMember

/-- The entries of a dictionary. Other values have none. -/
def entries (v : Value) : Except Fault Entries :=
  match v.content with
  | .dict entries => .ok entries
  | _ => .error .noMember

/-- A member that must be there. -/
def member (v : Value) (name : String) : Except Fault Value :=
  match v.content with
  | .dict entries =>
    match Entries.field? entries name with
    | some w => .ok w
    | none => .error (.missingKey name)
  | .group _ members =>
    match members.find? fun e => e.1 = name with
    | some e => .ok (.message e.2)
    | none => .error (.missingKey name)
  | _ => .error .wrongType

/-- Whether a name occurs in a value: as a key, as an item, as the name of a member, or as a part
of a text. -/
def mentions (v : Value) (name : String) : Except Fault Bool :=
  match v.content with
  | .dict entries => .ok (Entries.field? entries name).isSome
  | .list items => .ok (items.any fun item => item.equal (.text name))
  | .tuple items => .ok (items.any fun item => item.equal (.text name))
  | .set members => .ok (members.any fun member => member.equal (.text name))
  | .group _ members => .ok (members.any fun e => e.1 == name)
  | .text s => .ok ((s.splitOn name).length ≠ 1)
  | _ => .error .wrongType

/-- The items of a value that can be gone through. -/
def items (v : Value) : Except Fault (List Value) :=
  match v.items? with
  | some items => .ok items
  | none => .error .wrongType

end Value

abbrev NodeTypes := List (String × NodeKind)

/-- The kinds of node with a use of their own, by name. -/
def defaultNodeTypes : NodeTypes :=
  [NodeKind.rawInput, .demosaic, .toneMapping, .frameSync, .messageDemux, .hostOutput].map fun k =>
    (k.name, k)

namespace NodeTypes

/-- The kind a type names. The last definition of a type counts. -/
def find? (types : NodeTypes) (name : String) : Option NodeKind :=
  (types.reverse.find? fun e => e.1 == name).map Prod.snd

/-- The kind that a value names as a type. -/
def kindOf (types : NodeTypes) (name : MessageText) (type : Value) : Except Fault NodeKind :=
  if !type.isKey then .error .wrongType
  else
    match type with
    | .text s =>
      match types.find? s with
      | some kind => .ok kind
      | none => .error (.refused (.unknownNodeType s))
    | _ => do .error (.refused (.unknownNodeType (← type.shown name)))

end NodeTypes

namespace Description

/-- A pipeline and its nodes by alias, in the order of the description. -/
structure Built where
  pipeline : Ref .pipeline
  nodes : List (Value × Ref .node) := []

def Built.node? (b : Built) (name : String) : Option (Ref .node) :=
  (b.nodes.find? fun e => e.1.equal (.text name)).map Prod.snd

open Workspace

/-! ## Ports -/

/-- The output of a node under a label: one of its static outputs, or the one of a port map under a
key, which is made if need be. -/
def resolveOutput (n : Ref .node) (l : PortLabel) : Action (Ref .port) := do
  let g := (← get).graph
  let node := g.node n
  if l.group ≠ "" then
    match g.portMap? n .output l.group with
    | some m => getOrCreate m l.name
    | none => throw (.refused (.noOutputGroup node.kind.name node.id l.group))
  else
    match g.port? n .output ⟨"", l.name⟩ with
    | some p => return p
    | none => throw (.refused (.noOutput node.kind.name node.id l.name))

/-- The input of a node under a label. -/
def resolveInput (n : Ref .node) (l : PortLabel) : Action (Ref .port) := do
  let g := (← get).graph
  let node := g.node n
  if l.group ≠ "" then
    match g.portMap? n .input l.group with
    | some m => getOrCreate m l.name
    | none => throw (.refused (.noInputGroup node.kind.name node.id l.group))
  else
    match g.port? n .input ⟨"", l.name⟩ with
    | some p => return p
    | none => throw (.refused (.noInput node.kind.name node.id l.name))

/-! ## Settings of inputs -/

/-- A setting that must be a truth value. -/
def requireBool (settings : Value) (key : String) (name : MessageText) : Except Fault Value := do
  let v ← settings.member key
  match v with
  | .bool b => .ok (.bool b)
  | v => .error (.refused (.notBoolean key (← v.literal name)))

/-- A setting that must be an integer and no truth value. -/
def requireInteger (settings : Value) (key : String) (name : MessageText) :
    Except Fault Value := do
  let v ← settings.member key
  match v with
  | .int n => .ok (.int n)
  | v => .error (.refused (.notInteger (← v.literal name)))

/-- Carries out a change with a setting, where the settings mention it. -/
def whenMentioned (settings : Value) (key : String)
    (read : Value → String → MessageText → Except Fault Value)
    (change : Graph → Value → Except Fault Graph) : Action Unit := do
  if ← require (settings.mentions key) then
    let g := (← get).graph
    let v ← require (read settings key g.messages.text)
    setGraph (← require (change g v))

def applySettings (p : Ref .port) (settings : Value) : Action Unit := do
  whenMentioned settings "blocking" requireBool fun g v => .ok (g.setBlocking p v)
  whenMentioned settings "queue_size" requireInteger fun g v => g.setQueueSize p v
  whenMentioned settings "wait_for_message" requireBool fun g v => .ok (g.setWait p v)
  whenMentioned settings "reuse_previous_message" requireBool fun g v => .ok (g.setReuse p v)

/-! ## Nodes and connections -/

def buildInput (n : Ref .node) (entry : Value × Value) : Action Unit := do
  let label ← require (PortLabel.ofValue entry.1)
  let p ← resolveInput n label
  applySettings p (entry.2.orElse (.dict []))

/-- A member that counts as empty where it counts as false. -/
def memberOrEmpty (v : Value) (name : String) (empty : Value) : Except Fault Value := do
  .ok ((← v.memberOr name .null).orElse empty)

/-- Makes one node and applies the settings of its inputs. -/
def buildNode (types : NodeTypes) (b : Built) (entry : Value × Value) : Action Built := do
  let type ← require (entry.2.memberOr "type" .null)
  let kind ← require (types.kindOf (← view fun g => g.messages.text) type)
  let given ← require (memberOrEmpty entry.2 "config" (.dict []))
  let n ← create b.pipeline kind given
  let inputs ← require (memberOrEmpty entry.2 "inputs" (.dict []))
  (← require inputs.entries).forM (buildInput n)
  return { b with nodes := b.nodes ++ [(entry.1, n)] }

def buildConnection (b : Built) (connection : Value) : Action Unit := do
  let sourceSpec ← require (connection.member "from")
  let source ← require (EndpointSpec.ofValue sourceSpec)
  let targetSpec ← require (connection.member "to")
  let target ← require (EndpointSpec.ofValue targetSpec)
  match b.node? source.node, b.node? target.node with
  | some out, some into =>
    let o ← resolveOutput out source.port
    let i ← resolveInput into target.port
    linkOutput o i
  | _, _ =>
    let g := (← get).graph
    let shownSource ← require (g.shown sourceSpec)
    let shownTarget ← require (g.shown targetSpec)
    throw (.refused (.unknownAlias shownSource shownTarget))

/-- Makes the pipeline of a description. Without types of its own the default ones are used. -/
def build (types : NodeTypes) (description : Value) : Action Built := do
  let types := if types = [] then defaultNodeTypes else types
  let pipeline ← require (description.memberOr "pipeline" (.dict []))
  let name ← require (pipeline.memberOr "name" (.text "default_pipeline"))
  let p ← newPipeline name
  let nodes ← require (memberOrEmpty pipeline "nodes" (.dict []))
  let b ← (← require nodes.entries).foldlM (buildNode types) { pipeline := p }
  let connections ← require (memberOrEmpty pipeline "connections" (.list []))
  (← require connections.items).forM (buildConnection b)
  let text ← require ((← get).graph.pipelineText p)
  record [⟨.info, .description, s!"从配置创建Pipeline: {text}"⟩]
  return b

end Description

end FrameGraph
