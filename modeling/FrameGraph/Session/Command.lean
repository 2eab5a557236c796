import FrameGraph.Description

/-!
# Commands and answers

A session works on one workspace through commands, which name objects by the handles they were bound
to. Every command has one kind of answer. Values inside a command name messages directly.

* `Command`: what can be asked, `Answer`: what is answered, `Denial`: why nothing is.
-/

namespace FrameGraph

abbrev Handle := String

/-- Pixels as they are given: none, elements of a stated shape and type, or a value. -/
inductive PixelSource where
  | none
  | elements (shape : List Nat) (type : ElementType) (data : Value)
  | value (v : Value)

/-- The array of pixels that are given. -/
def PixelSource.array : PixelSource → Except Fault PixelArray
  | .none => .ok .empty
  | .elements shape type data => PixelArray.ofElements shape type data
  | .value .null => .ok .empty
  | .value v => PixelArray.ofValue v

/-- The attributes that every message has. -/
structure Stamp where
  timestamp : Value := Message.defaultTimestamp
  sequence : Value := Message.defaultSequence
  metadata : Value := .null

/-- Defaults of a port that is made outside every map. -/
structure PortOptions where
  group : String := ""
  sender : SenderKind := .multiple
  receiver : ReceiverKind := .single
  accepts : List Accepts := []
  blocking : Value := .bool true
  queueSize : Value := .int Queue.defaultCapacity
  wait : Value := .bool true

/-- Attributes of a port that are to be replaced. -/
structure PortChange where
  name : Option String := none
  group : Option String := none
  sender : Option SenderKind := none
  receiver : Option ReceiverKind := none
  accepts : Option (List Accepts) := none

inductive InputSetting where
  | blocking
  | queueSize
  | wait
  | reuse

/-- A description as a value or as the text of a document. -/
inductive DescriptionSource where
  | value (v : Value)
  | document (text : String)

inductive Command where
  | pipeline (name : Value)
  | create (pipeline : Handle) (kind : NodeKind) (settings : Value)
  | remove (pipeline node : Handle)
  | drop (handle : Handle)
  | nodeInfo (node : Handle)
  | parentPipeline (node : Handle)
  | setSettings (node : Handle) (settings : Value)
  | getSettings (node : Handle) (change : Option (Value × Value))
  | getNode (pipeline : Handle) (id : Value)
  | allNodes (pipeline : Handle)
  | connections (pipeline : Handle)
  | pipelineInfo (pipeline : Handle)
  /-- The nodes are bound to the mark followed by their alias. -/
  | describe (mark : String) (source : DescriptionSource) (types : NodeTypes)
  | ports (node : Handle) (direction : Direction)
  | port (node : Handle) (direction : Direction) (label : PortLabel)
  | portCopy (node : Handle) (direction : Direction) (index : Nat)
  | newPort (node : Handle) (direction : Direction) (name : String) (options : PortOptions)
  | registerPorts (node : Handle) (direction : Direction) (ports : List Handle)
  | portInfo (port : Handle)
  | portParent (port : Handle)
  | changePort (port : Handle) (change : PortChange)
  | setInput (port : Handle) (setting : InputSetting) (value : Value)
  | portMap (node : Handle) (direction : Direction) (name : String)
  | portMaps (node : Handle) (direction : Direction)
  | newPortMap (direction : Direction) (name : String) (template : Handle)
  | registerMaps (node : Handle) (direction : Direction) (maps : List Handle)
  | getOrCreate (map : Handle) (key : String)
  | mapGet (map : Handle) (key : String)
  | mapHas (map : Handle) (key : String)
  | mapTemplate (map : Handle)
  | mapInfo (map : Handle)
  | link (output input : Handle) (via : Option Handle)
  | unlink (output input : Handle) (via : Option Handle)
  | canConnect (output input : Handle)
  | samePipeline (output input : Handle)
  | portConnections (output : Handle)
  | connection (output input : Handle)
  | connectionRecord (parts : List Value)
  | connectionInfo (connection : Handle)
  | connectionEqual (first second : Handle)
  | connectionSet (connection : Handle)
  | send (output : Handle) (message : Value)
  | trySend (output : Handle) (message : Value)
  | queue (name : String) (size blocking : Value)
  | queueSend (queue : Handle) (message : Value)
  | queueTrySend (queue : Handle) (message : Value)
  | queueGet (queue : Handle) (timeout : Value)
  | queueTryGet (queue : Handle)
  | queueGetAll (queue : Handle)
  | queueResize (queue : Handle) (size : Value)
  | queueSetBlocking (queue : Handle) (blocking : Value)
  | queueInfo (queue : Handle)
  | hostGet (node : Handle) (timeout : Value)
  | hostTryGet (node : Handle)
  | hostQueue (node : Handle)
  | buffer (pixels : PixelSource) (stamp : Stamp)
  | frame (pixels : PixelSource) (format : ColorFormat) (pattern : Option BayerPattern)
      (stamp : Stamp)
  | group (members : List (String × Handle)) (stamp : Stamp)
  | messageInfo (message : Handle)
  | frameCopy (message : Handle)
  | setPixel (message : Handle) (index : List Int) (value : Value)
  | setMetadata (message : Handle) (key value : Value)
  | display (message : Handle)
  | groupAdd (message : Handle) (name : String) (member : Handle)
  | groupGet (message : Handle) (name : String)
  | groupHas (message : Handle) (name : String)
  | shelf (root : String)
  | assetSet (owner : Handle) (key data : Value)
  | assetGet (owner : Handle) (key : Value)
  | assetRemove (owner : Handle) (key : Value)
  | assetHas (owner : Handle) (key : Value)
  | assetInfo (owner : Handle)
  | asset (key : String) (data : Value)
  | load (owner : Handle) (uri : Value)
  | loadAt (pipeline : Handle) (uri : Value) (place : String)

/-- What a delivery of messages can make wait; the time a receiver is ready to wait is a value. -/
def Command.mayWait : Command → Bool
  | .send .. => true
  | .queueSend .. => true
  | .queueGet _ .null => true
  | .hostGet _ .null => true
  | _ => false

/-! ## Answers -/

/-- A node by handle, if it has one, and text. -/
structure NamedNode where
  handle : Option Handle
  text : String

/-- A pipeline with the nodes of a description by alias. -/
structure DescribedView where
  text : String
  aliases : List (Value × String)
  view : PipelineView

structure InputInfo where
  blocking : Value
  queueSize : Number
  wait : Value
  reuse : Bool
  explicitBlocking : Option Value
  explicitQueueSize : Option Number
  explicitWait : Option Value
  queue : String

structure PortInfo where
  label : PortLabel
  text : String
  kind : String
  accepts : List Accepts
  input : Option InputInfo

structure MapInfo where
  text : String
  entries : List (String × String)

structure QueueInfo where
  text : String
  size : Nat
  full : Bool
  capacity : Number
  blocking : Value
  items : List Value

structure FrameInfo where
  shape : List Nat
  height : Nat
  width : Nat
  channels : Nat
  format : ColorFormat
  pattern : Option BayerPattern

structure GroupInfo where
  members : List (String × Ref .message)
  interval : Value × Value

structure MessageInfo where
  text : String
  datatype : Datatype
  timestamp : Value
  sequence : Value
  metadata : Value
  data : PixelArray
  frame : Option FrameInfo
  group : Option GroupInfo

inductive Answer where
  | none
  | text (s : String)
  | texts (items : List String)
  | flag (b : Bool)
  | value (v : Value)
  | namedNode (node : NamedNode)
  | namedNodes (nodes : List NamedNode)
  | nodeInfo (text : String) (view : NodeView)
  | pipelineInfo (text : String) (view : PipelineView)
  | described (view : DescribedView)
  | portInfo (info : PortInfo)
  | mapInfo (info : MapInfo)
  | connectionInfo (text : String) (parts : List (String × Value))
  | comparison (equal : Bool) (distinct : Nat)
  | queueInfo (info : QueueInfo)
  | messageInfo (info : MessageInfo)
  | pixels (array : PixelArray)
  | shelfInfo (text : String) (size : Nat) (assets : List String)
  /-- An asset, with its text if that was asked for. -/
  | asset (text : Option String) (asset : Asset)

/-- Why a command has no answer. -/
inductive Denial where
  /-- The command names no object, or one of another kind. -/
  | badRequest
  /-- An operation that waits keeps the command from starting. -/
  | busy
  | fault (cause : Fault)

end FrameGraph
