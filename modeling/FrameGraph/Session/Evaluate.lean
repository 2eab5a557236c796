import FrameGraph.Session.Basic
import FrameGraph.Yaml.Load

/-!
# Evaluating commands

Every command is an operation of the graph on the objects its handles name. It answers, possibly
with an object to bind, or it has to wait.

* `Session.evaluate`: one command.
-/

namespace FrameGraph

inductive Result where
  /-- An answer, the object that was made, and further handles for objects that came with it. -/
  | answer (a : Answer) (made : Option Object) (more : List (Handle × Object))
  | wait (w : Waiting)

namespace Session

def answer (a : Answer) : Run Result := return .answer a none []

def made (a : Answer) (o : Object) : Run Result := return .answer a (some o) []

/-- A port that was made or found, with its text. -/
def madePort (p : Ref .port) : Run Result := do made (.text ((← graph).portText p)) (.port p)

def madeMessage (m : Message) : Run Result := do
  let g ← graph
  let (messages, r) := g.messages.push m
  let text ← require (Messages.text messages r)
  setGraph { g with messages }
  made (.text text) (.message r)

def namedNode (n : Ref .node) : Run NamedNode := do
  return ⟨(← get).nodeHandle? n, (← graph).nodeText n⟩

def updateMessage (h : Handle) (f : Message → Except Fault Message) : Run Result := do
  let r ← message h
  let g ← graph
  let m ← require (f (g.messages.get r))
  setGraph { g with messages := g.messages.set r m }
  answer .none

/-! ## Pipelines and nodes -/

/-- A pipeline with its nodes by alias, as a description made them. -/
def describedView (g : Graph) (b : Description.Built) : Except Fault DescribedView := do
  return { text := ← g.pipelineText b.pipeline
           aliases := b.nodes.map fun e => (e.1, g.nodeText e.2)
           view := g.pipelineView b.pipeline }

def sourceValue : DescriptionSource → Except Fault Value
  | .value v => .ok v
  | .document text => Yaml.load text

def describe (mark : String) (source : DescriptionSource) (types : NodeTypes) : Run Result := do
  let description ← require (sourceValue source)
  let b ← act (Description.build types description)
  let g ← graph
  let view ← require (describedView g b)
  let nodes ← b.nodes.mapM fun e => do return (mark ++ (← require (g.shown e.1)), Object.node e.2)
  return .answer (.described view) (some (.pipeline b.pipeline)) nodes

def nodeByKey (g : Graph) (p : Ref .pipeline) (id : Value) : Except Fault (Option (Ref .node)) :=
  if id.isKey then
    .ok (((g.pipeline p).nodes.find? fun e => id.equal (.int e.1)).map Prod.snd)
  else .error .wrongType

def setSettings (h : Handle) (settings : Value) : Run Result := do
  let n ← node h
  let (g, fault) := (← graph).setSettings n settings
  setGraph g
  match fault with
  | some fault => throw (.fault fault)
  | none => answer .none

/-- The settings of a node with one of them changed in the answer only. -/
def changedSettings (settings : Entries) : Option (Value × Value) → Except Fault Entries
  | none => .ok settings
  | some (key, v) => if key.isKey then .ok (settings.insert key v) else .error .wrongType

/-! ## Ports and maps -/

def newPort (n : Ref .node) (d : Direction) (name : String) (o : PortOptions) : Run Result := do
  let label : PortLabel := ⟨o.group, name⟩
  let (g, p) ← match d with
    | .output => pure ((← graph).newOutput n label o.sender o.accepts)
    | .input =>
      require ((← graph).newInput n label o.receiver o.accepts o.blocking o.queueSize o.wait)
  setGraph g
  madePort p

/-- Replaces attributes of a port; a kind must be one of its direction. -/
def changedPort (port : Port) (c : PortChange) : Option Port := do
  let role ← match port.role, c.sender, c.receiver with
    | role, none, none => some role
    | .output _, some kind, none => some (.output kind)
    | .input details, none, some kind => some (.input { details with kind })
    | _, _, _ => none
  return { port with
    label := ⟨c.group.getD port.label.group, c.name.getD port.label.name⟩
    accepts := c.accepts.getD port.accepts
    role }

def register {kind : Kind} (add : Graph → Ref kind → Except Fault Graph) (refs : List (Ref kind)) :
    Run Result := do
  let (g, fault) := (← graph).registerEach add refs
  setGraph g
  match fault with
  | some fault => throw (.fault fault)
  | none => answer .none

def inputInfo (g : Graph) (i : Input) : Except Fault InputInfo := do
  return { blocking := i.blocking
           queueSize := i.queueSize
           wait := i.wait
           reuse := i.reuse
           explicitBlocking := i.blocking?
           explicitQueueSize := i.queueSize?
           explicitWait := i.wait?
           queue := ← g.queueText i.queue }

def portInfo (g : Graph) (p : Ref .port) : Except Fault PortInfo := do
  let port := g.port p
  return { label := port.label
           text := g.portText p
           kind := port.kindName
           accepts := port.accepts
           input := ← port.input?.mapM (inputInfo g) }

def mapInfo (g : Graph) (m : Ref .portMap) : MapInfo :=
  { text := (g.portMap m).text
    entries := (g.portMap m).entries.map fun e => (e.1, g.portText e.2) }

def setInput (h : Handle) (setting : InputSetting) (v : Value) : Run Result := do
  let p ← directed .input h
  let g ← graph
  setGraph (← match setting with
    | .blocking => pure (g.setBlocking p v)
    | .queueSize => require (g.setQueueSize p v)
    | .wait => pure (g.setWait p v)
    | .reuse => pure (g.setReuse p v))
  answer .none

/-! ## Queues -/

def queueInfo (g : Graph) (q : Ref .queue) : Except Fault QueueInfo := do
  let queue := g.queue q
  return { text := ← g.queueText q
           size := queue.size
           full := queue.isFull
           capacity := queue.capacity
           blocking := queue.blocking
           items := queue.items }

def afterDelivery (outcome : Delivery.Outcome) : Run Result := do
  match ← act (Workspace.settle outcome) with
  | none => answer .none
  | some d => return .wait (.deliver d)

def putMessage (q : Ref .queue) (m : Value) : Run Result := do
  match (← graph).push q m with
  | none => return .wait (.put q m)
  | some (g, records) =>
    setGraph g
    act (Workspace.record records)
    answer .none

/-- Takes a message. An empty queue makes the reader wait, unless its time is limited. -/
def takeMessage (q : Ref .queue) (reader : Option (Ref .node)) (timeout : Value) : Run Result := do
  let g ← graph
  match (g.queue q).tryGet with
  | some (m, queue) =>
    setGraph (g.setQueue q queue)
    answer (.value m)
  | none =>
    match timeout with
    | .null => return .wait (.take q reader)
    | timeout => throw (.fault ((g.queue q).waitFault timeout))

def tryTakeMessage (q : Ref .queue) : Run Result := do
  let g ← graph
  match (g.queue q).tryGet with
  | some (m, queue) =>
    setGraph (g.setQueue q queue)
    answer (.value m)
  | none => answer (.value .null)

/-! ## Messages and assets -/

def frameInfo? (m : Message) : Option FrameInfo :=
  match m.content with
  | .frame format pattern =>
    some { shape := m.data.shape, height := m.data.height, width := m.data.width,
           channels := m.data.channels, format, pattern }
  | _ => none

def groupInfo? (t : Messages) (m : Message) : Except Fault (Option GroupInfo) :=
  match m.content with
  | .group members => do .ok (some { members, interval := ← m.interval t })
  | _ => .ok none

def messageInfo (t : Messages) (r : Ref .message) : Except Fault MessageInfo := do
  let m := t.get r
  let text ← Messages.text t r
  let group ← groupInfo? t m
  .ok { text, datatype := m.datatype, timestamp := m.timestamp, sequence := m.sequence,
        metadata := m.metadata, data := m.data, frame := frameInfo? m, group }

/-- A frame in display order; other messages cannot be displayed. -/
def display (m : Message) : Except Fault PixelArray :=
  match m.content with
  | .frame format pattern => m.data.display format pattern
  | _ => .error .noMember

/-- Adds a member to a group; other messages take none. -/
def addMember (name : String) (r : Ref .message) (m : Message) : Except Fault Message :=
  match m.content with
  | .group members => .ok { m with content := .group (Message.putMember name r members) }
  | _ => .error .noMember

/-- The member of a group under a name; other messages have none. -/
def memberOf (m : Message) (name : String) : Except Fault (Option (Ref .message)) :=
  match m.content with
  | .group members => .ok ((members.find? fun e => e.1 = name).map Prod.snd)
  | _ => .error .wrongType

def setPixel (h : Handle) (index : List Int) (v : Value) : Run Result := do
  let r ← message h
  let g ← graph
  let m := g.messages.get r
  let (data, fault) := m.data.set index v
  setGraph { g with messages := g.messages.set r { m with data } }
  match fault with
  | some fault => throw (.fault fault)
  | none => answer .none

def assetSet (h : Handle) (key data : Value) : Run Result := do
  let owner ← shelfOwner h
  let s ← get
  let g := s.workspace.graph
  let content ← require (assetContent s.workspace.files data)
  let key ← require key.asText
  let bytes ← require (Asset.dataOf content)
  let (shelf, asset) := (g.shelf owner).set key bytes
  setGraph (g.setShelf owner shelf)
  answer (.asset (some asset.text) asset)

def load (p : Ref .pipeline) (uri : Value) (place : String) : Run Result := do
  let uri ← require uri.asText
  let s ← get
  let bytes ← require (s.workspace.graph.load s.workspace.files p uri place)
  answer (.value (.bytes bytes))

def loadFor (h : Handle) (uri : Value) : Run Result := do
  match ← object h with
  | .pipeline p => load p uri "/"
  | .node n =>
    let g ← graph
    load (← require (g.home n)) uri (g.placeOf n)
  | _ => throw .badRequest

/-! ## Commands -/

def evaluate : Command → Run Result
  | .pipeline name => do
    let p ← act (Workspace.newPipeline name)
    made (.text (← require ((← graph).pipelineText p))) (.pipeline p)
  | .create p kind settings => do
    let n ← act (Workspace.create (← pipeline p) kind settings)
    made (.text ((← graph).nodeText n)) (.node n)
  | .remove p n => do
    let p ← pipeline p
    answer (.flag (← act (Workspace.remove p (← node n))))
  | .drop h => do
    let _ ← object h
    modify fun s => { s with handles := s.handles.filter fun e => e.1 ≠ h }
    answer .none
  | .nodeInfo n => do
    let n ← node n
    answer (.nodeInfo ((← graph).nodeText n) ((← graph).nodeView n))
  | .parentPipeline n => do
    let p ← require ((← graph).home (← node n))
    answer (((← get).pipelineHandle? p).elim .none .text)
  | .setSettings n settings => setSettings n settings
  | .getSettings n change => do
    let settings := ((← graph).node (← node n)).settings
    answer (.value (.dict (← require (changedSettings settings change))))
  | .getNode p id => do
    match ← require (nodeByKey (← graph) (← pipeline p) id) with
    | some n => answer (.namedNode (← namedNode n))
    | none => answer .none
  | .allNodes p => do
    let nodes := ((← graph).pipeline (← pipeline p)).nodes
    answer (.namedNodes (← nodes.mapM fun e => namedNode e.2))
  | .connections p => do
    answer (.texts (((← graph).pipeline (← pipeline p)).connections.map Connection.text))
  | .pipelineInfo p => do
    let p ← pipeline p
    answer (.pipelineInfo (← require ((← graph).pipelineText p)) ((← graph).pipelineView p))
  | .describe mark source types => describe mark source types
  | .ports n d => do
    let g ← graph
    answer (.texts ((g.portsOf (← node n) d).map g.portText))
  | .port n d label => do
    match (← graph).port? (← node n) d label with
    | some p => madePort p
    | none => answer .none
  | .portCopy n d index => do
    let g ← graph
    let p ← expect (g.portsOf (← node n) d)[index]?
    let (g, q) := g.copyPort p
    setGraph g
    madePort q
  | .newPort n d name options => do newPort (← node n) d name options
  | .registerPorts n d ports => do
    let n ← node n
    let ports ← ports.mapM (directed d)
    register (fun g p => g.registerPort n d p) ports
  | .portInfo p => do answer (.portInfo (← require (portInfo (← graph) (← port p))))
  | .portParent p => do
    let n ← require ((← graph).owner (← port p))
    answer (((← get).nodeHandle? n).elim .none .text)
  | .changePort p change => do
    let p ← port p
    let g ← graph
    let changed ← expect (changedPort (g.port p) change)
    setGraph (g.modifyPort p fun _ => changed)
    answer (.text ((← graph).portText p))
  | .setInput p setting v => setInput p setting v
  | .portMap n d name => do
    match (← graph).portMap? (← node n) d name with
    | some m => made (.text ((← graph).portMap m).text) (.portMap m)
    | none => answer .none
  | .portMaps n d => do
    let g ← graph
    answer (.texts ((g.portMapsOf (← node n) d).map fun m => (g.portMap m).text))
  | .newPortMap d name template => do
    let (g, m) := (← graph).newPortMap name d (← directed d template)
    setGraph g
    made (.text (g.portMap m).text) (.portMap m)
  | .registerMaps n d maps => do
    let n ← node n
    let maps ← maps.mapM (directedMap d)
    register (fun g m => g.registerMap n d m) maps
  | .getOrCreate m key => do madePort (← act (Workspace.getOrCreate (← portMap m) key))
  | .mapGet m key => do
    match ((← graph).portMap (← portMap m)).get? key with
    | some p => madePort p
    | none => throw (.fault (.missingKey key))
  | .mapHas m key => do
    answer (.flag (((← graph).portMap (← portMap m)).get? key).isSome)
  | .mapTemplate m => do madePort ((← graph).portMap (← portMap m)).template
  | .mapInfo m => do answer (.mapInfo (mapInfo (← graph) (← portMap m)))
  | .link o i via => do
    let o ← directed .output o
    let i ← directed .input i
    match via with
    | some p => act (Workspace.link (← pipeline p) o i)
    | none => act (Workspace.linkOutput o i)
    answer .none
  | .unlink o i via => do
    let o ← directed .output o
    let i ← directed .input i
    let found ← match via with
      | some p => do act (Workspace.unlink (← pipeline p) o i)
      | none => act (Workspace.unlinkOutput o i)
    answer (.flag found)
  | .canConnect o i => do
    let o ← directed .output o
    answer (.flag ((← graph).canConnect o (← directed .input i)))
  | .samePipeline o i => do
    let o ← directed .output o
    answer (.flag ((← graph).samePipeline o (← directed .input i)))
  | .portConnections o => do
    let connections ← require ((← graph).connectionsOf (← directed .output o))
    answer (.texts (connections.map Connection.text))
  | .connection o i => do
    let o ← directed .output o
    let c ← require ((← graph).connectionOf o (← directed .input i))
    made (.text c.text) (.connection (.ofConnection c))
  | .connectionRecord parts => do
    let record ← expect (ConnectionRecord.ofParts? parts)
    made (.text (← require (record.text (← graph).shown))) (.connection record)
  | .connectionInfo c => do
    let record ← connection c
    answer (.connectionInfo (← require (record.text (← graph).shown))
      (Connection.fieldNames.zip record.parts))
  | .connectionEqual a b => do
    let r ← connection a
    let s ← connection b
    let equal := a = b || r.equal s
    answer (.comparison equal (← require (r.countDistinct s equal)))
  | .connectionSet c => do
    let _ ← connection c
    throw (.fault .frozen)
  | .send o m => do
    afterDelivery (← require ((← graph).deliver (← directed .output o) m))
  | .trySend o m => do
    let (g, records, sent) ← require ((← graph).tryDeliver (← directed .output o) m)
    setGraph g
    act (Workspace.record records)
    answer (.flag sent)
  | .queue name size blocking => do
    let (g, q) ← require ((← graph).newQueue name size blocking)
    setGraph g
    made (.text (← require (g.queueText q))) (.queue q)
  | .queueSend q m => do putMessage (← queue q) m
  | .queueTrySend q m => do
    let (g, records, sent) := (← graph).tryPush (← queue q) m
    setGraph g
    act (Workspace.record records)
    answer (.flag sent)
  | .queueGet q timeout => do takeMessage (← queue q) none timeout
  | .queueTryGet q => do tryTakeMessage (← queue q)
  | .queueGetAll q => do
    let q ← queue q
    let g ← graph
    let (items, emptied) := (g.queue q).getAll
    setGraph (g.setQueue q emptied)
    answer (.value (.list items))
  | .queueResize q size => do
    let q ← queue q
    let g ← graph
    setGraph (g.setQueue q (← require ((g.queue q).resize size)))
    answer .none
  | .queueSetBlocking q blocking => do
    let q ← queue q
    let g ← graph
    setGraph (g.setQueue q ((g.queue q).setBlocking blocking))
    answer .none
  | .queueInfo q => do answer (.queueInfo (← require (queueInfo (← graph) (← queue q))))
  | .hostGet n timeout => do
    let (n, q) ← host n
    takeMessage q (some n) timeout
  | .hostTryGet n => do tryTakeMessage (← host n).2
  | .hostQueue n => do answer (.text (← require ((← graph).queueText (← host n).2)))
  | .buffer pixels stamp => do
    let data ← require pixels.array
    madeMessage (.buffer data stamp.timestamp stamp.sequence stamp.metadata)
  | .frame pixels format pattern stamp => do
    let data ← require pixels.array
    madeMessage (← require
      (Message.frame data format pattern stamp.timestamp stamp.sequence stamp.metadata))
  | .group members stamp => do
    let members ← members.mapM fun e => do return (e.1, ← message e.2)
    let members := members.foldl (fun ms e => Message.putMember e.1 e.2 ms) []
    madeMessage (.group members stamp.timestamp stamp.sequence stamp.metadata)
  | .messageInfo m => do
    answer (.messageInfo (← require (messageInfo (← graph).messages (← message m))))
  | .frameCopy m => do
    madeMessage (← require ((← graph).messages.get (← message m)).copy)
  | .setPixel m index v => setPixel m index v
  | .setMetadata m key v => updateMessage m fun message => message.setMetadata key v
  | .display m => do
    answer (.pixels (← require (display ((← graph).messages.get (← message m)))))
  | .groupAdd m name member => do
    let r ← message member
    updateMessage m (addMember name r)
  | .groupGet m name => do
    match ← require (memberOf ((← graph).messages.get (← message m)) name) with
    | some r => answer (.value (.message r))
    | none => throw (.fault (.missingKey name))
  | .groupHas m name => do
    answer (.flag (← require (memberOf ((← graph).messages.get (← message m)) name)).isSome)
  | .shelf root => do
    let (g, s) := (← graph).newShelf root
    setGraph g
    made (.text (g.shelves.get s).text) (.shelf s)
  | .assetSet owner key data => assetSet owner key data
  | .assetGet owner key => do
    let shelf := (← graph).shelf (← shelfOwner owner)
    match shelf.get? (← require key.asText) with
    | some asset => answer (.asset none asset)
    | none => answer .none
  | .assetRemove owner key => do
    let owner ← shelfOwner owner
    let g ← graph
    let (shelf, found) := (g.shelf owner).remove (← require key.asText)
    setGraph (g.setShelf owner shelf)
    answer (.flag found)
  | .assetHas owner key => do
    let shelf := (← graph).shelf (← shelfOwner owner)
    answer (.flag (shelf.contains (← require key.asText)))
  | .assetInfo owner => do
    let shelf := (← graph).shelf (← shelfOwner owner)
    answer (.shelfInfo shelf.text shelf.size (shelf.assets.map Asset.text))
  | .asset key data => do
    let asset : Asset := ⟨key, ← require (Asset.dataOf data)⟩
    answer (.asset (some asset.text) asset)
  | .load owner uri => loadFor owner uri
  | .loadAt p uri place => do load (← pipeline p) uri place

end Session

end FrameGraph
