import FrameGraph.Datatype
import FrameGraph.Decimal.Fixed
import FrameGraph.Image.Colour
import FrameGraph.Value.Entries

/-!
# Messages

What flows through a graph: buffers with data of any shape, image frames, and groups of named
messages. Every message has a time stamp, a sequence number and metadata, which are values of any
type.

* `Message.frame`: a frame has two or three dimensions, and a Bayer frame names its pattern.
* `Message.interval`: the earliest and the latest time stamp in a group.
-/

namespace FrameGraph

/-- What tells the three kinds of message apart. -/
inductive Content where
  | buffer
  | frame (format : ColorFormat) (pattern : Option BayerPattern)
  /-- Members by name, in the order in which the names were first used. -/
  | group (members : List (String × Ref .message))
  deriving Inhabited

structure Message where
  data : PixelArray
  timestamp : Value
  sequence : Value
  metadata : Value
  content : Content
  deriving Inhabited

abbrev Messages := Table .message Message

namespace Message

def datatype (m : Message) : Datatype :=
  match m.content with
  | .buffer => .buffer
  | .frame .. => .imgFrame
  | .group _ => .messageGroup

/-- The time stamp and sequence number of a message that states none. -/
def defaultTimestamp : Value := .float (.zero false)
def defaultSequence : Value := .int 0

/-- Metadata that count as false are an empty dictionary. -/
def metadataOf (v : Value) : Value := v.orElse (.dict [])

def buffer (data : PixelArray) (timestamp sequence metadata : Value) : Message :=
  ⟨data, timestamp, sequence, metadataOf metadata, .buffer⟩

/-- A frame, unless its data or its format do not make one. -/
def frame (data : PixelArray) (format : ColorFormat) (pattern : Option BayerPattern)
    (timestamp sequence metadata : Value) : Except Fault Message :=
  if data.dimensions ≠ 2 ∧ data.dimensions ≠ 3 then
    .error (.refused (.frameDimensions data.dimensions))
  else if format = .rawBayer ∧ pattern = none then .error (.refused .bayerRequired)
  else .ok ⟨data, timestamp, sequence, metadataOf metadata, .frame format pattern⟩

def group (members : List (String × Ref .message)) (timestamp sequence metadata : Value) :
    Message :=
  ⟨.empty, timestamp, sequence, metadataOf metadata, .group members⟩

/-- A copy of metadata, which only lists and dictionaries have. -/
def copyMetadata (v : Value) : Except Fault Value :=
  match v.content with
  | .list items => .ok (.list items)
  | .set members => .ok (.set members)
  | .dict entries => .ok (.dict entries)
  | _ => .error .noMember

/-- A copy of a frame. Other messages cannot be copied. -/
def copy (m : Message) : Except Fault Message :=
  match m.content with
  | .frame format pattern => do
    let metadata ← copyMetadata m.metadata
    frame m.data format pattern m.timestamp m.sequence metadata
  | _ => .error .noMember

/-- Writes metadata under a key. Lists take a position, which must exist. -/
def setMetadata (m : Message) (key value : Value) : Except Fault Message :=
  match m.metadata.content with
  | .dict entries =>
    if key.isKey then .ok { m with metadata := .dict (Entries.insert entries key value) }
    else .error .wrongType
  | .list items =>
    let position? : Option Int := match key with
      | .int i => some i
      | .bool b => some (if b then 1 else 0)
      | _ => none
    match position? with
    | none => .error .wrongType
    | some i =>
      let j := if i < 0 then i + items.length else i
      if 0 ≤ j ∧ j < items.length then .ok { m with metadata := .list (items.set j.toNat value) }
      else .error .indexOutOfRange
  | _ => .error .wrongType

/-! ## Groups -/

/-- Adds a member in the place of the one with its name, else at the end. -/
def putMember (name : String) (r : Ref .message) :
    List (String × Ref .message) → List (String × Ref .message)
  | [] => [(name, r)]
  | e :: rest => if e.1 = name then (name, r) :: rest else e :: putMember name r rest

def members (m : Message) : List (String × Ref .message) :=
  match m.content with
  | .group members => members
  | _ => []

/-- The first of the least values of a list that starts with `v`. -/
def least (v : Value) : List Value → Except Fault Value
  | [] => .ok v
  | w :: rest => do least (if ← w.lt v then w else v) rest

/-- The first of the greatest values of a list that starts with `v`. -/
def greatest (v : Value) : List Value → Except Fault Value
  | [] => .ok v
  | w :: rest => do greatest (if ← v.lt w then w else v) rest

/-- The earliest and the latest time stamp of the members. -/
def interval (t : Messages) (m : Message) : Except Fault (Value × Value) :=
  match m.members.map fun e => (t.get e.2).timestamp with
  | [] => .ok (.float (.zero false), .float (.zero false))
  | v :: rest => do .ok (← least v rest, ← greatest v rest)

/-! ## Texts -/

/-- A time stamp with three places. -/
def timestampText (v : Value) : Except Fault String :=
  match v.content with
  | .number n =>
    match n.toBinary64? with
    | some x => .ok (x.fixedText 3)
    | none => .error .overflow
  | .text _ => .error (.badData "")
  | _ => .error .wrongType

def bracketed (left right : String) (items : List String) : String :=
  left ++ ", ".intercalate items ++ right

/-- A message as it is shown; `name` shows the messages among its own values. -/
def text (t : Messages) (name : MessageText) (m : Message) : Except Fault String := do
  match m.content with
  | .buffer =>
    let sequence ← m.sequence.shown name
    let time ← timestampText m.timestamp
    .ok ("Buffer(seq=" ++ sequence ++ ", timestamp=" ++ time ++ "s, size=" ++
      toString m.data.size ++ ")")
  | .frame format _ =>
    let time ← timestampText m.timestamp
    .ok ("ImgFrame(shape=" ++ bracketed "(" ")" (m.data.shape.map toString) ++ ", format=" ++
      format.name ++ ", timestamp=" ++ time ++ "s)")
  | .group members =>
    let (first, last) ← m.interval t
    .ok ("MessageGroup(names=" ++ bracketed "[" "]" (members.map fun e => Text.quoteText e.1) ++
      ", interval=" ++ bracketed "(" ")" [← first.literal name, ← last.literal name] ++ ")")

end Message

namespace Messages

/-- A message as it is shown, with the messages among its values down to a depth. -/
def describe (t : Messages) : Nat → Ref .message → Except Fault String
  | 0, _ => .ok "..."
  | depth + 1, r => (t.get r).text t (describe t depth)

/-- A message as it is shown. The values of a message name older messages only, so the number of
messages is depth enough. -/
def text (t : Messages) (r : Ref .message) : Except Fault String := t.describe (t.size + 1) r

end Messages

end FrameGraph
