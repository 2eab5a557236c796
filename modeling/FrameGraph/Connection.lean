import FrameGraph.Endpoint

/-!
# Connections

A connection is a detached record: the ids of two nodes of one pipeline and the labels of an output
and an input of these. Two connections are the same when all six parts agree.
-/

namespace FrameGraph

structure Connection where
  outputId : Nat
  output : PortLabel
  inputId : Nat
  input : PortLabel
  deriving DecidableEq, Repr, Inhabited

namespace Connection

def text (c : Connection) : String :=
  toString c.outputId ++ ":" ++ c.output.text ++ " -> " ++ toString c.inputId ++ ":" ++ c.input.text

def touches (c : Connection) (id : Nat) : Bool := c.outputId = id || c.inputId = id

end Connection

/-- The names of the six parts of a connection, in order. -/
def Connection.fieldNames : List String :=
  ["output_id", "output_name", "output_group", "input_id", "input_name", "input_group"]

/-- A record with the parts of a connection that need not describe one: its parts are any values. -/
structure ConnectionRecord where
  outputId : Value
  outputName : Value
  outputGroup : Value
  inputId : Value
  inputName : Value
  inputGroup : Value
  deriving Inhabited

namespace ConnectionRecord

def ofConnection (c : Connection) : ConnectionRecord :=
  ⟨.int c.outputId, .text c.output.name, .text c.output.group,
    .int c.inputId, .text c.input.name, .text c.input.group⟩

def parts (r : ConnectionRecord) : List Value :=
  [r.outputId, r.outputName, r.outputGroup, r.inputId, r.inputName, r.inputGroup]

/-- The record with the six parts given in order. -/
def ofParts? : List Value → Option ConnectionRecord
  | [a, b, c, d, e, f] => some ⟨a, b, c, d, e, f⟩
  | _ => none

/-- One end of a record as it is shown. -/
def endText (render : Value → Except Fault String) (id name group : Value) :
    Except Fault String := do
  let id ← render id
  if group.equal (.text "") then return id ++ ":" ++ (← render name)
  else return id ++ ":" ++ (← render group) ++ "[\"" ++ (← render name) ++ "\"]"

def text (render : Value → Except Fault String) (r : ConnectionRecord) : Except Fault String := do
  return (← endText render r.outputId r.outputName r.outputGroup) ++ " -> " ++
    (← endText render r.inputId r.inputName r.inputGroup)

def equal (r s : ConnectionRecord) : Bool :=
  (r.parts.zip s.parts).all fun e => e.1.coincides e.2

/-- The number of distinct records among two that are equal or not, if all their parts can be
keys. -/
def countDistinct (r s : ConnectionRecord) (equal : Bool) : Except Fault Nat :=
  if (r.parts ++ s.parts).all Value.isKey then .ok (if equal then 1 else 2)
  else .error .wrongType

end ConnectionRecord

end FrameGraph
