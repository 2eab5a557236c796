import FrameGraph.Description
import FrameGraph.Proofs.Endpoint
import FrameGraph.Proofs.Graph.Declared

/-!
# What descriptions say

A description lists nodes by alias, and connections between ports of nodes that aliases name. Nodes
are numbered as they are listed, so an alias stands for a position, and what a connection records
tells its ends.

* `Writes`: the connection that an item of a description stands for.
* `Connectable`: the ends of a connection that the kinds of their nodes allow.
* `record`: the connection between two ends, `record_inj`: and between no others.
-/

namespace FrameGraph.Description

/-- The name of the pipeline. -/
def pipelineName (description : Value) : Except Fault Value := do
  let pipeline ← description.memberOr "pipeline" (.dict [])
  pipeline.memberOr "name" (.text "default_pipeline")

/-- The described nodes by alias. -/
def nodeEntries (description : Value) : Except Fault Entries := do
  let pipeline ← description.memberOr "pipeline" (.dict [])
  (← memberOrEmpty pipeline "nodes" (.dict [])).entries

def connectionItems (description : Value) : Except Fault (List Value) := do
  let pipeline ← description.memberOr "pipeline" (.dict [])
  (← memberOrEmpty pipeline "connections" (.list [])).items

/-! ## Aliases -/

/-- The position of the node that an alias names. -/
def position? (entries : Entries) (name : String) : Option Nat :=
  entries.findIdx? fun e => e.1.equal (.text name)

theorem position?_inj {entries : Entries} {a b : String} {i : Nat}
    (ha : position? entries a = some i) (hb : position? entries b = some i) : a = b := by
  obtain ⟨_, ha, -⟩ := List.findIdx?_eq_some_iff_getElem.mp ha
  obtain ⟨_, hb, -⟩ := List.findIdx?_eq_some_iff_getElem.mp hb
  have htext := (Value.equal_text_iff.mp ha).symm.trans (Value.equal_text_iff.mp hb)
  cases htext
  rfl

/-! ## Kinds -/

/-- The kind that the type of a described node names. -/
def kindOfEntry (types : NodeTypes) (entry : Value × Value) : Option NodeKind :=
  match entry.2.memberOr "type" .null with
  | .ok (.text s) => types.find? s
  | _ => none

theorem kindOf_eq_ok_iff (types : NodeTypes) (name : MessageText) {type : Value} {kind : NodeKind} :
    types.kindOf name type = .ok kind ↔ ∃ s, type = .text s ∧ types.find? s = some kind := by
  constructor
  · intro h
    unfold NodeTypes.kindOf at h
    split at h
    · cases h
    · split at h
      · next s _ =>
        split at h
        · next hfind =>
          cases h
          exact ⟨s, rfl, hfind⟩
        · cases h
      · obtain ⟨_, -, h⟩ := bind_eq_ok.mp h
        cases h
  · rintro ⟨s, rfl, hfind⟩
    unfold NodeTypes.kindOf
    simp only [Value.isKey, hfind]
    rfl

theorem kindOfEntry_eq_some_iff {types : NodeTypes} {entry : Value × Value} {kind : NodeKind} :
    kindOfEntry types entry = some kind ↔
      ∃ s, entry.2.memberOr "type" .null = .ok (.text s) ∧ types.find? s = some kind := by
  unfold kindOfEntry
  split
  · next s htype => simp [htype]
  · next hother =>
    refine ⟨nofun, ?_⟩
    rintro ⟨s, htype, -⟩
    exact absurd htype (hother s)

/-- The kind of the node that an alias names. -/
def kindAt (types : NodeTypes) (entries : Entries) (name : String) : Option NodeKind := do
  let i ← position? entries name
  kindOfEntry types (← entries[i]?)

theorem position?_of_kindAt {types : NodeTypes} {entries : Entries} {a : String} {kind : NodeKind}
    (h : kindAt types entries a = some kind) : ∃ i, position? entries a = some i := by
  obtain ⟨i, hi, -⟩ := Option.bind_eq_some_iff.mp h
  exact ⟨i, hi⟩

/-! ## Ends of connections -/

/-- The two ends of a written connection. -/
def endpoints (item : Value) : Except Fault (EndpointSpec × EndpointSpec) := do
  let source ← EndpointSpec.ofValue (← item.member "from")
  let target ← EndpointSpec.ofValue (← item.member "to")
  .ok (source, target)

theorem endpoint_ok {v : Value} {spec : EndpointSpec} (h : EndpointSpec.ofValue v = .ok spec) :
    ∃ x, v = .text (spec.node ++ "." ++ x) ∧ '.' ∉ spec.node.toList ∧
      PortLabel.read x = .ok spec.port := by
  unfold EndpointSpec.ofValue at h
  split at h
  · obtain ⟨x, hx, -, hdot, hlabel⟩ := EndpointSpec.read_eq_ok_iff.mp h
    exact ⟨x, congrArg Value.text hx, hdot, hlabel⟩
  · cases h
  · cases h

/-- The connection between two ends, with the positions of their aliases as ids, or zero where there
is no such node. -/
def record (entries : Entries) (ends : EndpointSpec × EndpointSpec) : Connection :=
  ⟨(position? entries ends.1.node).getD 0, ends.1.port, (position? entries ends.2.node).getD 0,
    ends.2.port⟩

/-- The connection that is written as two endpoints, each an alias and a port with a dot in between:
nodes are numbered as they are listed, and the labels are read from the ports. -/
def Writes (entries : Entries) (item : Value) (c : Connection) : Prop :=
  ∃ a x b y, item.member "from" = .ok (.text (a ++ "." ++ x)) ∧
    item.member "to" = .ok (.text (b ++ "." ++ y)) ∧ '.' ∉ a.toList ∧ '.' ∉ b.toList ∧
    position? entries a = some c.outputId ∧ position? entries b = some c.inputId ∧
    PortLabel.read x = .ok c.output ∧ PortLabel.read y = .ok c.input

theorem writes_record {entries : Entries} {item : Value} {ends : EndpointSpec × EndpointSpec}
    (hends : endpoints item = .ok ends) {i j : Nat}
    (hi : position? entries ends.1.node = some i) (hj : position? entries ends.2.node = some j) :
    Writes entries item (record entries ends) := by
  obtain ⟨sourceSpec, hfrom, hends⟩ := bind_eq_ok.mp hends
  obtain ⟨source, hsource, hends⟩ := bind_eq_ok.mp hends
  obtain ⟨targetSpec, hto, hends⟩ := bind_eq_ok.mp hends
  obtain ⟨target, htarget, hends⟩ := bind_eq_ok.mp hends
  cases hends
  obtain ⟨x, rfl, hsourceDot, hsourceLabel⟩ := endpoint_ok hsource
  obtain ⟨y, rfl, htargetDot, htargetLabel⟩ := endpoint_ok htarget
  refine ⟨source.node, x, target.node, y, hfrom, hto, hsourceDot, htargetDot, ?_, ?_, hsourceLabel,
    htargetLabel⟩
  · rw [record, hi]
    rfl
  · rw [record, hj]
    rfl

/-- The ends are an output and an input of described nodes, with a type of message in common. -/
def Connectable (types : NodeTypes) (entries : Entries) (ends : EndpointSpec × EndpointSpec) :
    Prop :=
  ∃ kind kind' x y, kindAt types entries ends.1.node = some kind ∧
    kindAt types entries ends.2.node = some kind' ∧
    kind.declarations.port? .output ends.1.port = some x ∧
    kind'.declarations.port? .input ends.2.port = some y ∧ compatible x.accepts y.accepts = true

/-- Different ends of described nodes give different connections. -/
theorem record_inj {types : NodeTypes} {entries : Entries} {e e' : EndpointSpec × EndpointSpec}
    (h : Connectable types entries e) (h' : Connectable types entries e')
    (hsame : record entries e = record entries e') : e = e' := by
  obtain ⟨⟨a, l⟩, ⟨b, k⟩⟩ := e
  obtain ⟨⟨a', l'⟩, ⟨b', k'⟩⟩ := e'
  obtain ⟨_, _, _, _, ha, hb, -⟩ := h
  obtain ⟨_, _, _, _, ha', hb', -⟩ := h'
  obtain ⟨i, hi⟩ := position?_of_kindAt ha
  obtain ⟨j, hj⟩ := position?_of_kindAt hb
  obtain ⟨i', hi'⟩ := position?_of_kindAt ha'
  obtain ⟨j', hj'⟩ := position?_of_kindAt hb'
  dsimp only at hi hj hi' hj'
  rw [record, record, hi, hj, hi', hj'] at hsame
  obtain ⟨rfl, rfl, rfl, rfl⟩ := Connection.mk.inj hsame
  rw [position?_inj hi hi', position?_inj hj hj']

end FrameGraph.Description
