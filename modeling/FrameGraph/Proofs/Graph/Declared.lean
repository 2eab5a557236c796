import FrameGraph.Proofs.Graph.Making

/-!
# Declared ports

What a kind declares says which labels name ports of its nodes: without a group the names of static
ports, and with one every key of a declared map. Whatever else happens to a port, its row is the one
that the declaration gives, up to the settings of an input.

* `PortDeclaration.row`: the row of a port as it is declared.
* `Declarations.port?`: the declaration that a label of a node names.
* `Declarations.Distinct`: labels name at most one declaration, `NodeKind.declarations_distinct`.
* `declarePort`, `clonePort_eq`: a port map makes its ports as they are declared.
-/

namespace FrameGraph

/-! ## Declarations of one port -/

inductive PortDeclaration where
  | input (d : InputDeclaration)
  | output (d : OutputDeclaration)

namespace PortDeclaration

def direction : PortDeclaration → Direction
  | input _ => .input
  | output _ => .output

def name : PortDeclaration → String
  | input d => d.name
  | output d => d.name

def accepts : PortDeclaration → List Accepts
  | input d => Graph.acceptsOr d.accepts
  | output d => Graph.acceptsOr d.accepts

/-- The row of a port of a node as it is declared. An input has a queue. -/
def row (x : PortDeclaration) (n : Ref .node) (l : PortLabel) (q : Ref .queue) : Port :=
  match x with
  | input d =>
    ⟨n, l, Graph.acceptsOr d.accepts, .input
      { kind := .single, defaultBlocking := .bool d.blocking, defaultQueueSize := .int d.queueSize,
        defaultWait := .bool d.wait, queue := q }⟩
  | output d => ⟨n, l, Graph.acceptsOr d.accepts, .output .multiple⟩

variable (x : PortDeclaration) (n : Ref .node) (l : PortLabel) (q : Ref .queue)

@[simp] theorem row_node : (x.row n l q).node = n := by cases x <;> rfl

@[simp] theorem row_label : (x.row n l q).label = l := by cases x <;> rfl

@[simp] theorem row_accepts : (x.row n l q).accepts = x.accepts := by cases x <;> rfl

@[simp] theorem row_direction : (x.row n l q).direction = x.direction := by cases x <;> rfl

@[simp] theorem row_bare : (x.row n l q).bare = x.row n l q := by cases x <;> rfl

end PortDeclaration

/-! ## Declarations of a kind -/

/-- A static port, or a map with the port after which its ports are made. -/
inductive Declared where
  | port (x : PortDeclaration)
  | map (name : String) (x : PortDeclaration)

/-- What tells declarations apart: the direction, whether it is a map, and the name. -/
def Declared.key : Declared → Direction × Bool × String
  | port x => (x.direction, false, x.name)
  | map name x => (x.direction, true, name)

namespace Declarations

/-- The static ports of a direction. -/
def static (ds : Declarations) : Direction → List PortDeclaration
  | .input => ds.inputs.map .input
  | .output => ds.outputs.map .output

/-- The port maps of a direction. -/
def maps (ds : Declarations) : Direction → List (String × PortDeclaration)
  | .input => ds.inputMaps.map fun x => (x.1, .input x.2)
  | .output => ds.outputMaps.map fun x => (x.1, .output x.2)

/-- The declaration of the port that a label names: the static port of the name, or with a group any
port of the map. -/
def port? (ds : Declarations) (d : Direction) (l : PortLabel) : Option PortDeclaration :=
  if l.group = "" then (ds.static d).find? fun x => x.name = l.name
  else (ds.maps d).lookup l.group

/-- What is declared, in the order in which it is made. -/
def list (ds : Declarations) : List Declared :=
  (ds.static .input).map .port ++ (ds.static .output).map .port ++
    (ds.maps .input).map (fun x => .map x.1 x.2) ++ (ds.maps .output).map fun x => .map x.1 x.2

/-- No two declarations are called the same, maps have names, and no static port is called like the
template of a map. -/
structure Distinct (ds : Declarations) : Prop where
  keys : (ds.list.map Declared.key).Nodup
  group : ∀ d, ∀ e ∈ ds.maps d, e.1 ≠ ""
  template : ∀ d, ∀ e ∈ ds.maps d, ∀ x ∈ ds.static d, x.name ≠ e.2.name

variable {ds : Declarations} {d : Direction} {l : PortLabel} {x : PortDeclaration} {name : String}

theorem mem_static_iff : x ∈ ds.static d ↔ .port x ∈ ds.list ∧ x.direction = d := by
  cases x <;> cases d <;> simp [list, static, PortDeclaration.direction, maps]

theorem mem_maps_iff : (name, x) ∈ ds.maps d ↔ .map name x ∈ ds.list ∧ x.direction = d := by
  cases x <;> cases d <;> simp [list, static, PortDeclaration.direction, maps]

theorem direction_of_static (h : x ∈ ds.static d) : x.direction = d := (mem_static_iff.mp h).2

theorem direction_of_maps (h : (name, x) ∈ ds.maps d) : x.direction = d := (mem_maps_iff.mp h).2

theorem port?_cases (h : ds.port? d l = some x) :
    (l.group = "" ∧ x ∈ ds.static d ∧ x.name = l.name) ∨
      (l.group ≠ "" ∧ (l.group, x) ∈ ds.maps d) := by
  unfold port? at h
  split at h
  · next hgroup =>
    have hname := List.find?_some h
    exact Or.inl ⟨hgroup, List.mem_of_find?_eq_some h, of_decide_eq_true hname⟩
  · next hgroup => exact Or.inr ⟨hgroup, mem_of_lookup_eq_some h⟩

theorem direction_of_port? (h : ds.port? d l = some x) : x.direction = d := by
  rcases port?_cases h with ⟨-, hx, -⟩ | ⟨-, hx⟩
  · exact direction_of_static hx
  · exact direction_of_maps hx

namespace Distinct

variable (h : ds.Distinct)
include h

theorem eq_of_key {a b : Declared} (ha : a ∈ ds.list) (hb : b ∈ ds.list) (hkey : a.key = b.key) :
    a = b :=
  List.inj_on_of_nodup_map h.keys ha hb hkey

/-- A static port is named by its name. -/
theorem port?_static (hx : x ∈ ds.static d) : ds.port? d ⟨"", x.name⟩ = some x := by
  obtain ⟨y, hy⟩ : ∃ y, (ds.static d).find? (fun y => y.name = x.name) = some y :=
    Option.isSome_iff_exists.mp (List.find?_isSome.mpr ⟨x, hx, decide_eq_true rfl⟩)
  obtain ⟨hylist, hydirection⟩ := mem_static_iff.mp (List.mem_of_find?_eq_some hy)
  obtain ⟨hxlist, hxdirection⟩ := mem_static_iff.mp hx
  have hname := List.find?_some hy
  have hkey : (Declared.port y).key = (Declared.port x).key := by
    rw [Declared.key, Declared.key, hydirection, hxdirection, of_decide_eq_true hname]
  cases h.eq_of_key hylist hxlist hkey
  exact hy

/-- A map is named by its name, with any key. -/
theorem port?_map (hx : (name, x) ∈ ds.maps d) (key : String) :
    ds.port? d ⟨name, key⟩ = some x := by
  have hgroup : name ≠ "" := h.group d _ hx
  rw [port?, if_neg hgroup]
  cases hy : (ds.maps d).lookup name with
  | none => exact absurd rfl (ne_of_lookup_eq_none hy _ hx)
  | some y =>
    obtain ⟨hylist, hydirection⟩ := mem_maps_iff.mp (mem_of_lookup_eq_some hy)
    obtain ⟨hxlist, hxdirection⟩ := mem_maps_iff.mp hx
    have hkey : (Declared.map name y).key = (Declared.map name x).key := by
      rw [Declared.key, Declared.key, hydirection, hxdirection]
    cases h.eq_of_key hylist hxlist hkey
    rfl

/-- The template of a map has no label of its own. -/
theorem port?_template (hx : (name, x) ∈ ds.maps d) : ds.port? d ⟨"", x.name⟩ = none := by
  rw [port?, if_pos rfl, List.find?_eq_none]
  intro y hy hname
  exact h.template d _ hx y hy (of_decide_eq_true hname)

end Distinct

end Declarations

theorem NodeKind.declarations_distinct (k : NodeKind) : k.declarations.Distinct := by
  refine ⟨?_, fun d => ?_, fun d => ?_⟩
  · cases k <;> decide
  · cases k <;> cases d <;> decide
  · cases k <;> cases d <;> decide

/-! ## Ports as they are declared -/

namespace Graph

variable {g : Graph} {n : Ref .node} {l : PortLabel} {x : PortDeclaration}

/-- A port of a node as it is declared. -/
def declarePort (g : Graph) (n : Ref .node) (x : PortDeclaration) (l : PortLabel) :
    Except Fault (Graph × Ref .port) :=
  match x with
  | .input d => g.declareInput n d l
  | .output d => .ok (g.newOutput n l .multiple d.accepts)

theorem acceptsOr_acceptsOr (accepts : List Accepts) :
    acceptsOr (acceptsOr accepts) = acceptsOr accepts := by
  by_cases h : accepts = []
  · rw [acceptsOr, acceptsOr, if_pos h]
    rfl
  · rw [acceptsOr, acceptsOr, if_neg h, if_neg h]

theorem declarePort_ok (g : Graph) (n : Ref .node) (x : PortDeclaration) (l : PortLabel) :
    ∃ g' p q, g.declarePort n x l = .ok (g', p) ∧ g.Made n l (g', p) ∧
      g'.port p = x.row n l q := by
  cases x with
  | input d =>
    have hmake : (Queue.make l.text (.int d.queueSize) (.bool d.blocking) :
        Except Fault (Queue Value)) = .ok ⟨l.text, .int d.queueSize, .bool d.blocking, []⟩ := by
      apply Queue.make_ok
      apply Queue.capacityOf_of_pos
      exact_mod_cast d.queueSize_pos
    have hnew : ∃ r, g.declareInput n d l = .ok r := by
      rw [declareInput, newInput, hmake]
      exact ⟨_, rfl⟩
    obtain ⟨⟨g', p⟩, hnew⟩ := hnew
    refine ⟨g', p, ⟨g.queues.size⟩, hnew, newInput_made hnew, ?_⟩
    rw [declareInput, newInput, hmake] at hnew
    cases hnew
    exact Table.get_push_self _ _
  | output d =>
    exact ⟨_, _, ⟨0⟩, rfl, g.newOutput_made n l .multiple d.accepts, Table.get_push_self _ _⟩

/-- A port that is made after a template is made as the template was declared. -/
theorem clonePort_eq {template : Ref .port} {l₀ : PortLabel} {q₀ : Ref .queue}
    (ht : g.port template = x.row n l₀ q₀) (hn : (g.node n).alive = true) (l : PortLabel) :
    g.clonePort template l = g.declarePort n x l := by
  have hnode : (g.port template).node = n := by rw [ht, PortDeclaration.row_node]
  have howner : g.owner template = .ok n := by
    rw [owner_of_alive (by rw [hnode]; exact hn), hnode]
  rw [clonePort, howner, ht]
  cases x with
  | output d =>
    change Except.ok (g.newOutput n l .multiple (acceptsOr d.accepts)) = _
    rw [declarePort, newOutput, acceptsOr_acceptsOr]
    rfl
  | input d =>
    obtain ⟨g', p, q, hnew, -, hrow⟩ := g.declarePort_ok n (.input d) l
    have haccepts : g.newInput n l .single (acceptsOr d.accepts) (.bool d.blocking)
        (.int d.queueSize) (.bool d.wait) = .ok (g', p) := by
      rw [newInput, acceptsOr_acceptsOr]
      exact hnew
    -- The template has no settings, so the new port keeps the defaults.
    have hsame : g'.setWait p .null = g' := by
      have hports : g'.ports.modify p (fun port => port.updateInput fun i =>
          { i with wait? := overrideOf .null }) = g'.ports := by
        refine Table.modify_eq_self _ ?_
        rw [show g'.ports.get p = _ from hrow]
        rfl
      rw [setWait, modifyPort, hports]
    rw [hnew]
    refine bind_eq_ok.mpr ⟨n, rfl, bind_eq_ok.mpr ⟨(g', p), haccepts, ?_⟩⟩
    exact congrArg (fun g => Except.ok (g, p)) hsame

/-! ## Declaring one after the other -/

/-- Makes and registers what is declared. -/
def declare (n : Ref .node) (g : Graph) : Declared → Except Fault Graph
  | .port x => do
    let (g, p) ← g.declarePort n x ⟨"", x.name⟩
    g.registerPort n x.direction p
  | .map name x => do
    let (g, p) ← g.declarePort n x ⟨"", x.name⟩
    let (g, m) := g.newPortMap name x.direction p
    g.registerMap n x.direction m

theorem declarePorts_eq (g : Graph) (n : Ref .node) (ds : Declarations) :
    g.declarePorts n ds = ds.list.foldlM (declare n) g := by
  have hinput : declareStaticInput n = fun g d => declare n g (.port (.input d)) := rfl
  have houtput : declareStaticOutput n = fun g d => declare n g (.port (.output d)) := rfl
  have hinputMap : declareInputMap n = fun g d => declare n g (.map d.1 (.input d.2)) := rfl
  have houtputMap : declareOutputMap n = fun g d => declare n g (.map d.1 (.output d.2)) := rfl
  simp only [declarePorts, Declarations.list, Declarations.static, Declarations.maps,
    List.foldlM_append, List.foldlM_map, bind_assoc, hinput, houtput, hinputMap, houtputMap]

/-- A port is made, and registered itself or as the template of a new port map. -/
theorem declare_cases {y : Declared} {g' : Graph} (h : declare n g y = .ok g') :
    ∃ x g₁ p, g.declarePort n x ⟨"", x.name⟩ = .ok (g₁, p) ∧ g.Made n ⟨"", x.name⟩ (g₁, p) ∧
      ((y = .port x ∧ g₁.registerPort n x.direction p = .ok g') ∨
        ∃ name, y = .map name x ∧
          (g₁.newPortMap name x.direction p).1.registerMap n x.direction
            (g₁.newPortMap name x.direction p).2 = .ok g') := by
  cases y with
  | port x =>
    obtain ⟨g₁, p, q, hnew, hmade, -⟩ := g.declarePort_ok n x ⟨"", x.name⟩
    rw [declare, hnew] at h
    exact ⟨x, g₁, p, hnew, hmade, Or.inl ⟨rfl, h⟩⟩
  | map name x =>
    obtain ⟨g₁, p, q, hnew, hmade, -⟩ := g.declarePort_ok n x ⟨"", x.name⟩
    rw [declare, hnew] at h
    exact ⟨x, g₁, p, hnew, hmade, Or.inr ⟨name, rfl, h⟩⟩

theorem declare_declares {y : Declared} {g' : Graph} (h : declare n g y = .ok g') :
    Declares n g g' := by
  obtain ⟨x, g₁, p, -, hmade, ⟨-, hregister⟩ | ⟨name, -, hregister⟩⟩ := declare_cases h
  · exact (Declares.of_made hmade).trans (registerPort_declares hmade.has hregister)
  · exact ((Declares.of_made hmade).trans (newPortMap_declares _ _ _ _ _)).trans
      (registerMap_declares (Table.has_push_self _ _) hregister)

theorem declarePorts_declares {ds : Declarations} {g' : Graph} (h : g.declarePorts n ds = .ok g') :
    Declares n g g' := by
  rw [declarePorts_eq] at h
  exact foldlM_related (.refl · n) .trans (fun _ _ _ => declare_declares) _ h

end Graph

end FrameGraph
