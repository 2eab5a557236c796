import FrameGraph.Proofs.Graph.Footprint

/-!
# Ports made after a template

A port that is made after a template takes over the kind, the types of messages and all settings of the
template, the defaults as defaults and the overrides as overrides. It has another label and, if it is an
input, a queue of its own, which is empty and set up as the settings of the template say.

* `Graph.Regular`: inputs have only settings that can be set. Every graph of a run is regular.
* `Port.cloned`: the row of a port made after another one.
* `clonePort_cloned`: in a regular graph a port is made after every template whose node is still there.
-/

namespace FrameGraph

/-! ## Settings that can be set -/

/-- No override is missing a value, and no size is below one. -/
structure Input.Regular (i : Input) : Prop where
  blocking : i.blocking? ≠ some .null
  wait : i.wait? ≠ some .null
  defaultSize : i.defaultQueueSize.lt (.int 1) = false
  size : ∀ n, i.queueSize? = some n → n.lt (.int 1) = false

namespace Input.Regular

variable {i : Input}

theorem setBlocking (h : i.Regular) (v : Value) : { i with blocking? := overrideOf v }.Regular :=
  ⟨overrideOf_ne_null v, h.wait, h.defaultSize, h.size⟩

theorem setWait (h : i.Regular) (v : Value) : { i with wait? := overrideOf v }.Regular :=
  ⟨h.blocking, overrideOf_ne_null v, h.defaultSize, h.size⟩

theorem setSize (h : i.Regular) {n : Number} (hn : n.lt (.int 1) = false) :
    { i with queueSize? := some n }.Regular := by
  refine ⟨h.blocking, h.wait, h.defaultSize, fun k hk => ?_⟩
  cases hk
  exact hn

end Input.Regular

namespace Graph

variable {g g' : Graph}

/-- Inputs have settings that can be set. -/
def Regular (g : Graph) : Prop := ∀ p i, (g.port p).input? = some i → i.Regular

namespace Regular

theorem empty : Regular {} := fun _ _ hi => by cases hi

theorem of_ports (h : g.Regular) (hports : g'.ports = g.ports) : g'.Regular := by
  intro p i hi
  rw [Graph.port, hports] at hi
  exact h p i hi

theorem push (h : g.Regular) {row : Port} (hrow : ∀ i, row.input? = some i → i.Regular)
    (hports : g'.ports = (g.ports.push row).1) : g'.Regular := by
  intro p i hi
  rw [Graph.port, hports, Table.get_push] at hi
  split at hi
  · exact hrow i hi
  · exact h p i hi

theorem modifyPort (h : g.Regular) {p : Ref .port} {f : Port → Port}
    (hf : ∀ i, (f (g.port p)).input? = some i → i.Regular) : (g.modifyPort p f).Regular := by
  intro r i hi
  rw [port_modifyPort] at hi
  split at hi
  · next hc =>
    rw [hc.1] at hi
    exact hf i hi
  · exact h r i hi

theorem updateInput (h : g.Regular) (p : Ref .port) {f : Input → Input}
    (hf : ∀ i, i.Regular → (f i).Regular) :
    (g.modifyPort p fun port => port.updateInput f).Regular := by
  refine h.modifyPort fun j hj => ?_
  rw [Port.updateInput_input?] at hj
  obtain ⟨i, hi, rfl⟩ := Option.map_eq_some_iff.mp hj
  exact hf i (h p i hi)

theorem setBlocking (h : g.Regular) (p : Ref .port) (v : Value) : (g.setBlocking p v).Regular := by
  unfold Graph.setBlocking
  split
  · exact h
  · exact (h.updateInput p fun _ hi => hi.setBlocking v).of_ports rfl

theorem setQueueSize (h : g.Regular) {p : Ref .port} {v : Value} (hok : g.setQueueSize p v = .ok g') :
    g'.Regular := by
  unfold Graph.setQueueSize at hok
  split at hok
  · cases hok
    exact h
  · obtain ⟨queue, hqueue, hok⟩ := bind_eq_ok.mp hok
    obtain ⟨n, hn, hqueue⟩ := bind_eq_ok.mp hqueue
    cases hqueue
    cases hok
    have hsize := (Queue.capacityOf_eq_ok hn).2
    exact (h.updateInput p fun _ hi => hi.setSize hsize).of_ports rfl

theorem setWait (h : g.Regular) (p : Ref .port) (v : Value) : (g.setWait p v).Regular :=
  h.updateInput p fun _ hi => hi.setWait v

theorem newOutput (h : g.Regular) (n : Ref .node) (l : PortLabel) (kind : SenderKind)
    (accepts : List Accepts) : (g.newOutput n l kind accepts).1.Regular := by
  refine h.push (fun _ hi => ?_) rfl
  cases hi

theorem newInput (h : g.Regular) {n : Ref .node} {l : PortLabel} {kind : ReceiverKind}
    {accepts : List Accepts} {blocking size wait : Value} {r : Graph × Ref .port}
    (hok : g.newInput n l kind accepts blocking size wait = .ok r) : r.1.Regular := by
  obtain ⟨queue, hqueue, hok⟩ := bind_eq_ok.mp hok
  obtain ⟨capacity, hcapacity, hqueue⟩ := bind_eq_ok.mp hqueue
  cases hqueue
  cases hok
  refine h.push (fun _ hi => ?_) rfl
  cases hi
  exact ⟨nofun, nofun, (Queue.capacityOf_eq_ok hcapacity).2, nofun⟩

theorem clonePort (h : g.Regular) {template : Ref .port} {l : PortLabel} {r : Graph × Ref .port}
    (hok : g.clonePort template l = .ok r) : r.1.Regular := by
  rcases clonePort_cases hok with ⟨kind, rfl⟩ | ⟨i, g₁, p, g₂, g₃, -, hinput, hpolicy, hsize, rfl⟩
  · exact h.newOutput _ _ _ _
  · have hset : g₂.Regular := by
      rcases hpolicy with rfl | ⟨v, -, rfl⟩
      · exact h.newInput hinput
      · exact (h.newInput hinput).setBlocking p v
    have hsized : g₃.Regular := by
      rcases hsize with rfl | ⟨v, hsize⟩
      · exact hset
      · exact hset.setQueueSize hsize
    exact hsized.setWait p _

theorem getOrCreate (h : g.Regular) {m : Ref .portMap} {key : String} {r : Graph × Ref .port}
    (hok : g.getOrCreate m key = .ok r) : r.1.Regular := by
  obtain ⟨g', p⟩ := r
  rcases getOrCreate_cases hok with ⟨-, rfl⟩ | ⟨-, g₁, hclone, -, rfl⟩
  · exact h
  · exact (h.clonePort hclone).of_ports rfl

theorem declare (h : g.Regular) {n : Ref .node} {y : Declared} (hok : declare n g y = .ok g') :
    g'.Regular := by
  obtain ⟨x, r, hnew, -, hpair⟩ := declare_tables hok
  have hport : r.1.Regular := by
    cases x with
    | input d => exact h.newInput hnew
    | output d =>
      cases hnew
      exact h.newOutput _ _ _ _
  exact hport.of_ports (Prod.mk.inj hpair).1

theorem create (h : g.Regular) {p : Ref .pipeline} {kind : NodeKind} {given : Value} {n : Ref .node}
    (hok : g.create p kind given = .ok (g', n)) : g'.Regular := by
  obtain ⟨settings, g₁, -, -, hports, rfl⟩ := create_eq_ok.mp hok
  rw [declarePorts_eq] at hports
  have hdeclared : g₁.Regular := by
    refine foldlM_related (R := fun a b => a.Regular → b.Regular) (fun _ => id)
      (fun hab hbc ha => hbc (hab ha)) (fun _ _ _ hok ha => declare ha hok) _ hports ?_
    exact h.of_ports rfl
  exact hdeclared.of_ports rfl

end Regular

theorem changedPort_input? {row row' : Port} {change : PortChange}
    (h : Session.changedPort row change = some row') {j : Input} (hj : row'.input? = some j) :
    ∃ i, row.input? = some i ∧ j = { i with kind := j.kind } := by
  unfold Session.changedPort at h
  dsimp only at h
  unfold Port.input? at hj ⊢
  split at h
  · cases h
    exact ⟨j, hj, rfl⟩
  · cases h
    cases hj
  · next i kind hrole _ _ =>
    cases h
    cases hj
    exact ⟨i, by rw [hrole], rfl⟩
  · cases h

end Graph

open FrameGraph.Graph in
theorem Operation.regular {g : Graph} (op : Operation) (h : g.Regular) (hfits : op.Fits g) :
    (op.after g).Regular := by
  cases hop : op.writes .ports with
  | false => exact h.of_ports (op.framed hfits .ports hop)
  | true =>
    cases op with
    | create p kind given => exact orSame_cases h fun _ hr => h.create hr
    | newOutput n l kind accepts => exact h.newOutput n l kind accepts
    | newInput n l kind accepts blocking size wait => exact orSame_cases h fun _ hr => h.newInput hr
    | copyPort p => exact h.push (fun i hi => h p i hi) rfl
    | getOrCreate m key => exact orSame_cases h fun _ hr => h.getOrCreate hr
    | changePort p change =>
      simp only [after]
      split
      · next row hrow =>
        refine h.modifyPort fun j hj => ?_
        obtain ⟨i, hi, hsame⟩ := changedPort_input? hrow hj
        have hregular := h p i hi
        rw [hsame]
        exact ⟨hregular.blocking, hregular.wait, hregular.defaultSize, hregular.size⟩
      · exact h
    | setBlocking p v => exact h.setBlocking p v
    | setQueueSize p v =>
      simp only [after]
      split
      · next hsize => exact h.setQueueSize hsize
      · exact h
    | setWait p v => exact h.setWait p v
    | setReuse p v => exact h.setWait p _
    | _ => cases hop

namespace Graph

variable {g g' : Graph}

theorem Run.regular {h : History} (hrun : Run g h) : g.Regular := by
  induction hrun with
  | start => exact .empty
  | next op _ hfits ih => exact op.regular ih hfits

/-! ## Inputs that were just made -/

/-- The port has the row of an input, and a queue that is empty and set up as the input says. -/
structure Blank (g : Graph) (p : Ref .port) (row : Port) (i : Input) (name : String) : Prop where
  has : g.ports.Has p
  row : g.port p = { row with role := .input i }
  queueHas : g.queues.Has i.queue
  queue : g.queue i.queue = ⟨name, i.queueSize, i.blocking, []⟩

namespace Blank

variable {p : Ref .port} {row : Port} {i : Input} {name : String}

theorem input? (h : g.Blank p row i name) : (g.port p).input? = some i := by
  rw [h.row]
  rfl

theorem queueOf? (h : g.Blank p row i name) : g.queueOf? p = some i.queue :=
  queueOf?_eq_some_iff.mpr ⟨i, h.input?, rfl⟩

/-- The row of the input and its queue are changed together. -/
theorem setUp (h : g.Blank p row i name) {f : Input → Input} {queue : Queue Value}
    (hf : (f i).queue = i.queue) (hqueue : queue = ⟨name, (f i).queueSize, (f i).blocking, []⟩) :
    ((g.modifyPort p fun port => port.updateInput f).setQueue i.queue queue).Blank p row (f i)
      name where
  has := Table.has_modify.mpr h.has
  row := by
    change (g.modifyPort p _).port p = _
    rw [port_modifyPort, if_pos ⟨rfl, h.has⟩, h.row]
    rfl
  queueHas := by
    rw [hf]
    exact Table.has_modify.mpr h.queueHas
  queue := by
    rw [hf, queue_setQueue, if_pos ⟨rfl, h.queueHas⟩, hqueue]

theorem setBlocking (h : g.Blank p row i name) {v : Value} (hv : v ≠ .null) :
    (g.setBlocking p v).Blank p row { i with blocking? := some v } name := by
  have hqueue : (g.queue i.queue).setBlocking v =
      ⟨name, i.queueSize, (overrideOf v).getD i.defaultBlocking, []⟩ := by
    rw [h.queue, overrideOf_of_ne hv]
    rfl
  rw [Graph.setBlocking, h.queueOf?, ← overrideOf_of_ne hv]
  exact h.setUp (f := fun i => { i with blocking? := overrideOf v }) rfl hqueue

theorem setQueueSize (h : g.Blank p row i name) {n : Number} (hn : n.lt (.int 1) = false) :
    ∃ g', g.setQueueSize p (.number n) = .ok g' ∧
      g'.Blank p row { i with queueSize? := some n } name := by
  have hcapacity := Queue.capacityOf_of_not_lt hn
  refine ⟨_, ?_, h.setUp (f := fun i => { i with queueSize? := some n }) rfl rfl⟩
  rw [Graph.setQueueSize, h.queueOf?]
  dsimp only
  rw [Queue.resize_ok hcapacity, h.queue]
  rfl

theorem setWait (h : g.Blank p row i name) (v : Value) :
    (g.setWait p v).Blank p row { i with wait? := overrideOf v } name where
  has := Table.has_modify.mpr h.has
  row := by
    rw [Graph.setWait, port_modifyPort, if_pos ⟨rfl, h.has⟩, h.row]
    rfl
  queueHas := h.queueHas
  queue := h.queue

/-- An override is set if there is one. -/
theorem setBlocking? (h : g.Blank p row i name) (hnone : i.blocking? = none) {v? : Option Value}
    (hv : v? ≠ some .null) :
    (match v? with
      | some v => g.setBlocking p v
      | none => g).Blank p row { i with blocking? := v? } name := by
  cases v? with
  | none =>
    have hsame : { i with blocking? := none } = i := by rw [← hnone]
    rw [hsame]
    exact h
  | some v => exact h.setBlocking fun hnull => hv (congrArg some hnull)

theorem setQueueSize? (h : g.Blank p row i name) (hnone : i.queueSize? = none) {n? : Option Number}
    (hn : ∀ n, n? = some n → n.lt (.int 1) = false) :
    ∃ g', (match n? with
      | some n => g.setQueueSize p (.number n)
      | none => .ok g) = .ok g' ∧ g'.Blank p row { i with queueSize? := n? } name := by
  cases n? with
  | none =>
    have hsame : { i with queueSize? := none } = i := by rw [← hnone]
    rw [hsame]
    exact ⟨g, rfl, h⟩
  | some n => exact h.setQueueSize (hn n rfl)

end Blank

end Graph

/-! ## Ports after a template -/

/-- The row of a port made after another one, with a label and a queue of its own. -/
def Port.cloned (row : Port) (l : PortLabel) (q : Ref .queue) : Port :=
  { row with label := l, accepts := Graph.acceptsOr row.accepts }.updateInput fun i =>
    { i with queue := q }

theorem Port.cloned_input? (row : Port) (l : PortLabel) (q : Ref .queue) :
    (row.cloned l q).input? = row.input?.map fun i => { i with queue := q } :=
  Port.updateInput_input? _ _

theorem Port.cloned_kindName (row : Port) (l : PortLabel) (q : Ref .queue) :
    (row.cloned l q).kindName = row.kindName := by
  obtain ⟨_, _, _, role⟩ := row
  cases role <;> rfl

theorem Port.cloned_accepts (row : Port) (l : PortLabel) (q : Ref .queue) :
    (row.cloned l q).accepts = Graph.acceptsOr row.accepts := by
  obtain ⟨_, _, _, role⟩ := row
  cases role <;> rfl

namespace Graph

variable {g g' : Graph}

/-- A port was made after a template. If it is an input, it has a new queue, which is empty and has the
capacity and the policy that the template reports. -/
structure Cloned (g : Graph) (template : Ref .port) (l : PortLabel) (g' : Graph) (p : Ref .port) :
    Prop where
  made : g.Made (g.port template).node l (g', p)
  row : g'.port p = (g.port template).cloned l ⟨g.queues.size⟩
  queue : ∀ i, (g.port template).input? = some i → g'.queues.Has ⟨g.queues.size⟩ ∧
    g'.queue ⟨g.queues.size⟩ = ⟨l.text, i.queueSize, i.blocking, []⟩

theorem overrideOf_getD {v? : Option Value} (h : v? ≠ some .null) :
    overrideOf (v?.getD .null) = v? := by
  cases v? with
  | none => rfl
  | some v => exact overrideOf_of_ne fun hnull => h (congrArg some hnull)

/-- A new input is blank. -/
theorem newInput_blank (g : Graph) (row : Port) (l : PortLabel) {i : Input}
    (hsize : i.defaultQueueSize.lt (.int 1) = false) :
    ∃ g', g.newInput row.node l i.kind row.accepts i.defaultBlocking (.number i.defaultQueueSize)
        i.defaultWait = .ok (g', ⟨g.ports.size⟩) ∧
      g'.Blank ⟨g.ports.size⟩ { row with label := l, accepts := acceptsOr row.accepts }
        { i with blocking? := none, queueSize? := none, wait? := none, queue := ⟨g.queues.size⟩ }
        l.text := by
  rw [newInput, Queue.make_ok (Queue.capacityOf_of_not_lt hsize)]
  exact ⟨_, rfl, Table.has_push_self _ _, Table.get_push_self _ _, Table.has_push_self _ _,
    Table.get_push_self _ _⟩

/-- In a regular graph a port is made after every template whose node is still there. -/
theorem clonePort_cloned (hreg : g.Regular) {template : Ref .port} (l : PortLabel)
    (halive : (g.node (g.port template).node).alive = true) :
    ∃ g', g.clonePort template l = .ok (g', ⟨g.ports.size⟩) ∧
      g.Cloned template l g' ⟨g.ports.size⟩ := by
  have howner := owner_of_alive halive
  cases hrole : (g.port template).role with
  | output kind =>
    have hnone : (g.port template).input? = none := by rw [Port.input?, hrole]
    have hok : g.clonePort template l = .ok
        (g.newOutput (g.port template).node l kind (g.port template).accepts) := by
      rw [clonePort, howner]
      simp only [hrole]
      rfl
    refine ⟨_, hok, g.newOutput_made _ _ _ _, ?_, fun i hi => ?_⟩
    · refine (Table.get_push_self g.ports _).trans ?_
      rw [Port.cloned, Port.updateInput]
      simp only [hrole]
    · cases hnone.symm.trans hi
  | input i =>
    have hi : (g.port template).input? = some i := by rw [Port.input?, hrole]
    have hregular := hreg template i hi
    obtain ⟨g₁, hnew, hblank⟩ := g.newInput_blank (g.port template) l hregular.defaultSize
    have hset := hblank.setBlocking? rfl hregular.blocking
    obtain ⟨g₂, hsize, hsized⟩ := hset.setQueueSize? rfl hregular.size
    have hdone := hsized.setWait (i.wait?.getD .null)
    rw [overrideOf_getD hregular.wait] at hdone
    have hok : g.clonePort template l =
        .ok (g₂.setWait ⟨g.ports.size⟩ (i.wait?.getD .null), ⟨g.ports.size⟩) := by
      rw [clonePort, howner]
      refine bind_eq_ok.mpr ⟨_, rfl, ?_⟩
      simp only [hrole]
      refine bind_eq_ok.mpr ⟨_, hnew, ?_⟩
      cases hn : i.queueSize? <;> simp only [hn] at hsize ⊢ <;>
        exact bind_eq_ok.mpr ⟨g₂, hsize, rfl⟩
    refine ⟨_, hok, clonePort_made hok, ?_, fun j hj => ?_⟩
    · rw [hdone.row, Port.cloned, Port.updateInput]
      simp only [hrole]
    · cases hi.symm.trans hj
      exact ⟨hdone.queueHas, hdone.queue⟩

end Graph

end FrameGraph
