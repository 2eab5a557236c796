import FrameGraph.Proofs.Graph.Frame

/-!
# Inputs that agree with their queues

An input has the capacity and the policy of its queue in its own settings, an override or a default,
and the queue has both once more. They are set in two places whenever the input is set up, and a port
that a map makes takes them over from the template of the map one by one.

* `Graph.Settled`: an input and its queue agree.
* `Graph.Steady`: inputs and queues that were there are set up as before, and new inputs agree with
  their queues.
* `setBlocking_settled`, `setQueueSize_settled`: an input that is set up goes on agreeing with its
  queue.
* `clonePort_settled`: a port made after a template agrees with its queue even if the template does
  not.
-/

namespace FrameGraph

/-! ## Settings that concern the queue -/

/-- An input without what does not concern its queue. -/
def Input.queueing (i : Input) : Input :=
  { i with kind := .single, defaultWait := .null, wait? := none }

theorem Input.eq_of_queueing {i j : Input} (h : i.queueing = j.queueing) :
    i.queue = j.queue ∧ i.queueSize = j.queueSize ∧ i.blocking = j.blocking ∧
      i.blocking? = j.blocking? :=
  ⟨(congrArg Input.queue h :), (congrArg Input.queueSize h :), (congrArg Input.blocking h :),
    (congrArg Input.blocking? h :)⟩

theorem overrideOf_of_ne {v : Value} (h : v ≠ .null) : overrideOf v = some v := by
  cases v with
  | null => exact absurd rfl h
  | _ => rfl

theorem overrideOf_ne_null (v : Value) : overrideOf v ≠ some .null := by
  cases v <;> simp [overrideOf]

namespace Graph

variable {g g' g'' : Graph} {p : Ref .port}

/-- What an input says about its queue holds of the queue. -/
structure Agrees (g : Graph) (i : Input) : Prop where
  has : g.queues.Has i.queue
  capacity : (g.queue i.queue).capacity = i.queueSize
  blocking : (g.queue i.queue).blocking = i.blocking
  /-- No value is not an override. -/
  override : i.blocking? ≠ some .null

/-- The port agrees with its queue if it is an input. -/
def Settled (g : Graph) (p : Ref .port) : Prop :=
  ∀ i, (g.port p).input? = some i → g.Agrees i

/-- All overrides are values. -/
def Plain (g : Graph) : Prop :=
  ∀ p i, (g.port p).input? = some i → i.blocking? ≠ some .null

theorem has_of_input? {i : Input} (hi : (g.port p).input? = some i) : g.ports.Has p := by
  by_contra hp
  rw [port, Table.get_of_size_le _ (Nat.le_of_not_lt hp)] at hi
  cases hi

theorem queueOf?_eq_some_iff {q : Ref .queue} :
    g.queueOf? p = some q ↔ ∃ i, (g.port p).input? = some i ∧ i.queue = q :=
  Option.map_eq_some_iff

theorem settled_of_not_has (hp : ¬g.ports.Has p) : g.Settled p :=
  fun _ hi => absurd (has_of_input? hi) hp

theorem Settled.keep (hs : g.Settled p)
    (hport : (g'.port p).input?.map Input.queueing = (g.port p).input?.map Input.queueing)
    (hqueue : ∀ q, g.queueOf? p = some q → g.queues.Has q → g'.queues.Has q ∧
      (g'.queue q).capacity = (g.queue q).capacity ∧ (g'.queue q).blocking = (g.queue q).blocking) :
    g'.Settled p := by
  intro j hj
  rw [hj] at hport
  obtain ⟨i, hi, hij⟩ := Option.map_eq_some_iff.mp hport.symm
  obtain ⟨hsame, hsize, hpolicy, hoverride⟩ := Input.eq_of_queueing hij
  have hagrees := hs i hi
  obtain ⟨hhas, hcapacity, hblocking⟩ := hqueue i.queue (queueOf?_eq_some_iff.mpr ⟨i, hi, rfl⟩)
    hagrees.has
  refine ⟨?_, ?_, ?_, ?_⟩
  · rw [← hsame]
    exact hhas
  · rw [← hsame, hcapacity, hagrees.capacity, hsize]
  · rw [← hsame, hblocking, hagrees.blocking, hpolicy]
  · rw [← hoverride]
    exact hagrees.override

/-! ## Steady changes -/

/-- Inputs and queues that were there are set up as before, and new inputs agree with their queues. -/
structure Steady (g g' : Graph) : Prop where
  ports : ∀ p, g.ports.Has p → g'.ports.Has p ∧
    (g'.port p).input?.map Input.queueing = (g.port p).input?.map Input.queueing
  queues : ∀ q, g.queues.Has q → g'.queues.Has q ∧
    (g'.queue q).capacity = (g.queue q).capacity ∧ (g'.queue q).blocking = (g.queue q).blocking
  fresh : ∀ p, ¬g.ports.Has p → g'.Settled p

namespace Steady

theorem settled (h : Steady g g') (hs : g.Settled p) : g'.Settled p := by
  by_cases hp : g.ports.Has p
  · exact hs.keep (h.ports p hp).2 fun q _ hq => h.queues q hq
  · exact h.fresh p hp

theorem plain (h : Steady g g') (hplain : g.Plain) : g'.Plain := by
  intro p j hj
  by_cases hp : g.ports.Has p
  · have hport := (h.ports p hp).2
    rw [hj] at hport
    obtain ⟨i, hi, hij⟩ := Option.map_eq_some_iff.mp hport.symm
    obtain ⟨-, -, -, hoverride⟩ := Input.eq_of_queueing hij
    rw [← hoverride]
    exact hplain p i hi
  · exact (h.fresh p hp j hj).override

theorem refl (g : Graph) : Steady g g :=
  ⟨fun _ hp => ⟨hp, rfl⟩, fun _ hq => ⟨hq, rfl, rfl⟩, fun _ hp => settled_of_not_has hp⟩

theorem trans (h : Steady g g') (h' : Steady g' g'') : Steady g g'' where
  ports p hp := by
    obtain ⟨hp', hsame⟩ := h.ports p hp
    obtain ⟨hp'', hsame'⟩ := h'.ports p hp'
    exact ⟨hp'', hsame'.trans hsame⟩
  queues q hq := by
    obtain ⟨hq', hcapacity, hblocking⟩ := h.queues q hq
    obtain ⟨hq'', hcapacity', hblocking'⟩ := h'.queues q hq'
    exact ⟨hq'', hcapacity'.trans hcapacity, hblocking'.trans hblocking⟩
  fresh _ hp := h'.settled (h.fresh _ hp)

theorem of_tables (hports : g'.ports = g.ports) (hqueues : g'.queues = g.queues) : Steady g g' := by
  have hport : ∀ p, g'.port p = g.port p := fun p => by rw [port, hports]; rfl
  have hqueue : ∀ q, g'.queue q = g.queue q := fun q => by rw [queue, hqueues]; rfl
  refine ⟨fun p hp => ⟨by rw [hports]; exact hp, by rw [hport]⟩,
    fun q hq => ⟨by rw [hqueues]; exact hq, by rw [hqueue], by rw [hqueue]⟩, fun p hp => ?_⟩
  refine settled_of_not_has ?_
  rw [hports]
  exact hp

theorem of_made {n : Ref .node} {l : PortLabel} {r : Graph × Ref .port} (h : g.Made n l r)
    (hs : r.1.Settled r.2) : Steady g r.1 := by
  refine ⟨fun q hq => ⟨(h.moves.kept.ports q hq).1, by rw [h.others q hq]⟩, fun q hq => ?_,
    fun q hq => ?_⟩
  · obtain ⟨hhas, hsame⟩ := h.queues q hq
    exact ⟨hhas, by rw [hsame], by rw [hsame]⟩
  · by_cases hnew : q = r.2
    · rw [hnew]
      exact hs
    · exact settled_of_not_has fun hhas => (h.only q hhas).elim hq hnew

theorem modifyPort (p : Ref .port) {f : Port → Port}
    (hf : (f (g.port p)).input?.map Input.queueing = (g.port p).input?.map Input.queueing) :
    Steady g (g.modifyPort p f) := by
  refine ⟨fun q hq => ⟨Table.has_modify.mpr hq, ?_⟩, fun _ hq => ⟨hq, rfl, rfl⟩, fun q hq => ?_⟩
  · rw [port_modifyPort]
    split
    · next hc => rw [hc.1, hf]
    · rfl
  · exact settled_of_not_has fun hhas => hq (Table.has_modify.mp hhas)

theorem setQueue (q : Ref .queue) {queue : Queue Value}
    (hcapacity : queue.capacity = (g.queue q).capacity)
    (hblocking : queue.blocking = (g.queue q).blocking) : Steady g (g.setQueue q queue) := by
  refine ⟨fun _ hp => ⟨hp, rfl⟩, fun r hr => ⟨Table.has_modify.mpr hr, ?_⟩,
    fun _ hp => settled_of_not_has hp⟩
  rw [queue_setQueue]
  split
  · next hc =>
    rw [hc.1]
    exact ⟨hcapacity, hblocking⟩
  · exact ⟨rfl, rfl⟩

theorem of_fills (h : g.Fills g') : Steady g g' := by
  induction h with
  | refl => exact refl g
  | tail _ hfill ih =>
    obtain ⟨q, queue, hcapacity, hblocking, rfl⟩ := hfill
    exact ih.trans (setQueue q hcapacity hblocking)

end Steady

/-! ## Setting up an input -/

/-- The row of an input and its queue are changed together. -/
theorem settled_setUp {i : Input} {f : Input → Input} {queue : Queue Value}
    (hi : (g.port p).input? = some i) (hq : g.queues.Has i.queue) (hqueue : (f i).queue = i.queue)
    (hcapacity : queue.capacity = (f i).queueSize) (hblocking : queue.blocking = (f i).blocking)
    (hoverride : (f i).blocking? ≠ some .null) :
    ((g.modifyPort p fun port => port.updateInput f).setQueue i.queue queue).Settled p := by
  intro j hj
  have hrow : (g.modifyPort p fun port => port.updateInput f).port p = (g.port p).updateInput f := by
    rw [port_modifyPort, if_pos ⟨rfl, has_of_input? hi⟩]
  change ((g.modifyPort p fun port => port.updateInput f).port p).input? = some j at hj
  rw [hrow, Port.updateInput_input?, hi] at hj
  cases hj
  have hstored : ((g.modifyPort p fun port => port.updateInput f).setQueue i.queue queue).queue
      i.queue = queue := by
    rw [queue_setQueue, if_pos ⟨rfl, hq⟩]
  refine ⟨?_, ?_, ?_, hoverride⟩
  · rw [hqueue]
    exact Table.has_modify.mpr hq
  · rw [hqueue, hstored, hcapacity]
  · rw [hqueue, hstored, hblocking]

theorem setBlocking_settled (hs : g.Settled p) {v : Value} (hv : v ≠ .null) :
    (g.setBlocking p v).Settled p := by
  unfold setBlocking
  split
  · exact hs
  · next q hq =>
    obtain ⟨i, hi, rfl⟩ := queueOf?_eq_some_iff.mp hq
    have hagrees := hs i hi
    refine settled_setUp hi hagrees.has rfl hagrees.capacity ?_ (overrideOf_ne_null v)
    change v = (overrideOf v).getD i.defaultBlocking
    rw [overrideOf_of_ne hv]
    rfl

theorem setQueueSize_settled (hs : g.Settled p) {v : Value} (h : g.setQueueSize p v = .ok g') :
    g'.Settled p := by
  unfold setQueueSize at h
  split at h
  · cases h
    exact hs
  · next q hq =>
    obtain ⟨i, hi, rfl⟩ := queueOf?_eq_some_iff.mp hq
    have hagrees := hs i hi
    obtain ⟨queue, hqueue, h⟩ := bind_eq_ok.mp h
    cases h
    obtain ⟨capacity, -, hqueue⟩ := bind_eq_ok.mp hqueue
    cases hqueue
    exact settled_setUp hi hagrees.has rfl rfl hagrees.blocking hagrees.override

theorem setWait_steady (g : Graph) (p : Ref .port) (v : Value) : Steady g (g.setWait p v) := by
  refine .modifyPort p ?_
  rw [Port.updateInput_input?, Option.map_map]
  rfl

/-- Two inputs have one queue. -/
def Shares (g : Graph) (r p : Ref .port) : Prop :=
  (g.queueOf? p).isSome = true ∧ g.queueOf? r = g.queueOf? p

instance (g : Graph) (r p : Ref .port) : Decidable (g.Shares r p) :=
  inferInstanceAs (Decidable (_ ∧ _))

/-- Setting up an input leaves the inputs alone that do not share its queue. -/
theorem Settled.tuned (hs : g.Settled p) {r : Ref .port} (h : g.Tuned r g')
    (hshares : ¬g.Shares r p) : g'.Settled p := by
  have hother : ∀ q, g.queueOf? p = some q → g.queueOf? r ≠ some q := fun q hq hr =>
    hshares ⟨by rw [hq]; rfl, hr.trans hq.symm⟩
  intro i hi
  have hqueue : g'.queueOf? p = some i.queue := queueOf?_eq_some_iff.mpr ⟨i, hi, rfl⟩
  rw [h.queueOf?_eq] at hqueue
  have hpr : p ≠ r := by
    rintro rfl
    exact hother _ hqueue hqueue
  refine hs.keep (by rw [h.others p hpr]) (fun q hq hhas => ?_) i hi
  rw [h.queues q (hother q hq)]
  exact ⟨(h.queuesHas q).mpr hhas, rfl, rfl⟩

theorem input_updateInput {f : Input → Input} {j : Input}
    (hj : ((g.modifyPort p fun port => port.updateInput f).port p).input? = some j) :
    ∃ i, (g.port p).input? = some i ∧ (j = f i ∨ j = i) := by
  rw [port_modifyPort] at hj
  split at hj
  · rw [Port.updateInput_input?] at hj
    obtain ⟨i, hi, rfl⟩ := Option.map_eq_some_iff.mp hj
    exact ⟨i, hi, Or.inl rfl⟩
  · exact ⟨j, hj, Or.inr rfl⟩

theorem Plain.tuned (hplain : g.Plain) {r : Ref .port} (h : g.Tuned r g')
    (hr : ∀ i, (g'.port r).input? = some i → i.blocking? ≠ some .null) : g'.Plain := by
  intro q i hi
  by_cases hq : q = r
  · subst hq
    exact hr i hi
  · rw [h.others q hq] at hi
    exact hplain q i hi

theorem Plain.setBlocking (hplain : g.Plain) (p : Ref .port) (v : Value) :
    (g.setBlocking p v).Plain := by
  refine hplain.tuned (g.setBlocking_tuned p v) fun j hj => ?_
  unfold Graph.setBlocking at hj
  split at hj
  · exact hplain p j hj
  · obtain ⟨i, hi, rfl | rfl⟩ := input_updateInput hj
    · exact overrideOf_ne_null v
    · exact hplain p _ hi

theorem Plain.setQueueSize (hplain : g.Plain) {p : Ref .port} {v : Value}
    (h : g.setQueueSize p v = .ok g') : g'.Plain := by
  refine hplain.tuned (setQueueSize_tuned h) fun j hj => ?_
  unfold Graph.setQueueSize at h
  split at h
  · cases h
    exact hplain p j hj
  · obtain ⟨queue, -, h⟩ := bind_eq_ok.mp h
    cases h
    obtain ⟨i, hi, rfl | rfl⟩ := input_updateInput hj
    · exact hplain p i hi
    · exact hplain p _ hi

/-! ## Making inputs -/

theorem newInput_settled {n : Ref .node} {l : PortLabel} {kind : ReceiverKind}
    {accepts : List Accepts} {blocking size wait : Value} {r : Graph × Ref .port}
    (h : g.newInput n l kind accepts blocking size wait = .ok r) : r.1.Settled r.2 := by
  obtain ⟨queue, hqueue, h⟩ := bind_eq_ok.mp h
  obtain ⟨capacity, -, hqueue⟩ := bind_eq_ok.mp hqueue
  cases hqueue
  cases h
  intro i hi
  have hrow := congrArg Port.input? (Table.get_push_self g.ports
    ⟨n, l, acceptsOr accepts, .input
      { kind, defaultBlocking := blocking, defaultQueueSize := capacity, defaultWait := wait,
        queue := ⟨g.queues.size⟩ }⟩)
  cases hrow.symm.trans hi
  have hstored := Table.get_push_self g.queues ⟨l.text, capacity, blocking, []⟩
  exact ⟨Table.has_push_self _ _, congrArg Queue.capacity hstored, congrArg Queue.blocking hstored,
    nofun⟩

theorem newOutput_settled (g : Graph) (n : Ref .node) (l : PortLabel) (kind : SenderKind)
    (accepts : List Accepts) :
    (g.newOutput n l kind accepts).1.Settled (g.newOutput n l kind accepts).2 := by
  intro i hi
  have hrow := congrArg Port.input?
    (Table.get_push_self g.ports ⟨n, l, acceptsOr accepts, .output kind⟩)
  cases hrow.symm.trans hi

/-- A port that is made after a template agrees with its queue, whether the template does or not. -/
theorem clonePort_settled (hplain : g.Plain) {template : Ref .port} {l : PortLabel}
    {r : Graph × Ref .port} (h : g.clonePort template l = .ok r) : r.1.Settled r.2 := by
  rcases clonePort_cases h with ⟨kind, rfl⟩ | ⟨i, g₁, p, g₂, g₃, hi, hinput, hpolicy, hsize, rfl⟩
  · exact newOutput_settled _ _ _ _ _
  · have hset : g₂.Settled p := by
      rcases hpolicy with rfl | ⟨v, hv, rfl⟩
      · exact newInput_settled hinput
      · refine setBlocking_settled (newInput_settled hinput) ?_
        rintro rfl
        exact hplain template i hi hv
    have hsized : g₃.Settled p := by
      rcases hsize with rfl | ⟨v, hsize⟩
      · exact hset
      · exact setQueueSize_settled hset hsize
    exact (setWait_steady _ _ _).settled hsized

theorem getOrCreate_steady (hplain : g.Plain) {m : Ref .portMap} {key : String}
    {r : Graph × Ref .port} (h : g.getOrCreate m key = .ok r) : Steady g r.1 := by
  obtain ⟨g', p⟩ := r
  rcases getOrCreate_cases h with ⟨-, rfl⟩ | ⟨-, g₁, hclone, hmade, rfl⟩
  · exact .refl g'
  · exact (Steady.of_made hmade (clonePort_settled hplain hclone)).trans (.of_tables rfl rfl)

/-- Of ports and queues, declaring makes what the declared port consists of. -/
theorem declare_tables {n : Ref .node} {y : Declared} (h : declare n g y = .ok g') :
    ∃ x r, g.declarePort n x ⟨"", x.name⟩ = .ok r ∧ g.Made n ⟨"", x.name⟩ r ∧
      (g'.ports, g'.queues) = (r.1.ports, r.1.queues) := by
  have hsame : ∀ {g g'}, Framed [.registries] g g' → (g'.ports, g'.queues) = (g.ports, g.queues) :=
    fun hframed => Prod.ext (hframed .ports rfl) (hframed .queues rfl)
  obtain ⟨x, g₁, p, hnew, hmade, ⟨-, hregister⟩ | ⟨name, -, hregister⟩⟩ := declare_cases h
  · exact ⟨x, _, hnew, hmade, hsame (registerPort_framed hregister)⟩
  · have htables := hsame (registerMap_framed hregister)
    exact ⟨x, _, hnew, hmade, htables⟩

theorem Steady.of_pair (h : (g'.ports, g'.queues) = (g.ports, g.queues)) : Steady g g' :=
  .of_tables (Prod.mk.inj h).1 (Prod.mk.inj h).2

theorem declarePort_steady {n : Ref .node} {x : PortDeclaration} {l : PortLabel}
    {r : Graph × Ref .port} (h : g.declarePort n x l = .ok r) : Steady g r.1 := by
  cases x with
  | input d => exact .of_made (newInput_made h) (newInput_settled h)
  | output d =>
    cases h
    exact .of_made (g.newOutput_made _ _ _ _) (g.newOutput_settled _ _ _ _)

theorem declare_steady {n : Ref .node} {y : Declared} (h : declare n g y = .ok g') : Steady g g' := by
  obtain ⟨x, r, hnew, -, hpair⟩ := declare_tables h
  exact (declarePort_steady hnew).trans (.of_pair hpair)

theorem create_steady {q : Ref .pipeline} {kind : NodeKind} {given : Value} {n : Ref .node}
    (h : g.create q kind given = .ok (g', n)) : Steady g g' := by
  obtain ⟨settings, g₁, -, -, hports, rfl⟩ := create_eq_ok.mp h
  rw [declarePorts_eq] at hports
  have hnode : Steady g { g with nodes := (g.nodes.push (g.newNode q kind settings)).1 } :=
    .of_tables rfl rfl
  have hdeclared : Steady _ g₁ :=
    foldlM_related Steady.refl Steady.trans (fun _ _ _ => declare_steady) _ hports
  exact (hnode.trans hdeclared).trans (.of_tables rfl rfl)

theorem changedPort_queueing {row row' : Port} {change : PortChange}
    (h : Session.changedPort row change = some row') :
    row'.input?.map Input.queueing = row.input?.map Input.queueing := by
  unfold Session.changedPort at h
  dsimp only at h
  unfold Port.input?
  split at h
  · cases h
    rfl
  · next hrole _ _ =>
    cases h
    rw [hrole]
  · next hrole _ _ =>
    cases h
    rw [hrole]
    rfl
  · cases h

end Graph

end FrameGraph
