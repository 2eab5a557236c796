import FrameGraph.Proofs.Graph.Steady
import FrameGraph.Proofs.Graph.TryDelivery

/-!
# Footprints of operations

What is known of a port is its row and its queue. An operation changes them if it sets up the port, or
another one that shares the queue, if it is a call on the queue, or if it is a delivery that comes to
the queue. Whatever else is done leaves the port as it is.

* `Graph.Reaches`: the queues to which a delivery comes.
* `Operation.Touches`: the operations that may change a port, `Operation.leaves`: all others do not.
* `Operation.On`: the operations on one port, `Operation.On.untouched`: they concern no port that does
  not share its queue.
-/

namespace FrameGraph

namespace Graph

variable {g g' g'' : Graph} {p : Ref .port}

/-- The row of a port and its queue are as they were. -/
structure Leaves (p : Ref .port) (g g' : Graph) : Prop where
  port : g'.port p = g.port p
  queue : ∀ q, g.queueOf? p = some q → g'.queue q = g.queue q

namespace Leaves

theorem refl (p : Ref .port) (g : Graph) : Leaves p g g := ⟨rfl, fun _ _ => rfl⟩

theorem queueOf?_eq (h : Leaves p g g') : g'.queueOf? p = g.queueOf? p := by
  rw [queueOf?, h.port]
  rfl

theorem trans (h : Leaves p g g') (h' : Leaves p g' g'') : Leaves p g g'' where
  port := h'.port.trans h.port
  queue q hq := by
    have hq' : g'.queueOf? p = some q := h.queueOf?_eq.trans hq
    exact (h'.queue q hq').trans (h.queue q hq)

theorem of_tables (hports : g'.ports = g.ports) (hqueues : g'.queues = g.queues) :
    Leaves p g g' := by
  refine ⟨?_, fun q _ => ?_⟩
  · rw [Graph.port, hports]
    rfl
  · rw [Graph.queue, hqueues]
    rfl

theorem of_made {n : Ref .node} {l : PortLabel} {r : Graph × Ref .port} (h : g.Made n l r)
    (hp : g.ports.Has p) (hq : ∀ q, g.queueOf? p = some q → g.queues.Has q) : Leaves p g r.1 :=
  ⟨h.others p hp, fun q hown => (h.queues q (hq q hown)).2⟩

/-- Setting up an input leaves a port alone that does not share its queue. -/
theorem of_tuned {r : Ref .port} (h : g.Tuned r g') (hrow : r = p → g'.port p = g.port p)
    (hshares : ¬g.Shares r p) : Leaves p g g' := by
  refine ⟨?_, fun q hq => h.queues q fun hr => hshares ⟨by rw [hq]; rfl, hr.trans hq.symm⟩⟩
  by_cases hpr : r = p
  · exact hrow hpr
  · exact h.others p fun heq => hpr heq.symm

theorem setQueue {q : Ref .queue} {queue : Queue Value} (h : g.queueOf? p ≠ some q) :
    Leaves p g (g.setQueue q queue) := by
  refine ⟨rfl, fun r hr => ?_⟩
  rw [queue_setQueue, if_neg]
  rintro ⟨rfl, -⟩
  exact h hr

theorem modifyPort {r : Ref .port} {f : Port → Port} (h : r ≠ p) :
    Leaves p g (g.modifyPort r f) := by
  refine ⟨?_, fun _ _ => rfl⟩
  rw [port_modifyPort, if_neg fun hc => h hc.1.symm]

end Leaves

/-- Two different ports with nothing in common: both are inputs or none is, and they have different
queues. -/
structure Unrelated (g : Graph) (r p : Ref .port) : Prop where
  ne : r ≠ p
  isSome : (g.queueOf? r).isSome = (g.queueOf? p).isSome
  apart : ¬g.Shares r p

/-! ## Setting up ports -/

theorem setBlocking_of_output (h : g.queueOf? p = none) (v : Value) : g.setBlocking p v = g := by
  rw [setBlocking, h]

theorem setQueueSize_of_output (h : g.queueOf? p = none) (v : Value) :
    g.setQueueSize p v = .ok g := by
  rw [setQueueSize, h]

/-- A port that does not even share its own queue is no input. -/
theorem queueOf?_of_not_shares (h : ¬g.Shares p p) : g.queueOf? p = none := by
  by_contra hsome
  exact h ⟨Option.isSome_iff_ne_none.mpr hsome, rfl⟩

theorem setBlocking_leaves {r : Ref .port} (h : ¬g.Shares r p) (v : Value) :
    Leaves p g (g.setBlocking r v) := by
  refine .of_tuned (g.setBlocking_tuned r v) (fun heq => ?_) h
  subst heq
  rw [setBlocking_of_output (queueOf?_of_not_shares h)]

theorem setQueueSize_leaves {r : Ref .port} (h : ¬g.Shares r p) {v : Value}
    (hok : g.setQueueSize r v = .ok g') : Leaves p g g' := by
  refine .of_tuned (setQueueSize_tuned hok) (fun heq => ?_) h
  subst heq
  rw [setQueueSize_of_output (queueOf?_of_not_shares h)] at hok
  cases hok
  rfl

/-! ## Making ports -/

theorem clonePort_leaves {template : Ref .port} {l : PortLabel} {r : Graph × Ref .port}
    (h : g.clonePort template l = .ok r) (hp : g.ports.Has p)
    (hq : ∀ q, g.queueOf? p = some q → g.queues.Has q) : Leaves p g r.1 :=
  .of_made (clonePort_made h) hp hq

theorem getOrCreate_leaves {m : Ref .portMap} {key : String} {r : Graph × Ref .port}
    (h : g.getOrCreate m key = .ok r) (hp : g.ports.Has p)
    (hq : ∀ q, g.queueOf? p = some q → g.queues.Has q) : Leaves p g r.1 := by
  obtain ⟨g', q⟩ := r
  rcases getOrCreate_cases h with ⟨-, rfl⟩ | ⟨-, g₁, hclone, -, rfl⟩
  · exact .refl p g'
  · exact (clonePort_leaves hclone hp hq).trans (.of_tables rfl rfl)

/-- A port that is new with its queue shares it with no port that was there. -/
theorem Made.own {n : Ref .node} {l : PortLabel} {p : Ref .port} (h : g.Made n l (g', p))
    (hs : g.Sound) {r : Ref .port} (hr : g.ports.Has r) : ¬g'.Shares r p := by
  rintro ⟨hqueue, hsame⟩
  obtain ⟨q, hq⟩ := Option.isSome_iff_exists.mp hqueue
  rw [hq, queueOf?, h.others r hr] at hsame
  exact h.ownQueue q hq (hs.input r hr q hsame)

/-- Rows and queues that are there stay as they are. -/
structure Extended (g g' : Graph) : Prop where
  ports : ∀ p, g.ports.Has p → g'.ports.Has p ∧ g'.port p = g.port p
  queues : ∀ q, g.queues.Has q → g'.queues.Has q ∧ g'.queue q = g.queue q

namespace Extended

theorem refl (g : Graph) : Extended g g := ⟨fun _ hp => ⟨hp, rfl⟩, fun _ hq => ⟨hq, rfl⟩⟩

theorem trans (h : Extended g g') (h' : Extended g' g'') : Extended g g'' where
  ports p hp := by
    obtain ⟨hp', hrow⟩ := h.ports p hp
    obtain ⟨hp'', hrow'⟩ := h'.ports p hp'
    exact ⟨hp'', hrow'.trans hrow⟩
  queues q hq := by
    obtain ⟨hq', hrow⟩ := h.queues q hq
    obtain ⟨hq'', hrow'⟩ := h'.queues q hq'
    exact ⟨hq'', hrow'.trans hrow⟩

theorem of_made {n : Ref .node} {l : PortLabel} {r : Graph × Ref .port} (h : g.Made n l r) :
    Extended g r.1 :=
  ⟨fun q hq => ⟨(h.moves.kept.ports q hq).1, h.others q hq⟩, h.queues⟩

theorem of_pair (h : (g'.ports, g'.queues) = (g.ports, g.queues)) : Extended g g' := by
  obtain ⟨hports, hqueues⟩ := Prod.mk.inj h
  refine ⟨fun p hp => ⟨by rw [hports]; exact hp, ?_⟩, fun q hq => ⟨by rw [hqueues]; exact hq, ?_⟩⟩
  · rw [Graph.port, hports]
    rfl
  · rw [Graph.queue, hqueues]
    rfl

theorem leaves (h : Extended g g') (hp : g.ports.Has p)
    (hq : ∀ q, g.queueOf? p = some q → g.queues.Has q) : Leaves p g g' :=
  ⟨(h.ports p hp).2, fun q hown => (h.queues q (hq q hown)).2⟩

end Extended

theorem declare_extended {n : Ref .node} {y : Declared} (h : declare n g y = .ok g') :
    Extended g g' := by
  obtain ⟨x, r, -, hmade, hpair⟩ := declare_tables h
  exact (Extended.of_made hmade).trans (.of_pair hpair)

theorem create_extended {q : Ref .pipeline} {kind : NodeKind} {given : Value} {n : Ref .node}
    (h : g.create q kind given = .ok (g', n)) : Extended g g' := by
  obtain ⟨settings, g₁, -, -, hports, rfl⟩ := create_eq_ok.mp h
  rw [declarePorts_eq] at hports
  have hnode : Extended g { g with nodes := (g.nodes.push (g.newNode q kind settings)).1 } :=
    .of_pair rfl
  have hdeclared : Extended _ g₁ :=
    foldlM_related Extended.refl Extended.trans (fun _ _ _ => declare_extended) _ hports
  exact (hnode.trans hdeclared).trans (.of_pair rfl)

/-! ## Deliveries -/

/-- Some port of a list is an input with the label, and has the queue. -/
def Leads (g : Graph) (l : PortLabel) (ports : List (Ref .port)) (q : Ref .queue) : Prop :=
  ∃ i ∈ ports, g.target? l i = some q

/-- Some connection leads to an input with the queue. -/
def Reaches (g : Graph) (p : Ref .pipeline) (cs : List Connection) (q : Ref .queue) : Prop :=
  ∃ c ∈ cs, ∃ n, (g.pipeline p).node? c.inputId = some n ∧
    g.Leads c.input (g.portsOf n .input) q

theorem Refilled.target?_eq (h : g.Refilled g') (l : PortLabel) (i : Ref .port) :
    g'.target? l i = g.target? l i := by
  rw [target?, target?, queueOf?, queueOf?, Graph.port, Graph.port, h.ports]

theorem Refilled.leads_iff (h : g.Refilled g') {l : PortLabel} {ports : List (Ref .port)}
    {q : Ref .queue} : g'.Leads l ports q ↔ g.Leads l ports q := by
  simp only [Leads, h.target?_eq]

theorem Refilled.reaches_iff (h : g.Refilled g') {r : Ref .pipeline} {cs : List Connection}
    {q : Ref .queue} : g'.Reaches r cs q ↔ g.Reaches r cs q := by
  have hports : ∀ n, g'.portsOf n .input = g.portsOf n .input := fun n => by
    rw [portsOf, Graph.node, h.nodes, h.portMaps]
    rfl
  simp only [Reaches, Graph.pipeline, h.pipelines, hports, h.leads_iff]

theorem push_spares {q r : Ref .queue} (hr : r ≠ q) {m : Value} {x : Graph × Journal}
    (h : g.push q m = some x) : x.1.queue r = g.queue r := by
  unfold push at h
  split at h
  · cases h
  · cases h
    rw [queue_setQueue, if_neg fun hc => hr hc.1]

theorem Leads.tail {l : PortLabel} {i : Ref .port} {ports : List (Ref .port)} {q : Ref .queue}
    (h : ¬g.Leads l (i :: ports) q) : ¬g.Leads l ports q := by
  rintro ⟨j, hj, htarget⟩
  exact h ⟨j, List.mem_cons_of_mem i hj, htarget⟩

theorem Leads.ne_head {l : PortLabel} {i : Ref .port} {ports : List (Ref .port)} {q r : Ref .queue}
    (h : ¬g.Leads l (i :: ports) r) (hi : g.target? l i = some q) : r ≠ q := by
  rintro rfl
  exact h ⟨i, List.mem_cons_self, hi⟩

theorem serve_untouched {q : Ref .queue} (m : Value) {l : PortLabel} {ports : List (Ref .port)}
    (h : ¬g.Leads l ports q) : (g.serve m l ports).1.queue q = g.queue q := by
  induction ports generalizing g with
  | nil => rfl
  | cons i ports ih =>
    unfold serve
    split
    · exact ih (Leads.tail h)
    · next r hr =>
      split
      · rfl
      · next g₁ records hpush =>
        have hrefilled := (push_fill hpush).single.refilled
        have hrest : ¬g₁.Leads l ports q := fun hl => Leads.tail h (hrefilled.leads_iff.mp hl)
        exact (ih hrest).trans (push_spares (Leads.ne_head h hr) hpush)

theorem Reaches.tail {r : Ref .pipeline} {c : Connection} {cs : List Connection} {q : Ref .queue}
    (h : ¬g.Reaches r (c :: cs) q) : ¬g.Reaches r cs q := by
  rintro ⟨d, hd, hreach⟩
  exact h ⟨d, List.mem_cons_of_mem c hd, hreach⟩

theorem Reaches.head {r : Ref .pipeline} {c : Connection} {cs : List Connection} {q : Ref .queue}
    (h : ¬g.Reaches r (c :: cs) q) {n : Ref .node} (hn : (g.pipeline r).node? c.inputId = some n) :
    ¬g.Leads c.input (g.portsOf n .input) q :=
  fun hl => h ⟨c, List.mem_cons_self, n, hn, hl⟩

theorem serveAll_untouched {q : Ref .queue} (m : Value) {r : Ref .pipeline} {cs : List Connection}
    (h : ¬g.Reaches r cs q) : (g.serveAll m r cs).graph.queue q = g.queue q := by
  induction cs generalizing g with
  | nil => rfl
  | cons c cs ih =>
    unfold serveAll
    split
    · exact ih (Reaches.tail h)
    · next n hn =>
      have hhere := serve_untouched m (Reaches.head h hn)
      have hrefilled := (g.serve_fills m c.input (g.portsOf n .input)).refilled
      split
      · next hserve =>
        rw [hserve] at hhere
        exact hhere
      · next hserve =>
        rw [hserve] at hhere hrefilled
        exact (ih fun hr => Reaches.tail h (hrefilled.reaches_iff.mp hr)).trans hhere

theorem tryServe_untouched {q : Ref .queue} (m : Value) {l : PortLabel} {ports : List (Ref .port)}
    (h : ¬g.Leads l ports q) : (g.tryServe m l ports).1.queue q = g.queue q := by
  induction ports generalizing g with
  | nil => rfl
  | cons i ports ih =>
    unfold tryServe
    split
    · exact ih (Leads.tail h)
    · next r hr =>
      have hrefilled := (g.tryPush_fills r m).refilled
      have hrest : ¬(g.tryPush r m).1.Leads l ports q := fun hl =>
        Leads.tail h (hrefilled.leads_iff.mp hl)
      exact (ih hrest).trans (tryPush_others (Leads.ne_head h hr) m)

theorem tryServeAll_untouched {q : Ref .queue} (m : Value) {r : Ref .pipeline}
    {cs : List Connection} (h : ¬g.Reaches r cs q) :
    (g.tryServeAll m r cs).1.queue q = g.queue q := by
  induction cs generalizing g with
  | nil => rfl
  | cons c cs ih =>
    unfold tryServeAll
    split
    · exact ih (Reaches.tail h)
    · next n hn =>
      have hrefilled := (g.tryServe_fills m c.input (g.portsOf n .input)).refilled
      have hrest : ¬(g.tryServe m c.input (g.portsOf n .input)).1.Reaches r cs q := fun hr =>
        Reaches.tail h (hrefilled.reaches_iff.mp hr)
      exact (ih hrest).trans (tryServe_untouched m (Reaches.head h hn))

/-- The queues to which a waiting delivery may still come. -/
def Awaits (g : Graph) (d : Delivery) (q : Ref .queue) : Prop :=
  d.waiting = q ∨ g.Leads d.connection.input d.later q ∨ g.Reaches d.pipeline d.rest q

theorem resume_untouched {q : Ref .queue} {d : Delivery} (h : ¬g.Awaits d q) :
    (g.resume d).graph.queue q = g.queue q := by
  have hwaiting : q ≠ d.waiting := fun heq => h (Or.inl heq.symm)
  have hlater : ¬g.Leads d.connection.input d.later q := fun hl => h (Or.inr (Or.inl hl))
  have hrest : ¬g.Reaches d.pipeline d.rest q := fun hr => h (Or.inr (Or.inr hr))
  unfold resume
  split
  · rfl
  · next g₁ first hpush =>
    have hfirst := push_spares hwaiting hpush
    have hrefilled := (push_fill hpush).single.refilled
    have hhere := serve_untouched d.message fun hl => hlater (hrefilled.leads_iff.mp hl)
    split
    · next hserve =>
      rw [hserve] at hhere
      exact hhere.trans hfirst
    · next g₂ records hserve =>
      have hserved := (g₁.serve_fills d.message d.connection.input d.later).refilled
      rw [hserve] at hhere hserved
      have hrest' : ¬g₂.Reaches d.pipeline d.rest q := fun hr =>
        hrest (hrefilled.reaches_iff.mp (hserved.reaches_iff.mp hr))
      exact ((serveAll_untouched d.message hrest').trans hhere).trans hfirst

end Graph

/-! ## Operations -/

namespace Operation

open FrameGraph.Graph

variable {g : Graph} {p r : Ref .port}

/-- The operation sets up a port, or may change what is in its queue or how the queue is set up. -/
def Touches (g : Graph) (p : Ref .port) : Operation → Prop
  | .changePort r _ => r = p
  | .setWait r _ => r = p
  | .setReuse r _ => r = p
  | .setBlocking r _ => g.Shares r p
  | .setQueueSize r _ => g.Shares r p
  | .call q _ => g.queueOf? p = some q
  | .send o _ => ∃ h q, g.pipelineOf o = .ok h ∧ g.queueOf? p = some q ∧
      g.Reaches h (g.connectionsFrom h o) q
  | .trySend o _ => ∃ h q, g.pipelineOf o = .ok h ∧ g.queueOf? p = some q ∧
      g.Reaches h (g.connectionsFrom h o) q
  | .resume d => ∃ q, g.queueOf? p = some q ∧ g.Awaits d q
  | _ => False

/-- A delivery leaves a port as it is if it does not come to its queue. -/
theorem delivers_leaves {op : Operation} (hop : op.delivers = true) (h : ¬op.Touches g p) :
    Leaves p g (op.after g) := by
  refine ⟨?_, fun q hown => ?_⟩
  · rw [Graph.port, (after_fills hop).refilled.ports]
    rfl
  cases op with
  | send o m =>
    simp only [after]
    split
    · next hdeliver =>
      obtain ⟨home, hhome, hdeliver⟩ := bind_eq_ok.mp hdeliver
      cases hdeliver
      exact serveAll_untouched m fun hr => h ⟨home, q, hhome, hown, hr⟩
    · rfl
  | resume d => exact resume_untouched fun hr => h ⟨q, hown, hr⟩
  | trySend o m =>
    refine orSame_cases (P := fun g' => g'.queue q = g.queue q) rfl fun r hr => ?_
    obtain ⟨home, hhome, hr⟩ := bind_eq_ok.mp hr
    cases hr
    exact tryServeAll_untouched m fun hr => h ⟨home, q, hhome, hown, hr⟩
  | _ => cases hop

/-- An operation that does not touch a port leaves it as it is. -/
theorem leaves (op : Operation) (hfits : op.Fits g) (hp : g.ports.Has p)
    (hq : ∀ q, g.queueOf? p = some q → g.queues.Has q) (h : ¬op.Touches g p) :
    Leaves p g (op.after g) := by
  have hframed := op.framed hfits
  by_cases hsame : op.writes .ports = false ∧ op.writes .queues = false
  · exact .of_tables (hframed .ports hsame.1) (hframed .queues hsame.2)
  cases op with
  | create q kind given =>
    exact orSame_cases (.refl p g) fun _ hr => (create_extended hr).leaves hp hq
  | newOutput n l kind accepts => exact .of_made (g.newOutput_made n l kind accepts) hp hq
  | newInput n l kind accepts blocking size wait =>
    exact orSame_cases (.refl p g) fun _ hr => .of_made (newInput_made hr) hp hq
  | copyPort r => exact ⟨Table.get_push_of_lt _ _ hp, fun _ _ => rfl⟩
  | getOrCreate m key => exact orSame_cases (.refl p g) fun _ hr => getOrCreate_leaves hr hp hq
  | changePort r change =>
    simp only [after]
    split
    · exact .modifyPort h
    · exact .refl p g
  | setBlocking r v => exact setBlocking_leaves h v
  | setQueueSize r v =>
    simp only [after]
    split
    · next hsize => exact setQueueSize_leaves h hsize
    · exact .refl p g
  | setWait r v | setReuse r v => exact .modifyPort h
  | newQueue name size blocking =>
    refine orSame_cases (.refl p g) fun r hr => ?_
    obtain ⟨queue, -, hr⟩ := bind_eq_ok.mp hr
    cases hr
    exact ⟨rfl, fun q hown => Table.get_push_of_lt _ _ (hq q hown)⟩
  | call q c => exact .setQueue h
  | send | resume | trySend => exact delivers_leaves rfl h
  | _ => exact absurd ⟨rfl, rfl⟩ hsame

/-! ### Operations on one port -/

/-- The operation is one on a port: it sets up the port or copies it, or it is a call on the queue of
the port or a delivery that comes to no other queue. From an output something may be sent. -/
def On (g : Graph) (r : Ref .port) : Operation → Prop
  | .copyPort p => p = r
  | .changePort p _ => p = r
  | .setBlocking p _ => p = r
  | .setQueueSize p _ => p = r
  | .setWait p _ => p = r
  | .setReuse p _ => p = r
  | .call q _ => g.queueOf? r = some q
  | .send o _ => (o = r ∧ g.queueOf? r = none) ∨
      ∀ h q, g.Reaches h (g.connectionsFrom h o) q → g.queueOf? r = some q
  | .trySend o _ => (o = r ∧ g.queueOf? r = none) ∨
      ∀ h q, g.Reaches h (g.connectionsFrom h o) q → g.queueOf? r = some q
  | .resume d => ∀ q, g.Awaits d q → g.queueOf? r = some q
  | _ => False

/-- An operation on a port does not touch a port with which it has nothing in common. -/
theorem On.untouched {op : Operation} (h : op.On g r) (hunrelated : g.Unrelated r p) :
    ¬op.Touches g p := by
  have hapart : ∀ q, g.queueOf? p = some q → g.queueOf? r ≠ some q := fun q hp hr =>
    hunrelated.apart ⟨by rw [hp]; rfl, hr.trans hp.symm⟩
  have hsome : ∀ q, g.queueOf? p = some q → g.queueOf? r ≠ none := fun q hp hr => by
    have hsame := hunrelated.isSome
    rw [hp, hr] at hsame
    cases hsame
  intro htouches
  cases op with
  | changePort | setWait | setReuse => exact hunrelated.ne (h.symm.trans htouches)
  | setBlocking | setQueueSize => exact hunrelated.apart (h ▸ htouches)
  | call q c => exact hapart q htouches h
  | send o m | trySend o m =>
    obtain ⟨home, q, -, hq, hreach⟩ := htouches
    rcases h with ⟨-, hnone⟩ | hall
    · exact hsome q hq hnone
    · exact hapart q hq (hall home q hreach)
  | resume d =>
    obtain ⟨q, hq, hawaits⟩ := htouches
    exact hapart q hq (h q hawaits)
  | _ => exact htouches

end Operation

end FrameGraph
