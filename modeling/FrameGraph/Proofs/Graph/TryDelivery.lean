import FrameGraph.Proofs.Graph.FanOut
import FrameGraph.Proofs.Graph.Placement
import Mathlib.Data.List.Forall2

/-!
# Deliveries that never wait

An output that only tries to send offers its message to the queue of every input it is connected to.
A full queue turns the message away whatever its policy is, and the next one gets its turn all the
same. Different connections of an output lead to different queues as long as no copy of an input is
registered, since a copy shares the queue of the port it was made from.

* `Graph.Feeds`: the queue to which a connection leads.
* `Graph.Offered`: what an offer does to the queues that have room, to the full ones and to all others.
* `run_tryDeliver_offered`: a delivery that never waits does this in every graph a run reaches, and
  does the same as one that may wait if no queue is full.
-/

namespace FrameGraph.Graph

variable {g g' g'' : Graph}

/-! ## The rule -/

/-- The queue to which a connection of a pipeline leads. -/
def Feeds (g : Graph) (p : Ref .pipeline) (c : Connection) (q : Ref .queue) : Prop :=
  ∃ n, (g.pipeline p).node? c.inputId = some n ∧ g.Target n c.input q

/-- A message was offered to some queues. Those with room have it as their newest one, the full ones
and all others are as they were, and so is the rest of the graph. -/
structure Offered (g : Graph) (m : Value) (qs : List (Ref .queue)) (g' : Graph) : Prop where
  pipelines : g'.pipelines = g.pipelines
  nodes : g'.nodes = g.nodes
  ports : g'.ports = g.ports
  portMaps : g'.portMaps = g.portMaps
  messages : g'.messages = g.messages
  shelves : g'.shelves = g.shelves
  size : g'.queues.size = g.queues.size
  stored : ∀ q ∈ qs, (g.queue q).isFull = false →
    g'.queue q = { g.queue q with items := (g.queue q).items ++ [m] }
  full : ∀ q ∈ qs, (g.queue q).isFull = true → g'.queue q = g.queue q
  others : ∀ q, q ∉ qs → g'.queue q = g.queue q

/-- The records of the full queues among some. -/
def rejections (g : Graph) (qs : List (Ref .queue)) : Journal :=
  (qs.filter fun q => (g.queue q).isFull).map fun q => rejectedRecord (g.queue q).name

/-- An input that shares its queue with an older port. -/
def IsCopy (g : Graph) (p : Ref .port) : Prop :=
  (g.queueOf? p).isSome = true ∧ ∃ k, k < p.index ∧ g.queueOf? ⟨k⟩ = g.queueOf? p

instance (g : Graph) (p : Ref .port) : Decidable (g.IsCopy p) :=
  inferInstanceAs (Decidable (_ ∧ _))

/-- No node has a copy among its inputs. -/
def CopyFree (g : Graph) : Prop :=
  ∀ n ∈ g.nodes.refs, ∀ i ∈ g.portsOf n .input, ¬g.IsCopy i

instance (g : Graph) : Decidable g.CopyFree :=
  inferInstanceAs (Decidable (∀ n ∈ g.nodes.refs, _))

/-! ## One offer -/

theorem tryPush_ports (g : Graph) (q : Ref .queue) (m : Value) :
    (g.tryPush q m).1.ports = g.ports := by
  unfold tryPush
  split <;> rfl

theorem tryPush_others {q r : Ref .queue} (h : r ≠ q) (m : Value) :
    (g.tryPush q m).1.queue r = g.queue r := by
  unfold tryPush
  split
  · rw [queue_setQueue, if_neg fun hc => h hc.1]
  · rfl

theorem tryPush_of_full {q : Ref .queue} (h : (g.queue q).isFull = true) (m : Value) :
    g.tryPush q m = (g, [rejectedRecord (g.queue q).name], false) := by
  rw [tryPush, (Queue.trySend_eq_none_iff _ m).mpr h]

theorem tryPush_of_room {q : Ref .queue} (h : (g.queue q).isFull = false) (m : Value) :
    g.tryPush q m =
      (g.setQueue q { g.queue q with items := (g.queue q).items ++ [m] }, [], true) := by
  rw [tryPush, Queue.trySend, if_neg (by rw [h]; exact Bool.false_ne_true)]

/-- Where there is room a sender that may wait does the same as one that only tries. -/
theorem push_of_room {q : Ref .queue} (h : (g.queue q).isFull = false) (m : Value) :
    g.push q m = some ((g.tryPush q m).1, []) := by
  rw [tryPush_of_room h, push, Queue.send, if_neg (by rw [h]; exact Bool.false_ne_true)]
  rfl

theorem tryPush_sent (q : Ref .queue) (m : Value) :
    (g.tryPush q m).2.2 = true ↔ (g.queue q).isFull = false := by
  cases hfull : (g.queue q).isFull with
  | true => simp [tryPush_of_full hfull]
  | false => simp [tryPush_of_room hfull]

theorem rejections_cons (q : Ref .queue) (m : Value) (qs : List (Ref .queue)) :
    g.rejections (q :: qs) = (g.tryPush q m).2.1 ++ g.rejections qs := by
  cases hfull : (g.queue q).isFull with
  | true => simp [rejections, tryPush_of_full hfull, hfull]
  | false => simp [rejections, tryPush_of_room hfull, hfull]

theorem rejections_congr {qs : List (Ref .queue)} (h : ∀ q ∈ qs, g'.queue q = g.queue q) :
    g'.rejections qs = g.rejections qs := by
  have hfilter : (qs.filter fun q => (g'.queue q).isFull) = qs.filter fun q => (g.queue q).isFull :=
    List.filter_congr fun q hq => by rw [h q hq]
  rw [rejections, rejections, hfilter]
  exact List.map_congr_left fun q hq => by rw [h q (List.mem_of_mem_filter hq)]

theorem tryPush_offered {q : Ref .queue} (hq : g.queues.Has q) (m : Value) :
    g.Offered m [q] (g.tryPush q m).1 := by
  cases hfull : (g.queue q).isFull with
  | true =>
    rw [tryPush_of_full hfull]
    refine ⟨rfl, rfl, rfl, rfl, rfl, rfl, rfl, fun r hr hroom => ?_, fun _ _ _ => rfl,
      fun _ _ => rfl⟩
    cases List.mem_singleton.mp hr
    rw [hfull] at hroom
    cases hroom
  | false =>
    rw [tryPush_of_room hfull]
    refine ⟨rfl, rfl, rfl, rfl, rfl, rfl, Table.size_modify _ _ _, fun r hr _ => ?_,
      fun r hr hr' => ?_, fun r hr => ?_⟩
    · cases List.mem_singleton.mp hr
      rw [queue_setQueue, if_pos ⟨rfl, hq⟩]
    · cases List.mem_singleton.mp hr
      rw [hfull] at hr'
      cases hr'
    · rw [queue_setQueue, if_neg fun hc => hr (List.mem_singleton.mpr hc.1)]

namespace Offered

variable {m : Value} {q : Ref .queue} {qs : List (Ref .queue)}

theorem refl (g : Graph) (m : Value) : g.Offered m [] g :=
  ⟨rfl, rfl, rfl, rfl, rfl, rfl, rfl, nofun, nofun, fun _ _ => rfl⟩

theorem queue_of_ne (h : g.Offered m [q] g') {r : Ref .queue} (hr : r ≠ q) :
    g'.queue r = g.queue r := h.others r fun hc => hr (List.mem_singleton.mp hc)

theorem cons (h : g.Offered m [q] g') (h' : g'.Offered m qs g'') (hq : q ∉ qs) :
    g.Offered m (q :: qs) g'' := by
  have hne : ∀ r ∈ qs, r ≠ q := fun r hr => ne_of_mem_of_not_mem hr hq
  refine ⟨h'.pipelines.trans h.pipelines, h'.nodes.trans h.nodes, h'.ports.trans h.ports,
    h'.portMaps.trans h.portMaps, h'.messages.trans h.messages, h'.shelves.trans h.shelves,
    h'.size.trans h.size, fun r hr hroom => ?_, fun r hr hfull => ?_, fun r hr => ?_⟩
  · rcases List.mem_cons.mp hr with rfl | hr
    · rw [h'.others r hq]
      exact h.stored r List.mem_cons_self hroom
    · have hsame := h.queue_of_ne (hne r hr)
      rw [← hsame] at hroom ⊢
      exact h'.stored r hr hroom
  · rcases List.mem_cons.mp hr with rfl | hr
    · rw [h'.others r hq]
      exact h.full r List.mem_cons_self hfull
    · have hsame := h.queue_of_ne (hne r hr)
      rw [← hsame] at hfull ⊢
      exact h'.full r hr hfull
  · rw [List.mem_cons, not_or] at hr
    rw [h'.others r hr.2, h.queue_of_ne hr.1]

theorem has (h : g.Offered m qs g') {r : Ref .queue} (hr : g.queues.Has r) : g'.queues.Has r := by
  rw [Table.Has, h.size]
  exact hr

theorem feeds (h : g.Offered m qs g') {p : Ref .pipeline} {c : Connection} {r : Ref .queue}
    (hr : g.Feeds p c r) : g'.Feeds p c r := by
  obtain ⟨n, hn, i, hfilter, hqueue⟩ := hr
  refine ⟨n, ?_, i, ?_, ?_⟩
  · rw [pipeline, h.pipelines]
    exact hn
  · rw [portsOf, node, h.nodes, h.portMaps]
    simp only [port, h.ports]
    exact hfilter
  · rw [queueOf?, port, h.ports]
    exact hqueue

end Offered

/-! ## The ports of a node -/

/-- The input of a node that has the label, between inputs that have not. -/
theorem Target.split {n : Ref .node} {l : PortLabel} {q : Ref .queue} (h : g.Target n l q) :
    ∃ before i later, g.portsOf n .input = before ++ i :: later ∧
      (∀ r ∈ before, (g.port r).label ≠ l) ∧ (∀ r ∈ later, (g.port r).label ≠ l) ∧
      g.target? l i = some q := by
  obtain ⟨i, hfilter, hqueue⟩ := h
  obtain ⟨before, later, hports, hbefore, hlabel, hlater⟩ := List.filter_eq_cons_iff.mp hfilter
  rw [decide_eq_true_eq] at hlabel
  refine ⟨before, i, later, hports, fun r hr hl => hbefore r hr (decide_eq_true hl),
    fun r hr hl => ?_, ?_⟩
  · exact List.filter_eq_nil_iff.mp hlater r hr (decide_eq_true hl)
  · rw [target?, if_pos hlabel]
    exact hqueue

theorem tryServe_append (m : Value) {l : PortLabel} {ports : List (Ref .port)}
    (h : ∀ p ∈ ports, (g.port p).label ≠ l) (later : List (Ref .port)) :
    g.tryServe m l (ports ++ later) = g.tryServe m l later := by
  induction ports with
  | nil => rfl
  | cons p ports ih =>
    rw [List.cons_append, tryServe, target?_of_ne (h p List.mem_cons_self)]
    exact ih fun r hr => h r (List.mem_cons_of_mem p hr)

theorem tryServe_of_ne (m : Value) {l : PortLabel} {ports : List (Ref .port)}
    (h : ∀ p ∈ ports, (g.port p).label ≠ l) : g.tryServe m l ports = (g, [], true) := by
  have hserve := tryServe_append m h []
  rw [List.append_nil] at hserve
  exact hserve

/-- Only the target of the label is offered the message. -/
theorem Target.tryServe {n : Ref .node} {l : PortLabel} {q : Ref .queue} (h : g.Target n l q)
    (m : Value) : g.tryServe m l (g.portsOf n .input) = g.tryPush q m := by
  obtain ⟨before, i, later, hports, hbefore, hlater, htarget⟩ := h.split
  have hrest : (g.tryPush q m).1.tryServe m l later = ((g.tryPush q m).1, [], true) := by
    refine tryServe_of_ne m fun r hr => ?_
    rw [port, tryPush_ports]
    exact hlater r hr
  rw [hports, tryServe_append m hbefore, Graph.tryServe, htarget]
  simp only [hrest, List.append_nil, Bool.and_true]

theorem Target.serve {n : Ref .node} {l : PortLabel} {q : Ref .queue} (h : g.Target n l q)
    (hroom : (g.queue q).isFull = false) (m : Value) :
    g.serve m l (g.portsOf n .input) = ((g.tryPush q m).1, [], none) := by
  obtain ⟨before, i, later, hports, hbefore, hlater, htarget⟩ := h.split
  have hrest : (g.tryPush q m).1.serve m l later = ((g.tryPush q m).1, [], none) := by
    refine serve_of_ne m fun r hr => ?_
    rw [port, tryPush_ports]
    exact hlater r hr
  rw [hports, serve_append m hbefore, Graph.serve, htarget]
  simp only [push_of_room hroom, hrest, List.append_nil]

/-! ## The connections of an output -/

section Connections

variable {m : Value} {p : Ref .pipeline} {cs : List Connection} {qs : List (Ref .queue)}

/-- All queues get their offer, those behind a full one too. -/
theorem tryServeAll_offered (hfeeds : List.Forall₂ (g.Feeds p) cs qs) (hnodup : qs.Nodup)
    (hhas : ∀ q ∈ qs, g.queues.Has q) :
    ∃ g' sent, g.tryServeAll m p cs = (g', g.rejections qs, sent) ∧ g.Offered m qs g' ∧
      (sent = true ↔ ∀ q ∈ qs, (g.queue q).isFull = false) := by
  induction qs generalizing g cs with
  | nil =>
    cases hfeeds
    exact ⟨g, true, rfl, .refl g m, iff_of_true rfl nofun⟩
  | cons q qs ih =>
    cases hfeeds with
    | @cons c _ cs _ hfeed hfeeds =>
      obtain ⟨hq, hnodup⟩ := List.nodup_cons.mp hnodup
      obtain ⟨n, hn, htarget⟩ := hfeed
      have hoffer := tryPush_offered (hhas q List.mem_cons_self) m
      obtain ⟨g'', sent, hrest, hoffered, hsent⟩ := ih (hfeeds.imp fun _ _ => hoffer.feeds) hnodup
        fun r hr => hoffer.has (hhas r (List.mem_cons_of_mem q hr))
      -- The queues that come later are still as they were when the delivery began.
      have hsame : ∀ r ∈ qs, (g.tryPush q m).1.queue r = g.queue r := fun r hr =>
        tryPush_others (ne_of_mem_of_not_mem hr hq) m
      rw [rejections_congr hsame] at hrest
      rw [forall₂_congr fun r hr => by rw [hsame r hr]] at hsent
      refine ⟨g'', (g.tryPush q m).2.2 && sent, ?_, hoffer.cons hoffered hq, ?_⟩
      · simp only [tryServeAll, hn, htarget.tryServe, hrest, rejections_cons q m]
      · rw [Bool.and_eq_true, hsent, List.forall_mem_cons, tryPush_sent]

/-- If no queue is full, a delivery that may wait comes to its end at once and does the same. -/
theorem serveAll_of_room (hfeeds : List.Forall₂ (g.Feeds p) cs qs) (hnodup : qs.Nodup)
    (hhas : ∀ q ∈ qs, g.queues.Has q) (hroom : ∀ q ∈ qs, (g.queue q).isFull = false) :
    g.serveAll m p cs = { graph := (g.tryServeAll m p cs).1 } := by
  induction qs generalizing g cs with
  | nil =>
    cases hfeeds
    rfl
  | cons q qs ih =>
    cases hfeeds with
    | @cons c _ cs _ hfeed hfeeds =>
      obtain ⟨hq, hnodup⟩ := List.nodup_cons.mp hnodup
      obtain ⟨n, hn, htarget⟩ := hfeed
      have hoffer := tryPush_offered (hhas q List.mem_cons_self) m
      have hrest := ih (hfeeds.imp fun _ _ => hoffer.feeds) hnodup
        (fun r hr => hoffer.has (hhas r (List.mem_cons_of_mem q hr))) fun r hr => by
          rw [tryPush_others (ne_of_mem_of_not_mem hr hq)]
          exact hroom r (List.mem_cons_of_mem q hr)
      simp only [serveAll, tryServeAll, hn, htarget.tryServe,
        htarget.serve (hroom q List.mem_cons_self), hrest, List.append_nil]

end Connections

/-! ## The queues of an output -/

theorem Placed.inputQueue_of_target {h : History} (hp : Placed g h) {p : Ref .pipeline}
    {c : Connection} (hc : ∃ o i, .linked o i c ∈ h.of p) {m : Ref .node}
    (hm : (g.pipeline p).node? c.inputId = some m) {q : Ref .queue} (hq : g.Target m c.input q) :
    g.InputQueue m q := by
  obtain ⟨o, i, hlink⟩ := hc
  obtain ⟨m', q', hcreated, hmem, hlabel, -⟩ := (hp.valid.spells p o i c hlink).input
  have hcreated' := (hp.valid.recorded p).created_of_node? hm
  rw [hcreated'] at hcreated
  cases hcreated
  rw [hp.homed.input p o i c hlink, Option.some.injEq] at hcreated'
  obtain ⟨i', hfilter, hqueue⟩ := hq
  rw [← hlabel, hp.valid.sound.filter_label hmem] at hfilter
  cases hfilter
  exact ⟨i, hp.valid.sound.has_of_mem hmem, hcreated', hqueue⟩

theorem Feeds.unique {p : Ref .pipeline} {c : Connection} {q r : Ref .queue} (hq : g.Feeds p c q)
    (hr : g.Feeds p c r) : q = r := by
  obtain ⟨n, hn, i, hfilter, hqueue⟩ := hq
  obtain ⟨n', hn', i', hfilter', hqueue'⟩ := hr
  rw [hn] at hn'
  cases hn'
  rw [hfilter] at hfilter'
  cases hfilter'
  rw [hqueue] at hqueue'
  cases hqueue'
  rfl

/-- Two inputs of a node that share a queue are one, since the newer one would be a copy. -/
theorem CopyFree.eq_of_queue (hfree : g.CopyFree) {n : Ref .node} (hn : g.nodes.Has n)
    {i j : Ref .port} (hi : i ∈ g.portsOf n .input) (hj : j ∈ g.portsOf n .input) {q : Ref .queue}
    (hqi : g.queueOf? i = some q) (hqj : g.queueOf? j = some q) : i = j := by
  have hrefs : n ∈ g.nodes.refs := List.mem_map.mpr ⟨n.index, List.mem_range.mpr hn, rfl⟩
  rcases Nat.lt_trichotomy i.index j.index with hlt | heq | hgt
  · exact absurd ⟨by rw [hqj]; rfl, i.index, hlt, hqi.trans hqj.symm⟩ (hfree n hrefs j hj)
  · exact congrArg Ref.mk heq
  · exact absurd ⟨by rw [hqi]; rfl, j.index, hgt, hqj.trans hqi.symm⟩ (hfree n hrefs i hi)

section Outputs

variable {h : History} {p : Ref .pipeline}

theorem Valid.exists_feeds (hv : Valid g h) {c : Connection}
    (hc : c ∈ (g.pipeline p).connections) : ∃ q, g.Feeds p c q ∧ g.queues.Has q := by
  obtain ⟨-, n, -, hn⟩ := hv.attached p c hc
  obtain ⟨-, -, -, q, -, -, -, hq, htarget⟩ := hv.target (hv.link_of_mem hc) hn
  exact ⟨q, ⟨n, hn, htarget⟩, hq⟩

/-- A queue is fed by one connection of an output only: it belongs to one input of one node. -/
theorem Placed.feeds_injective (hp : Placed g h) (hfree : g.CopyFree) {o : Ref .port}
    {c d : Connection} (hc : c ∈ g.connectionsFrom p o) (hd : d ∈ g.connectionsFrom p o)
    {q : Ref .queue} (hcq : g.Feeds p c q) (hdq : g.Feeds p d q) : c = d := by
  obtain ⟨n, hn, hntarget⟩ := hcq
  obtain ⟨k, hk, hktarget⟩ := hdq
  obtain ⟨hcmem, hcout⟩ := List.mem_filter.mp hc
  obtain ⟨hdmem, hdout⟩ := List.mem_filter.mp hd
  rw [Bool.and_eq_true, decide_eq_true_eq, decide_eq_true_eq] at hcout hdout
  have hnk : n = k := hp.apart n k q
    (hp.inputQueue_of_target (hp.valid.link_of_mem hcmem) hn hntarget)
    (hp.inputQueue_of_target (hp.valid.link_of_mem hdmem) hk hktarget)
  subst hnk
  have hhas := ((hp.valid.recorded p).ids _ n ((hp.valid.recorded p).created_of_node? hn)).1
  obtain ⟨i, hi, hiqueue⟩ := hntarget
  obtain ⟨j, hj, hjqueue⟩ := hktarget
  obtain ⟨himem, hilabel⟩ := List.mem_filter.mp (hi ▸ List.mem_singleton_self i)
  obtain ⟨hjmem, hjlabel⟩ := List.mem_filter.mp (hj ▸ List.mem_singleton_self j)
  rw [decide_eq_true_eq] at hilabel hjlabel
  have hij := hfree.eq_of_queue hhas himem hjmem hiqueue hjqueue
  subst hij
  have hid : c.inputId = d.inputId :=
    (hp.valid.id_of_node? hn).symm.trans (hp.valid.id_of_node? hk)
  cases c
  cases d
  simp_all

/-- The queues of an output, one for each connection. -/
theorem Placed.exists_queues (hp : Placed g h) (hfree : g.CopyFree) (o : Ref .port) :
    ∃ qs, List.Forall₂ (g.Feeds p) (g.connectionsFrom p o) qs ∧ qs.Nodup ∧
      ∀ q ∈ qs, g.queues.Has q := by
  let Leads (c : Connection) (q : Ref .queue) : Prop :=
    c ∈ g.connectionsFrom p o ∧ g.Feeds p c q
  have hall : ∀ cs, (∀ c ∈ cs, c ∈ g.connectionsFrom p o) →
      ∃ qs, List.Forall₂ Leads cs qs ∧ ∀ q ∈ qs, g.queues.Has q := by
    intro cs
    induction cs with
    | nil => exact fun _ => ⟨[], .nil, nofun⟩
    | cons c cs ih =>
      intro hcs
      have hc := hcs c List.mem_cons_self
      obtain ⟨qs, hqs, hhas⟩ := ih fun d hd => hcs d (List.mem_cons_of_mem c hd)
      obtain ⟨q, hq, hhasq⟩ := hp.valid.exists_feeds (List.mem_of_mem_filter hc)
      exact ⟨q :: qs, .cons ⟨hc, hq⟩ hqs, List.forall_mem_cons.mpr ⟨hhasq, hhas⟩⟩
  have hunique : Relator.BiUnique Leads :=
    ⟨fun c q d hc hd => hp.feeds_injective hfree hc.1 hd.1 hc.2 hd.2,
      fun c q r hq hr => hq.2.unique hr.2⟩
  obtain ⟨qs, hqs, hhas⟩ := hall _ fun c hc => hc
  have hnodup : (g.connectionsFrom p o).Nodup := (hp.valid.recorded p).connections_nodup.filter _
  exact ⟨qs, hqs.imp fun _ _ hc => hc.2, (List.rel_nodup hunique hqs).mp hnodup, hhas⟩

end Outputs

/-! ## Runs -/

theorem tryDeliver_eq_ok {o : Ref .port} {p : Ref .pipeline} (ho : g.pipelineOf? o = some p)
    (m : Value) : g.tryDeliver o m = .ok (g.tryServeAll m p (g.connectionsFrom p o)) := by
  rw [tryDeliver, pipelineOf_eq_ok ho]
  rfl

/-- What an attempt to send a message from an output does. It ends at once. Its connections lead to
one queue each, the message is offered to all of these, and those that turn it away are named in the
order of the connections. The answer is yes if none of them was full, and then sending in the way that
may wait has the same result. Without connections nothing changes. -/
structure Attempted (g : Graph) (p : Ref .pipeline) (o : Ref .port) (m : Value)
    (cs : List Connection) (qs : List (Ref .queue)) (g' : Graph) (sent : Bool) : Prop where
  connections : g.connectionsOf o = .ok cs
  feeds : List.Forall₂ (g.Feeds p) cs qs
  distinct : qs.Nodup
  result : g.tryDeliver o m = .ok (g', g.rejections qs, sent)
  offered : g.Offered m qs g'
  sent_iff : sent = true ↔ ∀ q ∈ qs, (g.queue q).isFull = false
  idle : cs = [] → g' = g ∧ sent = true
  same : sent = true → g.deliver o m = .ok { graph := g' }

/-- In every graph that a run reaches and that has no copies among the inputs of nodes, an output
whose node and pipeline still exist offers its message to all its queues without waiting, and any
other output is refused, as it is when it sends in the way that may wait. -/
theorem run_tryDeliver_offered {h : History} (hrun : Run g h) (hfree : g.CopyFree) (o : Ref .port)
    (m : Value) :
    (∀ p, g.pipelineOf? o = some p → ∃ cs qs g' sent, g.Attempted p o m cs qs g' sent) ∧
      (g.pipelineOf? o = none →
        ∃ fault, g.tryDeliver o m = .error fault ∧ g.deliver o m = .error fault) := by
  refine ⟨fun p ho => ?_, fun ho => ?_⟩
  · obtain ⟨qs, hfeeds, hnodup, hhas⟩ := hrun.placed.exists_queues hfree o
    obtain ⟨g', sent, hserve, hoffered, hsent⟩ := tryServeAll_offered (m := m) hfeeds hnodup hhas
    refine ⟨_, qs, g', sent, connectionsOf_eq_ok ho, hfeeds, hnodup, ?_, hoffered, hsent,
      fun hnil => ?_, fun hyes => ?_⟩
    · rw [tryDeliver_eq_ok ho, hserve]
    · rw [hnil] at hserve
      exact ⟨(congrArg Prod.fst hserve).symm, (congrArg (fun r => r.2.2) hserve).symm⟩
    · rw [deliver_eq_ok ho, serveAll_of_room hfeeds hnodup hhas (hsent.mp hyes), hserve]
  · cases hhome : g.pipelineOf o with
    | ok p =>
      rw [pipelineOf_eq_ok_iff, ho] at hhome
      cases hhome
    | error fault =>
      refine ⟨fault, ?_, ?_⟩
      · rw [tryDeliver, hhome]
        rfl
      · rw [deliver, hhome]
        rfl

/-- The first queue is full and turns the message away, the second one gets it. -/
theorem fullTarget_tryDeliver :
    let g := (Operation.afterAll ({}, []) fullTarget).1
    ∃ g', g.tryDeliver ⟨1⟩ (.int 2) = .ok (g', [rejectedRecord "input"], false) ∧
      g'.queue ⟨1⟩ = g.queue ⟨1⟩ ∧
      g'.queue ⟨2⟩ = { g.queue ⟨2⟩ with items := (g.queue ⟨2⟩).items ++ [.int 2] } := by
  intro g
  have hpipeline : g.pipelineOf? ⟨1⟩ = some ⟨0⟩ := by decide +kernel
  obtain ⟨cs, qs, g', sent, ha⟩ :=
    (run_tryDeliver_offered run_fullTarget (by decide +kernel) ⟨1⟩ (.int 2)).1 ⟨0⟩ hpipeline
  have hfirst : g.Feeds ⟨0⟩ ⟨0, ⟨"", "output"⟩, 1, ⟨"", "input"⟩⟩ ⟨1⟩ :=
    ⟨⟨1⟩, by decide +kernel, ⟨2⟩, by decide +kernel, by decide +kernel⟩
  have hsecond : g.Feeds ⟨0⟩ ⟨0, ⟨"", "output"⟩, 2, ⟨"", "input"⟩⟩ ⟨2⟩ :=
    ⟨⟨2⟩, by decide +kernel, ⟨4⟩, by decide +kernel, by decide +kernel⟩
  have hcs : g.connectionsFrom ⟨0⟩ ⟨1⟩ =
      [⟨0, ⟨"", "output"⟩, 1, ⟨"", "input"⟩⟩, ⟨0, ⟨"", "output"⟩, 2, ⟨"", "input"⟩⟩] := by
    decide +kernel
  have hconnections := ha.connections
  rw [connectionsOf_eq_ok hpipeline, hcs, Except.ok.injEq] at hconnections
  have hfeeds := ha.feeds
  rw [← hconnections] at hfeeds
  obtain ⟨q, qs', hq, hrest, rfl⟩ := List.forall₂_cons_left_iff.mp hfeeds
  obtain ⟨r, qs'', hr, hnil, rfl⟩ := List.forall₂_cons_left_iff.mp hrest
  rw [List.forall₂_nil_left_iff.mp hnil, hq.unique hfirst, hr.unique hsecond] at ha
  have hno : sent = false := by
    rw [← Bool.not_eq_true, ha.sent_iff]
    decide +kernel
  have hrecords : g.rejections [⟨1⟩, ⟨2⟩] = [rejectedRecord "input"] := by decide +kernel
  refine ⟨g', ?_, ha.offered.full ⟨1⟩ ?_ ?_, ha.offered.stored ⟨2⟩ ?_ ?_⟩
  · rw [ha.result, hno, hrecords]
  all_goals decide +kernel

end FrameGraph.Graph
