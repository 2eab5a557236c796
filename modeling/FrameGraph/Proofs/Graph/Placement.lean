import FrameGraph.Proofs.Graph.Validity

/-!
# Places of nodes, ports and queues

Nodes stay in the pipeline they were made for and ports on their nodes, and every input has a queue
of its own, which only copies on the same node share. A connection therefore leads from one node to
another however ports were registered: both its ports belong to the nodes that its ids name.

* `Homed`: nodes and linked ports are where their connections say.
* `InputQueue`, `Apart`: queues belong to the inputs of one node.
* `Placed`, `Run.placed`: all this holds along every run.
-/

namespace FrameGraph.Graph

variable {g g' : Graph} {n : Ref .node}

/-! ## Nodes and linked ports -/

theorem Noted.port_eq {p : Ref .pipeline} {e : Event} (hn : g.Noted p e g') (q : Ref .port) :
    g'.port q = g.port q := by
  cases hn <;> rfl

/-- Nodes that were created belong to their pipeline, and linked ports to the nodes whose ids are in
the record. -/
structure Homed (g : Graph) (h : History) : Prop where
  node : ∀ p, ∀ n ∈ created (h.of p), (g.node n).pipeline = p
  output : ∀ p o i c, .linked o i c ∈ h.of p →
    (created (h.of p))[c.outputId]? = some (g.port o).node
  input : ∀ p o i c, .linked o i c ∈ h.of p →
    (created (h.of p))[c.inputId]? = some (g.port i).node

theorem Homed.empty : Homed {} [] := ⟨nofun, nofun, nofun⟩

theorem Valid.has_of_linked {h : History} (hv : Valid g h) {p : Ref .pipeline} {o i : Ref .port}
    {c : Connection} (hc : .linked o i c ∈ h.of p) : g.ports.Has o ∧ g.ports.Has i := by
  obtain ⟨⟨no, -, ho, -⟩, ⟨ni, q, -, hi, -⟩⟩ := hv.spells p o i c hc
  exact ⟨hv.sound.has_of_mem ho, hv.sound.has_of_mem hi⟩

theorem Homed.move {h : History} (hh : Homed g h) (hv : Valid g h) (hm : g.Move g') :
    Homed g' h where
  node p n hn := by
    obtain ⟨k, hk⟩ := List.mem_iff_getElem?.mp hn
    obtain ⟨hhas, -⟩ := (hv.recorded p).ids k n hk
    obtain ⟨-, -, hhome⟩ := hm.kept.nodes n hhas
    exact hhome.trans (hh.node p n hn)
  output p o i c hc := by
    rw [(hm.kept.ports o (hv.has_of_linked hc).1).2]
    exact hh.output p o i c hc
  input p o i c hc := by
    rw [(hm.kept.ports i (hv.has_of_linked hc).2).2]
    exact hh.input p o i c hc

theorem Homed.noted {h : History} (hh : Homed g h) (hv : Valid g h) {q : Ref .pipeline} {e : Event}
    (hn : g.Noted q e g') : Homed g' (h ++ [(q, e)]) := by
  -- A link that is in the history afterwards was there before, or is the one that is noted.
  have hlink : ∀ p o i c, .linked o i c ∈ History.of (h ++ [(q, e)]) p →
      (created (h.of p))[c.outputId]? = some (g.port o).node ∧
        (created (h.of p))[c.inputId]? = some (g.port i).node := by
    intro p o i c hc
    rw [History.of_append] at hc
    rcases List.mem_append.mp hc with hc | hc
    · exact ⟨hh.output p o i c hc, hh.input p o i c hc⟩
    · split at hc
      · next hqp =>
        cases List.mem_singleton.mp hc
        subst hqp
        cases hn with
        | linked _ _ _ _ hc homember _ himember _ _ _ =>
          have hr := hv.recorded q
          rw [isMember, decide_eq_true_eq] at homember himember
          subst hc
          exact ⟨hr.created_of_node? homember, hr.created_of_node? himember⟩
      · cases hc
  refine ⟨fun p n hmem => ?_, fun p o i c hc => ?_, fun p o i c hc => ?_⟩
  · rw [Graph.node, hn.nodes_eq]
    rw [History.of_append, created_append] at hmem
    rcases List.mem_append.mp hmem with hold | hnew
    · exact hh.node p n hold
    · by_cases hqp : q = p
      · rw [if_pos hqp] at hnew
        subst hqp
        cases hn with
        | created n' _ _ _ hhome =>
          cases List.mem_singleton.mp hnew
          exact hhome
        | removed | linked | unlinked => cases hnew
      · rw [if_neg hqp] at hnew
        cases hnew
  · rw [History.of_append, hn.port_eq]
    exact getElem?_created_append (hlink p o i c hc).1 _
  · rw [History.of_append, hn.port_eq]
    exact getElem?_created_append (hlink p o i c hc).2 _

/-! ## Queues of nodes -/

/-- The queue is that of an input of the node. -/
def InputQueue (g : Graph) (n : Ref .node) (q : Ref .queue) : Prop :=
  ∃ i, g.ports.Has i ∧ (g.port i).node = n ∧ g.queueOf? i = some q

/-- Inputs of different nodes have different queues. -/
def Apart (g : Graph) : Prop :=
  ∀ n n' q, g.InputQueue n q → g.InputQueue n' q → n = n'

theorem InputQueue.move {q : Ref .queue} (h : g.InputQueue n q) (hm : g.Move g') :
    g'.InputQueue n q := by
  obtain ⟨i, hi, hnode, hqueue⟩ := h
  obtain ⟨hi', hqueue', -⟩ := hm.port_kept hi
  exact ⟨i, hi', (hm.kept.ports i hi).2.trans hnode, hqueue'.trans hqueue⟩

theorem InputQueue.moves {q : Ref .queue} (h : g.InputQueue n q) (hm : g.Moves g') :
    g'.InputQueue n q := by
  induction hm with
  | refl => exact h
  | tail _ hm ih => exact ih.move hm

theorem InputQueue.noted {q : Ref .queue} (h : g.InputQueue n q) {p : Ref .pipeline} {e : Event}
    (hn : g.Noted p e g') : g'.InputQueue n q := by
  cases hn <;> exact h

theorem InputQueue.after {q : Ref .queue} (h : g.InputQueue n q) {op : Operation}
    (hfits : op.Fits g) : (op.after g).InputQueue n q := by
  rcases op.moving hfits with ⟨-, hmoves⟩ | ⟨p, e, g₁, -, hmoves, hnoted⟩
  · exact h.moves hmoves
  · exact (h.moves hmoves).noted hnoted

theorem Apart.move (h : g.Apart) (hs : g.Sound) (hm : g.Move g') : g'.Apart := by
  -- A queue that is new belongs to the port that is new with it.
  have horigin : ∀ {n q}, g'.InputQueue n q → g.InputQueue n q ∨
      (q = ⟨g.queues.size⟩ ∧ (g'.port ⟨g.ports.size⟩).node = n) := by
    rintro n q ⟨i, hi, hnode, hqueue⟩
    rcases hm.queue_origin hi hqueue with ⟨r, hr, hqueue', hsame⟩ | ⟨rfl, hq, -⟩
    · exact Or.inl ⟨r, hr, hsame.trans hnode, hqueue'⟩
    · exact Or.inr ⟨hq, hnode⟩
  have hnew : ∀ {n}, ¬g.InputQueue n ⟨g.queues.size⟩ := by
    rintro n ⟨i, hi, -, hqueue⟩
    exact absurd (hs.input i hi _ hqueue) (Nat.lt_irrefl _)
  intro n n' q hn hn'
  rcases horigin hn with hold | ⟨rfl, hnode⟩
  · rcases horigin hn' with hold' | ⟨rfl, -⟩
    · exact h n n' q hold hold'
    · exact absurd hold hnew
  · rcases horigin hn' with hold' | ⟨-, hnode'⟩
    · exact absurd hold' hnew
    · exact hnode.symm.trans hnode'

/-! ## Along runs -/

/-- Connections, ports and queues are where they belong. -/
structure Placed (g : Graph) (h : History) : Prop where
  valid : Valid g h
  homed : Homed g h
  apart : g.Apart

theorem Placed.move {h : History} (hp : Placed g h) (hm : g.Move g') : Placed g' h :=
  ⟨hp.valid.move hm, hp.homed.move hp.valid hm, hp.apart.move hp.valid.sound hm⟩

theorem Placed.moves {h : History} (hp : Placed g h) (hm : g.Moves g') : Placed g' h := by
  induction hm with
  | refl => exact hp
  | tail _ hm ih => exact ih.move hm

theorem Placed.noted {h : History} (hp : Placed g h) {p : Ref .pipeline} {e : Event}
    (hn : g.Noted p e g') : Placed g' (h ++ [(p, e)]) := by
  refine ⟨hp.valid.noted hn, hp.homed.noted hp.valid hn, ?_⟩
  cases hn <;> exact hp.apart

theorem Placed.empty : Placed {} [] := by
  refine ⟨.empty, .empty, ?_⟩
  rintro n n' q ⟨i, hi, -⟩
  exact absurd hi (Nat.not_lt_zero _)

theorem Run.placed {h : History} (hrun : Run g h) : Placed g h :=
  hrun.induct (P := Placed) .empty (fun hp hm => hp.move hm) fun hp hn => hp.noted hn

theorem Run.homed {h : History} (hrun : Run g h) : Homed g h := hrun.placed.homed

end FrameGraph.Graph
