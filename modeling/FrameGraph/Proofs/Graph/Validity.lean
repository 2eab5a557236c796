import FrameGraph.Proofs.Graph.History
import FrameGraph.Proofs.Graph.Identity

/-!
# Connections name what exists

A connection is a record of two ids and two labels, and nothing else ties it to nodes and ports. In
every run the ids are those of nodes in the pipeline, and under the labels these nodes have exactly
the two ports that were linked.

* `Graph.Valid`: the invariant, `Run.valid`: it holds along every run.
* `run_connections_valid`: what it says about connections, and about the description of a pipeline.
-/

namespace FrameGraph.Graph

variable {g g' : Graph}

/-- The ports of a link are what its record says, on the nodes that were created with its ids. -/
structure Spells (g : Graph) (es : List Event) (o i : Ref .port) (c : Connection) : Prop where
  output : ∃ n, (created es)[c.outputId]? = some n ∧ o ∈ g.portsOf n .output ∧
    (g.port o).label = c.output
  input : ∃ n q, (created es)[c.inputId]? = some n ∧ i ∈ g.portsOf n .input ∧
    (g.port i).label = c.input ∧ g.queueOf? i = some q

/-- Both ends of a connection are nodes of the pipeline. -/
def Attached (pipeline : Pipeline) (c : Connection) : Prop :=
  ∃ no ni, pipeline.node? c.outputId = some no ∧ pipeline.node? c.inputId = some ni

structure Valid (g : Graph) (h : History) : Prop where
  sound : g.Sound
  recorded : ∀ p, g.Recorded p (h.of p)
  spells : ∀ p o i c, .linked o i c ∈ h.of p → g.Spells (h.of p) o i c
  attached : ∀ p, ∀ c ∈ (g.pipeline p).connections, Attached (g.pipeline p) c

theorem Spells.extend {es es' : List Event} {o i : Ref .port} {c : Connection}
    (h : g.Spells es o i c) (hg : g.Extends g') : g'.Spells (es ++ es') o i c := by
  obtain ⟨⟨no, ho, homem, holabel⟩, ⟨ni, q, hi, himem, hilabel, hqueue⟩⟩ := h
  obtain ⟨homem', holabel', -⟩ := hg no .output o homem
  obtain ⟨himem', hilabel', hqueue'⟩ := hg ni .input i himem
  exact ⟨⟨no, getElem?_created_append ho _, homem', holabel'.trans holabel⟩,
    ⟨ni, q, getElem?_created_append hi _, himem', hilabel'.trans hilabel, hqueue'.trans hqueue⟩⟩

/-! ## The ends of connections -/

namespace Attached

variable {pipeline : Pipeline} {c : Connection}

theorem of_nodes {pipeline' : Pipeline} (h : Attached pipeline c)
    (hnodes : pipeline'.nodes = pipeline.nodes) : Attached pipeline' c := by
  obtain ⟨no, ni, ho, hi⟩ := h
  exact ⟨no, ni, by rw [Pipeline.node?, hnodes]; exact ho, by rw [Pipeline.node?, hnodes]; exact hi⟩

theorem append (h : Attached pipeline c) (id nextId : Nat) (n : Ref .node) :
    Attached { pipeline with nodes := pipeline.nodes ++ [(id, n)], nextId } c := by
  obtain ⟨no, ni, ho, hi⟩ := h
  refine ⟨no, ni, ?_, ?_⟩
  · rw [Pipeline.node?, List.lookup_append, show List.lookup _ _ = some no from ho]
    rfl
  · rw [Pipeline.node?, List.lookup_append, show List.lookup _ _ = some ni from hi]
    rfl

/-- A node that no end of the connection has as its id may go. -/
theorem filter (h : Attached pipeline c) (hnodup : (pipeline.nodes.map Prod.fst).Nodup) {id : Nat}
    (hc : c.touches id = false) (connections : List Connection) :
    Attached { pipeline with nodes := pipeline.nodes.filter fun e => e.1 ≠ id, connections } c := by
  have hkeep : ∀ {k : Nat} {n : Ref .node}, k ≠ id → pipeline.node? k = some n →
      (pipeline.nodes.filter fun e => e.1 ≠ id).lookup k = some n := by
    intro k n hk hn
    apply lookup_eq_some_of_mem
    · exact hnodup.sublist (List.filter_sublist.map Prod.fst)
    · exact List.mem_filter.mpr ⟨mem_of_lookup_eq_some hn, decide_eq_true hk⟩
  obtain ⟨no, ni, ho, hi⟩ := h
  rw [Connection.touches, Bool.or_eq_false_iff, decide_eq_false_iff_not,
    decide_eq_false_iff_not] at hc
  exact ⟨no, ni, hkeep hc.1 ho, hkeep hc.2 hi⟩

end Attached

/-! ## The invariant along runs -/

theorem Valid.empty : Valid {} [] where
  sound := .empty
  recorded _ := ⟨rfl, rfl, rfl, nofun⟩
  spells _ _ _ _ hc := nomatch hc
  attached _ _ hc := nomatch hc

theorem Valid.move {h : History} (hv : Valid g h) (hm : g.Move g') : Valid g' h where
  sound := hv.sound.move hm
  recorded p := (hv.recorded p).kept hm.kept
  spells p o i c hc := by
    rw [← List.append_nil (h.of p)]
    exact (hv.spells p o i c hc).extend (hv.sound.extends_move hm)
  attached p c hc := by
    have hbooks := hm.kept.books p
    rw [hbooks.connections] at hc
    exact (hv.attached p c hc).of_nodes hbooks.nodes

/-- The registered ports of members spell the record that is made of them. -/
theorem Valid.spells_linked {h : History} (hv : Valid g h) {p : Ref .pipeline} {o i : Ref .port}
    {c : Connection} (hn : g.Noted p (.linked o i c) g') : g.Spells (h.of p) o i c := by
  cases hn with
  | linked _ _ _ _ hc homember ho himember hi hinput _ =>
    have hr := hv.recorded p
    rw [isMember, decide_eq_true_eq] at homember himember
    obtain ⟨details, hdetails⟩ := Option.isSome_iff_exists.mp hinput
    subst hc
    refine ⟨⟨_, hr.created_of_node? homember, mem_of_port? ho, rfl⟩,
      ⟨_, details.queue, hr.created_of_node? himember, mem_of_port? hi, rfl, ?_⟩⟩
    rw [queueOf?, hdetails]
    rfl

theorem Valid.attached_noted {h : History} (hv : Valid g h) {p : Ref .pipeline} {e : Event}
    (hn : g.Noted p e g') : ∀ c ∈ (g'.pipeline p).connections, Attached (g'.pipeline p) c := by
  have hold := hv.attached p
  intro c hc
  cases hn with
  | created n hp _ _ _ =>
    rw [pipeline_modifyPipeline_self hp] at hc ⊢
    exact (hold c hc).append _ _ _
  | removed n hp _ =>
    rw [pipeline_modifyPipeline_self hp] at hc ⊢
    obtain ⟨hc, htouches⟩ := List.mem_filter.mp hc
    exact (hold c hc).filter (hv.recorded p).ids_nodup (by simpa using htouches) _
  | linked o i d hp hd homember _ himember _ _ _ =>
    rw [pipeline_modifyPipeline_self hp] at hc ⊢
    rcases List.mem_append.mp hc with hc | hc
    · exact (hold c hc).of_nodes rfl
    · rw [List.mem_singleton.mp hc, hd]
      rw [isMember, decide_eq_true_eq] at homember himember
      exact ⟨_, _, homember, himember⟩
  | unlinked d hp _ =>
    rw [pipeline_modifyPipeline_self hp] at hc ⊢
    exact (hold c (List.mem_of_mem_erase hc)).of_nodes rfl

theorem Valid.noted {h : History} (hv : Valid g h) {q : Ref .pipeline} {e : Event}
    (hn : g.Noted q e g') : Valid g' (h ++ [(q, e)]) where
  sound := hv.sound.noted hn
  recorded p := Recorded.noted_all hv.recorded hn p
  spells p o i c hc := by
    rw [History.of_append] at hc ⊢
    rcases List.mem_append.mp hc with hc | hc
    · exact (hv.spells p o i c hc).extend hn.extends
    · by_cases hqp : q = p
      · subst hqp
        rw [if_pos rfl] at hc ⊢
        cases List.mem_singleton.mp hc
        exact (hv.spells_linked hn).extend hn.extends
      · rw [if_neg hqp] at hc
        cases hc
  attached p c hc := by
    by_cases hqp : q = p
    · subst hqp
      exact hv.attached_noted hn c hc
    · rw [hn.pipeline_of_ne hqp] at hc ⊢
      exact hv.attached p c hc

theorem Run.valid {h : History} (hrun : Run g h) : Valid g h :=
  hrun.induct (P := Valid) .empty (fun hv hm => hv.move hm) fun hv hn => hv.noted hn

/-! ## The invariant across operations -/

/-- Listed ports, and queues, are still there. -/
structure Preserved (g g' : Graph) : Prop where
  listed : g.Extends g'
  queues : ∀ q, g.queues.Has q → g'.queues.Has q

theorem Preserved.trans {g'' : Graph} (h : g.Preserved g') (h' : g'.Preserved g'') :
    g.Preserved g'' :=
  ⟨h.listed.trans h'.listed, fun q hq => h'.queues q (h.queues q hq)⟩

theorem Valid.preserved_move {h : History} (hv : Valid g h) (hm : g.Move g') : g.Preserved g' :=
  ⟨hv.sound.extends_move hm, fun _ hq => hm.queues_kept hq⟩

theorem Noted.preserved {p : Ref .pipeline} {e : Event} (hn : g.Noted p e g') : g.Preserved g' := by
  refine ⟨hn.extends, fun q hq => ?_⟩
  cases hn <;> exact hq

theorem Valid.moves {h : History} (hv : Valid g h) (hm : g.Moves g') :
    Valid g' h ∧ g.Preserved g' := by
  induction hm with
  | refl => exact ⟨hv, .refl g, fun _ hq => hq⟩
  | tail _ hm ih =>
    obtain ⟨hv₁, hpreserved⟩ := ih
    exact ⟨hv₁.move hm, hpreserved.trans (hv₁.preserved_move hm)⟩

/-- An operation keeps the invariant and what is listed, and only adds to the history. -/
theorem Valid.after {h : History} (hv : Valid g h) {op : Operation} (hfits : op.Fits g) :
    Valid (op.after g) (h ++ (op.event? g).toList) ∧ g.Preserved (op.after g) := by
  rcases op.moving hfits with ⟨hnone, hmoves⟩ | ⟨p, e, g₁, hsome, hmoves, hnoted⟩
  · rw [hnone, Option.toList_none, List.append_nil]
    exact hv.moves hmoves
  · rw [hsome, Option.toList_some]
    obtain ⟨hv₁, hpreserved⟩ := hv.moves hmoves
    exact ⟨hv₁.noted hnoted, hpreserved.trans hnoted.preserved⟩

/-! ## Connections -/

theorem Valid.ports {h : History} (hv : Valid g h) {p : Ref .pipeline} {o i : Ref .port}
    {c : Connection} (hc : .linked o i c ∈ h.of p) {no ni : Ref .node}
    (ho : (g.pipeline p).node? c.outputId = some no) (hi : (g.pipeline p).node? c.inputId = some ni) :
    (o ∈ g.portsOf no .output ∧ (g.port o).label = c.output) ∧
      i ∈ g.portsOf ni .input ∧ (g.port i).label = c.input ∧ ∃ q, g.queueOf? i = some q := by
  obtain ⟨⟨no', hno, homem, holabel⟩, ⟨ni', q, hni, himem, hilabel, hqueue⟩⟩ :=
    hv.spells p o i c hc
  have hr := hv.recorded p
  rw [hr.created_of_node? ho] at hno
  rw [hr.created_of_node? hi] at hni
  cases hno
  cases hni
  exact ⟨⟨homem, holabel⟩, himem, hilabel, q, hqueue⟩

theorem Valid.link_of_mem {h : History} (hv : Valid g h) {p : Ref .pipeline} {c : Connection}
    (hc : c ∈ (g.pipeline p).connections) : ∃ o i, .linked o i c ∈ h.of p := by
  rw [(hv.recorded p).connections] at hc
  exact linked_of_mem_standing hc

theorem Valid.id_of_node? {h : History} (hv : Valid g h) {p : Ref .pipeline} {id : Nat}
    {n : Ref .node} (hn : (g.pipeline p).node? id = some n) : (g.node n).id = id :=
  ((hv.recorded p).ids id n ((hv.recorded p).created_of_node? hn)).2

/-- The description of a pipeline lists the node and the port at either end of a connection. -/
def Shown (view : PipelineView) (c : Connection) : Prop :=
  (∃ n ∈ view.nodes, n.id = c.outputId ∧ ∃ o ∈ n.outputs, o.label = c.output) ∧
    ∃ n ∈ view.nodes, n.id = c.inputId ∧ ∃ i ∈ n.inputs, i.label = c.input

theorem Valid.shown {h : History} (hv : Valid g h) {p : Ref .pipeline} {c : Connection}
    (hc : c ∈ (g.pipeline p).connections) : Shown (g.pipelineView p) c := by
  have hview : ∀ {id n}, (g.pipeline p).node? id = some n →
      g.nodeView n ∈ (g.pipelineView p).nodes := fun hn =>
    List.mem_map.mpr ⟨_, mem_of_lookup_eq_some hn, rfl⟩
  obtain ⟨no, ni, ho, hi⟩ := hv.attached p c hc
  obtain ⟨o, i, hlink⟩ := hv.link_of_mem hc
  obtain ⟨⟨homem, holabel⟩, himem, hilabel, q, hqueue⟩ := hv.ports hlink ho hi
  constructor
  · exact ⟨g.nodeView no, hview ho, hv.id_of_node? ho, g.outputView o, List.mem_map_of_mem homem,
      holabel⟩
  · obtain ⟨details, hdetails, -⟩ := Option.map_eq_some_iff.mp hqueue
    have hshown : g.inputView? i = some ⟨(g.port i).label, (g.port i).kindName, details.blocking,
        details.queueSize, details.wait⟩ := by
      rw [inputView?, hdetails]
      rfl
    exact ⟨g.nodeView ni, hview hi, hv.id_of_node? hi, _,
      List.mem_filterMap.mpr ⟨i, himem, hshown⟩, hilabel⟩

/-- No connection occurs twice. The ids of a connection are those of nodes in the pipeline, and under
its labels these nodes have exactly the ports that were linked. So the description of a pipeline lists
the ends of each connection it lists. -/
theorem run_connections_valid {h : History} (hrun : Run g h) (p : Ref .pipeline) :
    (g.pipeline p).connections.Nodup ∧
      (∀ c ∈ (g.pipeline p).connections, ∃ no ni,
        (g.pipeline p).node? c.outputId = some no ∧ (g.node no).id = c.outputId ∧
        (g.pipeline p).node? c.inputId = some ni ∧ (g.node ni).id = c.inputId ∧
        (∃ o i, .linked o i c ∈ h.of p) ∧
        ∀ o i, .linked o i c ∈ h.of p →
          g.port? no .output c.output = some o ∧ g.port? ni .input c.input = some i) ∧
      ∀ c ∈ (g.pipelineView p).connections, Shown (g.pipelineView p) c := by
  have hv := hrun.valid
  refine ⟨(hv.recorded p).connections_nodup, fun c hc => ?_, fun c hc => hv.shown hc⟩
  obtain ⟨no, ni, ho, hi⟩ := hv.attached p c hc
  refine ⟨no, ni, ho, hv.id_of_node? ho, hi, hv.id_of_node? hi, hv.link_of_mem hc, ?_⟩
  intro o i hlink
  obtain ⟨⟨homem, holabel⟩, himem, hilabel, -⟩ := hv.ports hlink ho hi
  rw [← holabel, ← hilabel]
  exact ⟨hv.sound.port?_of_mem homem, hv.sound.port?_of_mem himem⟩

theorem linkedTwice_connections_valid :
    ((Operation.afterAll ({}, []) linkedTwice).1.pipeline ⟨0⟩).connections.Nodup ∧
      ⟨0, ⟨"", "output"⟩, 1, ⟨"", "input"⟩⟩ ∈
        ((Operation.afterAll ({}, []) linkedTwice).1.pipeline ⟨0⟩).connections ∧
      (Operation.afterAll ({}, []) linkedTwice).1.port? ⟨0⟩ .output ⟨"", "output"⟩ = some ⟨1⟩ ∧
      (Operation.afterAll ({}, []) linkedTwice).1.port? ⟨1⟩ .input ⟨"", "input"⟩ = some ⟨2⟩ := by
  obtain ⟨hnodup, hports, -⟩ := run_connections_valid run_linkedTwice ⟨0⟩
  have hmem : ⟨0, ⟨"", "output"⟩, 1, ⟨"", "input"⟩⟩ ∈
      ((Operation.afterAll ({}, []) linkedTwice).1.pipeline ⟨0⟩).connections := by
    decide +kernel
  obtain ⟨no, ni, ho, -, hi, -, -, hlink⟩ := hports _ hmem
  have hno : some no = some ⟨0⟩ := ho.symm.trans (by decide +kernel)
  have hni : some ni = some ⟨1⟩ := hi.symm.trans (by decide +kernel)
  cases hno
  cases hni
  exact ⟨hnodup, hmem, hlink ⟨1⟩ ⟨2⟩ (by decide +kernel)⟩

end FrameGraph.Graph
