import FrameGraph.Proofs.Graph.Operation
import Mathlib.Data.List.Nodup
import Mathlib.Logic.Relation

/-!
# Moves

A graph changes in small steps. A move adds a row, lists a port, or changes a queue or settings, and
leaves the nodes, the next id and the connections of every pipeline alone. A noted change is what a
history knows: a node is created or removed, a connection is linked or unlinked.

* `Graph.Move`, `Graph.Noted`: the steps, each with the conditions under which it is made.
* `Moves.kept`: pipelines, nodes and ports stay what they were through any number of moves.
-/

namespace FrameGraph

/-- The list of nodes, the next id and the connections agree. -/
structure Pipeline.SameBooks (a b : Pipeline) : Prop where
  nodes : a.nodes = b.nodes
  nextId : a.nextId = b.nextId
  connections : a.connections = b.connections

namespace Graph

inductive Move (g : Graph) : Graph → Prop where
  | pipeline (name : Value) (logName : String) :
      Move g { g with pipelines := (g.pipelines.push { name, logName }).1 }
  | node (node : Node) : node.outputs = {} → node.inputs = {} →
      Move g { g with nodes := (g.nodes.push node).1 }
  /-- A new port is no input, or shares its queue with a port of the same node. -/
  | port (port : Port) :
      (∀ i, port.input? = some i →
        ∃ p, g.ports.Has p ∧ g.queueOf? p = some i.queue ∧ (g.port p).node = port.node) →
      Move g { g with ports := (g.ports.push port).1 }
  /-- A new input gets a new queue of its own. -/
  | input (queue : Queue Value) (port : Port) : queue.Roomy →
      port.input?.map Input.queue = some (g.queues.push queue).2 →
      Move g { g with queues := (g.queues.push queue).1, ports := (g.ports.push port).1 }
  | portMap (portMap : PortMap) : portMap.entries = [] →
      Move g { g with portMaps := (g.portMaps.push portMap).1 }
  | queue (queue : Queue Value) : queue.Roomy → Move g { g with queues := (g.queues.push queue).1 }
  | entry (m : Ref .portMap) (key : String) (p : Ref .port) : g.portMaps.Has m → g.ports.Has p →
      (g.port p).label = ⟨(g.portMap m).name, key⟩ → (g.portMap m).get? key = none →
      Move g { g with portMaps := g.portMaps.modify m fun portMap => portMap.add key p }
  | registerPort (n : Ref .node) (d : Direction) (p : Ref .port) (r : Registry) : g.ports.Has p →
      ((g.node n).registry d).addPort (g.port p).label p = .ok r →
      Move g (g.modifyNode n fun node => node.setRegistry d r)
  | registerMap (n : Ref .node) (d : Direction) (m : Ref .portMap) (r : Registry) :
      g.portMaps.Has m → ((g.node n).registry d).addMap (g.portMap m).name m = .ok r →
      Move g (g.modifyNode n fun node => node.setRegistry d r)
  | changePort (p : Ref .port) (f : Port → Port) :
      (f (g.port p)).input?.map Input.queue = (g.port p).input?.map Input.queue →
      (f (g.port p)).node = (g.port p).node →
      (g.Unlisted p ∨ (f (g.port p)).label = (g.port p).label) → Move g (g.modifyPort p f)
  | setQueue (q : Ref .queue) (queue : Queue Value) : ((g.queue q).Roomy → queue.Roomy) →
      Move g (g.setQueue q queue)
  | changePipeline (p : Ref .pipeline) (f : Pipeline → Pipeline) :
      (∀ pipeline, (f pipeline).SameBooks pipeline) → Move g (g.modifyPipeline p f)
  | changeNode (n : Ref .node) (f : Node → Node) :
      (∀ node, (f node).id = node.id ∧ (f node).pipeline = node.pipeline ∧
        ∀ d, (f node).registry d = node.registry d) →
      Move g (g.modifyNode n f)
  | aside (messages : Messages) (shelves : Table .shelf Shelf) :
      Move g { g with messages, shelves }

abbrev Moves : Graph → Graph → Prop := Relation.ReflTransGen Move

theorem Move.single {g g' : Graph} (h : g.Move g') : g.Moves g' := Relation.ReflTransGen.single h

/-- The changes that are noted in the history of a pipeline. -/
inductive Noted (g : Graph) (p : Ref .pipeline) : Event → Graph → Prop where
  | created (n : Ref .node) : g.pipelines.Has p → g.nodes.Has n →
      (g.node n).id = (g.pipeline p).nextId → (g.node n).pipeline = p →
      Noted g p (.created n) (g.modifyPipeline p fun pipeline =>
        { pipeline with
          nodes := pipeline.nodes ++ [((g.pipeline p).nextId, n)]
          nextId := (g.pipeline p).nextId + 1 })
  | removed (n : Ref .node) : g.pipelines.Has p → g.isMember p n = true →
      Noted g p (.removed n (g.node n).id) (g.modifyPipeline p fun pipeline =>
        { pipeline with
          nodes := pipeline.nodes.filter fun e => e.1 ≠ (g.node n).id
          connections := pipeline.connections.filter fun c => !c.touches (g.node n).id })
  | linked (o i : Ref .port) (c : Connection) : g.pipelines.Has p →
      c = ⟨(g.node (g.port o).node).id, (g.port o).label, (g.node (g.port i).node).id,
        (g.port i).label⟩ →
      g.isMember p (g.port o).node = true →
      g.port? (g.port o).node .output (g.port o).label = some o →
      g.isMember p (g.port i).node = true →
      g.port? (g.port i).node .input (g.port i).label = some i →
      (g.port i).input?.isSome = true → c ∉ (g.pipeline p).connections →
      Noted g p (.linked o i c) (g.modifyPipeline p fun pipeline =>
        { pipeline with connections := pipeline.connections ++ [c] })
  | unlinked (c : Connection) : g.pipelines.Has p → c ∈ (g.pipeline p).connections →
      Noted g p (.unlinked c) (g.modifyPipeline p fun pipeline =>
        { pipeline with connections := pipeline.connections.erase c })

end Graph

/-! ## Lists of pairs -/

section Keys

variable {κ α : Type} [DecidableEq κ] {l : List (κ × α)} {key : κ}

theorem ne_of_lookup_eq_none (h : l.lookup key = none) : ∀ e ∈ l, e.1 ≠ key := by
  intro e he heq
  have hne := List.lookup_eq_none_iff.mp h e he
  rw [heq, bne_self_eq_false] at hne
  cases hne

theorem nodup_keys_append (h : (l.map Prod.fst).Nodup) (hnew : l.lookup key = none) (a : α) :
    ((l ++ [(key, a)]).map Prod.fst).Nodup := by
  rw [List.map_append, List.nodup_append]
  refine ⟨h, List.nodup_singleton _, ?_⟩
  intro k hk k' hk' heq
  obtain ⟨e, he, rfl⟩ := List.mem_map.mp hk
  exact ne_of_lookup_eq_none hnew e he (heq.trans (List.mem_singleton.mp hk'))

theorem mem_of_lookup_eq_some {a : α} (h : l.lookup key = some a) : (key, a) ∈ l := by
  obtain ⟨l₁, l₂, rfl, -⟩ := List.lookup_eq_some_iff.mp h
  exact List.mem_append_right _ List.mem_cons_self

theorem lookup_eq_some_of_mem (hnodup : (l.map Prod.fst).Nodup) {a : α} (h : (key, a) ∈ l) :
    l.lookup key = some a := by
  obtain ⟨l₁, l₂, rfl⟩ := List.append_of_mem h
  refine List.lookup_eq_some_iff.mpr ⟨l₁, l₂, rfl, fun e he => ?_⟩
  rw [List.map_append, List.nodup_append] at hnodup
  have hne := hnodup.2.2 e.1 (List.mem_map_of_mem he) key List.mem_cons_self
  exact bne_iff_ne.mpr hne.symm

end Keys

namespace Graph

variable {g g' : Graph}

/-! ## What moves keep -/

/-- Pipelines with their books, nodes with their ids and pipelines, and ports with their nodes are
still there. -/
structure Kept (g g' : Graph) : Prop where
  pipelines : ∀ p, g.pipelines.Has p → g'.pipelines.Has p
  books : ∀ p, (g'.pipeline p).SameBooks (g.pipeline p)
  nodes : ∀ n, g.nodes.Has n → g'.nodes.Has n ∧ (g'.node n).id = (g.node n).id ∧
    (g'.node n).pipeline = (g.node n).pipeline
  ports : ∀ q, g.ports.Has q → g'.ports.Has q ∧ (g'.port q).node = (g.port q).node

theorem Kept.refl (g : Graph) : g.Kept g :=
  ⟨fun _ h => h, fun _ => ⟨rfl, rfl, rfl⟩, fun _ h => ⟨h, rfl, rfl⟩, fun _ h => ⟨h, rfl⟩⟩

theorem Kept.trans {g'' : Graph} (h : g.Kept g') (h' : g'.Kept g'') : g.Kept g'' where
  pipelines p hp := h'.pipelines p (h.pipelines p hp)
  books p := ⟨(h'.books p).nodes.trans (h.books p).nodes, (h'.books p).nextId.trans (h.books p).nextId,
    (h'.books p).connections.trans (h.books p).connections⟩
  nodes n hn := by
    obtain ⟨hn', hid, hhome⟩ := h.nodes n hn
    obtain ⟨hn'', hid', hhome'⟩ := h'.nodes n hn'
    exact ⟨hn'', hid'.trans hid, hhome'.trans hhome⟩
  ports q hq := by
    obtain ⟨hq', hnode⟩ := h.ports q hq
    obtain ⟨hq'', hnode'⟩ := h'.ports q hq'
    exact ⟨hq'', hnode'.trans hnode⟩

/-- Only the tables of pipelines, nodes and ports matter. -/
theorem Kept.of_tables (hp : g'.pipelines = g.pipelines) (hn : g'.nodes = g.nodes)
    (hq : g'.ports = g.ports) : g.Kept g' := by
  refine ⟨fun p h => by rw [hp]; exact h, fun p => ?_, fun n h => ⟨by rw [hn]; exact h, ?_⟩,
    fun q h => ⟨by rw [hq]; exact h, ?_⟩⟩
  · rw [pipeline, pipeline, hp]
    exact ⟨rfl, rfl, rfl⟩
  · rw [node, node, hn]
    exact ⟨rfl, rfl⟩
  · rw [port, port, hq]

theorem Kept.of_ports (hp : g'.pipelines = g.pipelines) (hn : g'.nodes = g.nodes)
    (hq : ∀ q, g.ports.Has q → g'.ports.Has q ∧ (g'.port q).node = (g.port q).node) : g.Kept g' := by
  have hrest : g.Kept { g' with ports := g.ports } := .of_tables hp hn rfl
  exact ⟨hrest.pipelines, hrest.books, hrest.nodes, hq⟩

theorem Kept.of_modifyNode (n : Ref .node) {f : Node → Node}
    (hf : ∀ node, (f node).id = node.id ∧ (f node).pipeline = node.pipeline) :
    g.Kept (g.modifyNode n f) := by
  refine ⟨fun _ h => h, fun _ => ⟨rfl, rfl, rfl⟩, fun m hm => ⟨Table.has_modify.mpr hm, ?_⟩,
    fun _ h => ⟨h, rfl⟩⟩
  rw [node_modifyNode]
  split
  · exact hf _
  · exact ⟨rfl, rfl⟩

theorem Move.kept (h : g.Move g') : g.Kept g' := by
  cases h with
  | pipeline name logName =>
    refine ⟨fun p hp => Table.has_push hp, fun p => ?_, fun n hn => ⟨hn, rfl, rfl⟩,
      fun _ h => ⟨h, rfl⟩⟩
    simp only [Graph.pipeline, Table.get_push]
    split
    · next hp =>
      rw [Table.get_of_size_le _ (Nat.le_of_eq hp.symm)]
      exact ⟨rfl, rfl, rfl⟩
    · exact ⟨rfl, rfl, rfl⟩
  | node node =>
    have hrow : ∀ n, g.nodes.Has n → (g.nodes.push node).1.get n = g.node n := fun n hn =>
      Table.get_push_of_lt _ _ hn
    refine ⟨fun _ h => h, fun _ => ⟨rfl, rfl, rfl⟩, fun n hn => ⟨Table.has_push hn, ?_⟩,
      fun _ h => ⟨h, rfl⟩⟩
    exact ⟨congrArg Node.id (hrow n hn), congrArg Node.pipeline (hrow n hn)⟩
  | registerPort n d p r | registerMap n d p r =>
    exact .of_modifyNode n fun _ => ⟨Node.setRegistry_id _ _ _, Node.setRegistry_pipeline _ _ _⟩
  | changePipeline p f hf =>
    refine ⟨fun q hq => Table.has_modify.mpr hq, fun q => ?_, fun n hn => ⟨hn, rfl, rfl⟩,
      fun _ h => ⟨h, rfl⟩⟩
    rw [pipeline_modifyPipeline]
    split
    · exact hf _
    · exact ⟨rfl, rfl, rfl⟩
  | changeNode n f hf => exact .of_modifyNode n fun node => ⟨(hf node).1, (hf node).2.1⟩
  | port port _ | input _ port _ _ =>
    refine .of_ports rfl rfl fun q hq => ⟨Table.has_push hq, ?_⟩
    exact congrArg Port.node (Table.get_push_of_lt _ _ hq)
  | changePort r f _ hnode _ =>
    refine .of_ports rfl rfl fun q hq => ⟨Table.has_modify.mpr hq, ?_⟩
    rw [port_modifyPort]
    split
    · next hr =>
      rw [hr.1]
      exact hnode
    · rfl
  | portMap | queue | entry | setQueue | aside => exact .of_tables rfl rfl rfl

theorem Moves.kept (h : g.Moves g') : g.Kept g' := by
  induction h with
  | refl => exact .refl g
  | tail _ hm ih => exact ih.trans hm.kept

/-! ## What noted changes keep -/

variable {q : Ref .pipeline} {e : Event}

theorem Noted.nodes_eq (hn : g.Noted q e g') : g'.nodes = g.nodes := by
  cases hn <;> rfl

theorem Noted.pipeline_of_ne (hn : g.Noted q e g') {p : Ref .pipeline} (hqp : q ≠ p) :
    g'.pipeline p = g.pipeline p := by
  have hother : ∀ f, (g.modifyPipeline q f).pipeline p = g.pipeline p := fun f => by
    rw [pipeline_modifyPipeline, if_neg fun hc => hqp hc.1.symm]
  cases hn <;> exact hother _

end Graph

end FrameGraph
