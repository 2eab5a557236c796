import FrameGraph.Proofs.Graph.FanOut
import FrameGraph.Proofs.Graph.Placement

/-!
# Connections by output

A connection carries the id and the label of its output and nothing else of it. Ids of nodes and
labels of their outputs are distinct, so every connection belongs to one output that is listed, and
going through the outputs of all nodes gives each connection once.

* `outputsOf`: the outputs of a pipeline, node by node.
* `Intact`: what is held of a pipeline, and that its outputs are registered on their own nodes.
* `Placed.connections_perm`: the connections of all outputs together.
-/

namespace FrameGraph.Graph

variable {g : Graph} {h : History} {p : Ref .pipeline}

/-! ## Keys -/

/-- Elements with distinct keys, sorted by the keys that occur, are the same elements. -/
theorem flatMap_filter_perm {α κ ι : Type} [DecidableEq κ] {l : List α} {ks : List ι} (key : α → κ)
    (f : ι → κ) (hl : l.Nodup) (hks : (ks.map f).Nodup) (hkey : ∀ a ∈ l, key a ∈ ks.map f) :
    (ks.flatMap fun k => l.filter fun a => key a = f k).Perm l := by
  have hnodup : (ks.flatMap fun k => l.filter fun a => key a = f k).Nodup := by
    refine List.nodup_flatMap.mpr ⟨fun k _ => hl.filter _, ?_⟩
    refine (List.pairwise_map.mp hks).imp fun hne a ha ha' => hne ?_
    have hk := of_decide_eq_true (List.mem_filter.mp ha).2
    have hk' := of_decide_eq_true (List.mem_filter.mp ha').2
    exact hk.symm.trans hk'
  refine (List.perm_ext_iff_of_nodup hnodup hl).mpr fun a => ⟨fun ha => ?_, fun ha => ?_⟩
  · obtain ⟨k, -, ha⟩ := List.mem_flatMap.mp ha
    exact List.mem_of_mem_filter ha
  · obtain ⟨k, hk, hkeyed⟩ := List.mem_map.mp (hkey a ha)
    exact List.mem_flatMap.mpr ⟨k, hk, List.mem_filter.mpr ⟨ha, decide_eq_true hkeyed.symm⟩⟩

/-! ## Outputs of a pipeline -/

/-- The outputs of the nodes in a pipeline, node by node. -/
def outputsOf (g : Graph) (p : Ref .pipeline) : List (Ref .port) :=
  (g.pipeline p).nodes.flatMap fun e => g.portsOf e.2 .output

/-- A pipeline is held, and so are its nodes. Their outputs are registered on their own nodes. -/
structure Intact (g : Graph) (p : Ref .pipeline) : Prop where
  alive : (g.pipeline p).alive = true
  nodes : ∀ e ∈ (g.pipeline p).nodes, (g.node e.2).alive = true
  outputs : ∀ e ∈ (g.pipeline p).nodes, ∀ o ∈ g.portsOf e.2 .output, (g.port o).node = e.2

/-- What a connection holds of its output. -/
def sourceKey (g : Graph) (o : Ref .port) : Nat × PortLabel :=
  ((g.node (g.port o).node).id, (g.port o).label)

theorem connectionsFrom_eq (g : Graph) (p : Ref .pipeline) (o : Ref .port) :
    g.connectionsFrom p o =
      (g.pipeline p).connections.filter fun c => (c.outputId, c.output) = g.sourceKey o := by
  refine List.filter_congr fun c _ => ?_
  rw [Bool.eq_iff_iff, Bool.and_eq_true, decide_eq_true_eq, decide_eq_true_eq, decide_eq_true_eq,
    sourceKey, Prod.mk.injEq]

theorem Valid.node_of_mem (hv : Valid g h) {e : Nat × Ref .node} (he : e ∈ (g.pipeline p).nodes) :
    (g.pipeline p).node? e.1 = some e.2 ∧ (g.node e.2).id = e.1 := by
  have hn : (g.pipeline p).node? e.1 = some e.2 :=
    lookup_eq_some_of_mem (hv.recorded p).ids_nodup he
  exact ⟨hn, hv.id_of_node? hn⟩

theorem Intact.sourceKey_eq (hi : g.Intact p) (hv : Valid g h) {e : Nat × Ref .node}
    (he : e ∈ (g.pipeline p).nodes) {o : Ref .port} (ho : o ∈ g.portsOf e.2 .output) :
    g.sourceKey o = (e.1, (g.port o).label) := by
  rw [sourceKey, hi.outputs e he o ho, (hv.node_of_mem he).2]

theorem Intact.pipelineOf?_eq (hi : g.Intact p) (hp : Placed g h) {o : Ref .port}
    (ho : o ∈ g.outputsOf p) : g.pipelineOf? o = some p := by
  obtain ⟨e, he, ho⟩ := List.mem_flatMap.mp ho
  have hcreated := (hp.valid.recorded p).created_of_node? (hp.valid.node_of_mem he).1
  rw [pipelineOf?_eq_some_iff, hi.outputs e he o ho]
  exact ⟨hi.nodes e he, hp.homed.node p e.2 (List.mem_of_getElem? hcreated), hi.alive⟩

/-- No two outputs of a pipeline have the same id and label. -/
theorem Intact.sourceKeys_nodup (hi : g.Intact p) (hv : Valid g h) :
    ((g.outputsOf p).map g.sourceKey).Nodup := by
  have hkeys : ∀ e ∈ (g.pipeline p).nodes, (g.portsOf e.2 .output).map g.sourceKey =
      ((g.portsOf e.2 .output).map fun o => (g.port o).label).map (Prod.mk e.1) := by
    intro e he
    rw [List.map_map]
    exact List.map_congr_left fun o ho => hi.sourceKey_eq hv he ho
  rw [outputsOf, List.map_flatMap]
  refine List.nodup_flatMap.mpr ⟨fun e he => ?_, ?_⟩
  · rw [hkeys e he]
    exact (hv.sound.labels_nodup e.2 .output).map fun l l' heq => congrArg Prod.snd heq
  · refine (List.pairwise_map.mp (hv.recorded p).ids_nodup).imp_of_mem fun {e e'} he he' hne => ?_
    intro k hk hk'
    beta_reduce at hk hk'
    rw [hkeys e he] at hk
    rw [hkeys e' he'] at hk'
    obtain ⟨l, -, rfl⟩ := List.mem_map.mp hk
    obtain ⟨l', -, heq⟩ := List.mem_map.mp hk'
    exact hne (congrArg Prod.fst heq).symm

/-- Every connection has the key of an output. -/
theorem Intact.sourceKey_mem (hi : g.Intact p) (hv : Valid g h) {c : Connection}
    (hc : c ∈ (g.pipeline p).connections) :
    (c.outputId, c.output) ∈ (g.outputsOf p).map g.sourceKey := by
  obtain ⟨no, ni, ho, hi'⟩ := hv.attached p c hc
  obtain ⟨o, i, hlink⟩ := hv.link_of_mem hc
  obtain ⟨⟨homem, holabel⟩, -⟩ := hv.ports hlink ho hi'
  have he := mem_of_lookup_eq_some ho
  refine List.mem_map.mpr ⟨o, List.mem_flatMap.mpr ⟨_, he, homem⟩, ?_⟩
  rw [hi.sourceKey_eq hv he homem, holabel]

/-! ## Connections of outputs -/

theorem mapM_eq_ok {α β ε : Type} {f : α → Except ε β} {k : α → β} {l : List α}
    (h : ∀ a ∈ l, f a = .ok (k a)) : l.mapM f = .ok (l.map k) := by
  induction l with
  | nil => rfl
  | cons a l ih =>
    rw [List.mapM_cons, h a List.mem_cons_self, ih fun b hb => h b (List.mem_cons_of_mem a hb)]
    rfl

/-- The outputs of the nodes in a pipeline have each connection once. -/
theorem Placed.connections_perm (hp : Placed g h) (hi : g.Intact p) :
    ((g.outputsOf p).flatMap (g.connectionsFrom p)).Perm (g.pipeline p).connections := by
  have hfrom : g.connectionsFrom p = fun o =>
      (g.pipeline p).connections.filter fun c => (c.outputId, c.output) = g.sourceKey o :=
    funext (g.connectionsFrom_eq p)
  rw [hfrom]
  exact flatMap_filter_perm (fun c => (c.outputId, c.output)) g.sourceKey
    (hp.valid.recorded p).connections_nodup (hi.sourceKeys_nodup hp.valid)
    fun c hc => hi.sourceKey_mem hp.valid hc

theorem Placed.connectionsOf_eq (hp : Placed g h) (hi : g.Intact p) {o : Ref .port}
    (ho : o ∈ g.outputsOf p) : g.connectionsOf o = .ok (g.connectionsFrom p o) :=
  connectionsOf_eq_ok (hi.pipelineOf?_eq hp ho)

end FrameGraph.Graph
