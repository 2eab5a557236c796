import FrameGraph.Proofs.Description.Nodes

/-!
# Pipelines as they are described

A pipeline that was built from a description has the nodes and the connections that are written
there, in this order and nothing else. The ids in a connection say which aliases were written, since
they are the positions of the aliases, and the labels are those that were read because a label names
one port of a node.

* `buildConnection_run_iff`, `build_run_iff`: the steps that building consists of.
* `Linked`: what is known of connections that were made.
* `build_denotes`: the pipeline of a description.
-/

namespace FrameGraph.Description

open FrameGraph.Graph Workspace

variable {g g' g'' : Graph} {w w' : Workspace}

/-! ## Connections -/

/-- A connection is made where both ends are read, name nodes, and are found and linked. -/
theorem buildConnection_run_iff {b : Built} {item : Value} {u : Unit} :
    (buildConnection b item).run w = .ok u w' ↔ ∃ ends n m o i w₁ w₂, endpoints item = .ok ends ∧
      b.node? ends.1.node = some n ∧ b.node? ends.2.node = some m ∧
      (resolveOutput n ends.1.port).run w = .ok o w₁ ∧
      (resolveInput m ends.2.port).run w₁ = .ok i w₂ ∧ (linkOutput o i).run w₂ = .ok u w' := by
  constructor
  · intro hrun
    obtain ⟨sourceSpec, _, hread, hrun⟩ := run_bind_ok.mp hrun
    obtain ⟨hfrom, rfl⟩ := run_require_ok.mp hread
    obtain ⟨source, _, hread, hrun⟩ := run_bind_ok.mp hrun
    obtain ⟨hsource, rfl⟩ := run_require_ok.mp hread
    obtain ⟨targetSpec, _, hread, hrun⟩ := run_bind_ok.mp hrun
    obtain ⟨hto, rfl⟩ := run_require_ok.mp hread
    obtain ⟨target, _, hread, hrun⟩ := run_bind_ok.mp hrun
    obtain ⟨htarget, rfl⟩ := run_require_ok.mp hread
    have hends : endpoints item = .ok (source, target) :=
      bind_eq_ok.mpr ⟨sourceSpec, hfrom, bind_eq_ok.mpr ⟨source, hsource,
        bind_eq_ok.mpr ⟨targetSpec, hto, bind_eq_ok.mpr ⟨target, htarget, rfl⟩⟩⟩⟩
    split at hrun
    · next n m hn hm =>
      obtain ⟨o, w₁, ho, hrun⟩ := run_bind_ok.mp hrun
      obtain ⟨i, w₂, hi, hrun⟩ := run_bind_ok.mp hrun
      exact ⟨_, n, m, o, i, w₁, w₂, hends, hn, hm, ho, hi, hrun⟩
    · obtain ⟨_, _, -, hrun⟩ := run_bind_ok.mp hrun
      obtain ⟨_, _, -, hrun⟩ := run_bind_ok.mp hrun
      obtain ⟨_, _, -, hrun⟩ := run_bind_ok.mp hrun
      exact absurd hrun not_run_throw_ok
  · rintro ⟨ends, n, m, o, i, w₁, w₂, hends, hn, hm, ho, hi, hrun⟩
    obtain ⟨sourceSpec, hfrom, hends⟩ := bind_eq_ok.mp hends
    obtain ⟨source, hsource, hends⟩ := bind_eq_ok.mp hends
    obtain ⟨targetSpec, hto, hends⟩ := bind_eq_ok.mp hends
    obtain ⟨target, htarget, hends⟩ := bind_eq_ok.mp hends
    cases hends
    refine run_bind_ok.mpr ⟨_, w, run_require_ok.mpr ⟨hfrom, rfl⟩, ?_⟩
    refine run_bind_ok.mpr ⟨_, w, run_require_ok.mpr ⟨hsource, rfl⟩, ?_⟩
    refine run_bind_ok.mpr ⟨_, w, run_require_ok.mpr ⟨hto, rfl⟩, ?_⟩
    refine run_bind_ok.mpr ⟨_, w, run_require_ok.mpr ⟨htarget, rfl⟩, ?_⟩
    rw [hn, hm]
    exact run_bind_ok.mpr ⟨o, w₁, ho, run_bind_ok.mpr ⟨i, w₂, hi, hrun⟩⟩

/-- The ports at two ends that were found, the output first. -/
structure Found (g : Graph) (ends : EndpointSpec × EndpointSpec) (n m : Ref .node) (g' : Graph)
    (o i : Ref .port) : Prop where
  settled : Settled g g'
  grown : g.Grown g' [⟨n, .output, ends.1.port⟩, ⟨m, .input, ends.2.port⟩]
  output : ∃ x, g.declared? n .output ends.1.port = some x ∧ g'.AsDeclared n x ends.1.port o
  input : ∃ y, g.declared? m .input ends.2.port = some y ∧ g'.AsDeclared m y ends.2.port i
  output_mem : o ∈ g'.portsOf n .output
  input_mem : i ∈ g'.portsOf m .input

/-- Nothing that the search for the input does touches the output. -/
theorem Found.of_resolved (hs : g.Sound) {n m : Ref .node} (hn : g.Equipped n) (hm : g.Equipped m)
    {ends : EndpointSpec × EndpointSpec} {o i : Ref .port}
    (ho : Resolved n .output ends.1.port g g' o) (hi : Resolved m .input ends.2.port g' g'' i) :
    Found g ends n m g'' o i := by
  have hso := Settled.of_resolved ho hs
  have hs' := hs.moves hso.moves
  have hm' := hso.grows.equipped m hm
  have hsi := Settled.of_resolved hi hs'
  have hgrown := hi.grown hs' hm'
  obtain ⟨x, hx, hxo⟩ := ho.declared hs hn
  obtain ⟨y, hy, hyi⟩ := hi.declared hs' hm'
  rw [declared?, (hso.grows.node m hm.has).2] at hy
  have homem := (ho.mem hs hn.has).1
  refine ⟨hso.trans hsi, (ho.grown hs hn).trans hgrown, ⟨x, hx, ?_⟩, ⟨y, hy, hyi⟩,
    (hs'.extends_moves hsi.moves _ _ o homem).1, (hi.mem hs' hm'.has).1⟩
  exact hxo.keep fun p hp => ⟨(hgrown.row p hp).1, by rw [(hgrown.row p hp).2]⟩

/-- The ports that a connection asks for. -/
def requests (b : Built) (ends : EndpointSpec × EndpointSpec) : List Request :=
  ((b.node? ends.1.node).map fun n => ⟨n, .output, ends.1.port⟩).toList ++
    ((b.node? ends.2.node).map fun m => ⟨m, .input, ends.2.port⟩).toList

/-- Connections were made in order: what is written is new, and only its ports were asked for. -/
structure Linked (types : NodeTypes) (name : Value) (entries : Entries) (b : Built)
    (cs : List Connection) (items : List Value) (ends : List (EndpointSpec × EndpointSpec))
    (g g' : Graph) : Prop where
  read : List.Forall₂ (fun item e => endpoints item = .ok e) items ends
  connectable : ∀ e ∈ ends, Connectable types entries e
  writes : List.Forall₂ (Writes entries) items (ends.map (record entries))
  new : cs.Nodup → (cs ++ ends.map (record entries)).Nodup
  grown : g.Grown g' (ends.flatMap (requests b))
  building : Building types name entries g' b (cs ++ ends.map (record entries))

theorem Linked.append {types : NodeTypes} {name : Value} {entries : Entries} {b : Built}
    {cs : List Connection} {items items' : List Value}
    {ends ends' : List (EndpointSpec × EndpointSpec)}
    (h : Linked types name entries b cs items ends g g')
    (h' : Linked types name entries b (cs ++ ends.map (record entries)) items' ends' g' g'') :
    Linked types name entries b cs (items ++ items') (ends ++ ends') g g'' := by
  have hrecords : cs ++ (ends ++ ends').map (record entries) =
      cs ++ ends.map (record entries) ++ ends'.map (record entries) := by
    rw [List.map_append, List.append_assoc]
  refine ⟨List.rel_append h.read h'.read, fun e he => ?_, ?_, fun hcs => ?_, ?_, ?_⟩
  · exact (List.mem_append.mp he).elim (h.connectable e) (h'.connectable e)
  · rw [List.map_append]
    exact List.rel_append h.writes h'.writes
  · rw [hrecords]
    exact h'.new (h.new hcs)
  · rw [List.flatMap_append]
    exact h.grown.trans h'.grown
  · rw [hrecords]
    exact h'.building

theorem buildConnection_ok {types : NodeTypes} {name : Value} {entries : Entries} {b : Built}
    {cs : List Connection} (h : Building types name entries w.graph b cs) {item : Value} {u : Unit}
    (hrun : (buildConnection b item).run w = .ok u w') :
    ∃ e, Linked types name entries b cs [item] [e] w.graph w'.graph := by
  obtain ⟨ends, n, m, o, i, w₁, w₂, hends, hn, hm, ho, hi, hrun⟩ :=
    buildConnection_run_iff.mp hrun
  obtain ⟨p, c, hp, hc⟩ := linkOutput_ok hrun
  obtain ⟨hposition, hkind, hhoused⟩ := h.node_position hn
  obtain ⟨hposition', hkind', hhoused'⟩ := h.node_position hm
  have hfound := Found.of_resolved h.sound hhoused.equipped hhoused'.equipped (resolveOutput_ok ho)
    (resolveInput_ok hi)
  have hbuilding := h.settle hfound.settled
  obtain ⟨-, -, hhoused₂⟩ := hbuilding.node_position hn
  obtain ⟨-, -, hhoused₂'⟩ := hbuilding.node_position hm
  obtain ⟨x, hx, hxo⟩ := hfound.output
  obtain ⟨y, hy, hyi⟩ := hfound.input
  have hpipeline : p = b.pipeline := by rw [pipelineOf_eq_home hp, hxo.node, hhoused₂.home]
  subst hpipeline
  obtain ⟨hcompatible, -⟩ := (connect_iff_of_declared hbuilding.sound hhoused₂ hhoused₂' hxo hyi
    (Declarations.direction_of_port? hx) (Declarations.direction_of_port? hy) hfound.output_mem
    hfound.input_mem).mp ⟨_, hc⟩
  have hrecord : c = record entries ends := by
    rw [connect_record hc, hxo.node, hyi.node, hxo.label, hyi.label, record, hposition, hposition',
      (hfound.grown.grows.node n hhoused.equipped.has).2,
      (hfound.grown.grows.node m hhoused'.equipped.has).2]
    rfl
  subst hrecord
  obtain ⟨-, -, -, -, -, hnew, -⟩ := connect_eq_ok.mp hc
  rw [hbuilding.connections] at hnew
  refine ⟨ends, .cons hends .nil, fun e he => ?_,
    .cons (writes_record hends hposition hposition') .nil, fun hcs => ?_, ?_, hbuilding.connect hc⟩
  · rw [List.mem_singleton.mp he]
    exact ⟨_, _, x, y, hkind, hkind', hx, hy, hcompatible⟩
  · exact List.nodup_append.mpr ⟨hcs, List.nodup_singleton _, fun a ha a' ha' heq =>
      hnew (List.mem_singleton.mp ha' ▸ heq ▸ ha)⟩
  · have hgrown := hfound.grown.trans (connect_grown hc)
    rw [List.append_nil] at hgrown
    rw [List.flatMap_singleton, requests, hn, hm]
    exact hgrown

theorem buildConnections_ok {types : NodeTypes} {name : Value} {entries : Entries} {b : Built}
    {cs : List Connection} (h : Building types name entries w.graph b cs) {items : List Value}
    {u : Unit} (hrun : (items.forM (buildConnection b)).run w = .ok u w') :
    ∃ ends, Linked types name entries b cs items ends w.graph w'.graph := by
  induction items generalizing w cs with
  | nil =>
    obtain ⟨-, rfl⟩ := run_pure_ok.mp hrun
    refine ⟨[], .nil, nofun, .nil, fun hcs => ?_, .refl _, ?_⟩
    · rwa [List.map_nil, List.append_nil]
    · rwa [List.map_nil, List.append_nil]
  | cons item items ih =>
    obtain ⟨_, w₁, hfirst, hrest⟩ := run_bind_ok.mp hrun
    obtain ⟨e, hone⟩ := buildConnection_ok h hfirst
    obtain ⟨ends, hall⟩ := ih hone.building hrest
    exact ⟨e :: ends, hone.append hall⟩

/-! ## The pipeline -/

theorem newPipeline_building (types : NodeTypes) {history : History} (hg : Placed g history)
    {name : Value} {p : Ref .pipeline} (h : g.newPipeline name = .ok (g', p)) :
    Building types name [] g' { pipeline := p } [] := by
  obtain ⟨logName, -, h⟩ := bind_eq_ok.mp h
  cases h
  exact ⟨⟨history, hg.move (.pipeline name logName)⟩, Table.has_push_self _ _, rfl, nofun, logName,
    Table.get_push_self _ _⟩

/-- A pipeline is built in three steps: it is made, then its nodes, and then its connections. -/
theorem build_run_iff {types : NodeTypes} {description : Value} {b : Built} :
    (build types description).run w = .ok b w' ↔ ∃ name entries items p w₁ w₂ w₃ text,
      pipelineName description = .ok name ∧ nodeEntries description = .ok entries ∧
      connectionItems description = .ok items ∧ (newPipeline name).run w = .ok p w₁ ∧
      (entries.foldlM (buildNode (if types = [] then defaultNodeTypes else types))
        { pipeline := p }).run w₁ = .ok b w₂ ∧
      (items.forM (buildConnection b)).run w₂ = .ok () w₃ ∧
      w₃.graph.pipelineText p = .ok text ∧
      w' = { w₃ with
        journal := w₃.journal ++ [⟨.info, .description, s!"从配置创建Pipeline: {text}"⟩] } := by
  constructor
  · intro hbuild
    obtain ⟨pipeline, _, hread, hbuild⟩ := run_bind_ok.mp hbuild
    obtain ⟨hpipeline, rfl⟩ := run_require_ok.mp hread
    obtain ⟨name, _, hread, hbuild⟩ := run_bind_ok.mp hbuild
    obtain ⟨hname, rfl⟩ := run_require_ok.mp hread
    obtain ⟨p, w₁, hnew, hbuild⟩ := run_bind_ok.mp hbuild
    obtain ⟨nodes, _, hread, hbuild⟩ := run_bind_ok.mp hbuild
    obtain ⟨hnodes, rfl⟩ := run_require_ok.mp hread
    obtain ⟨entries, _, hread, hbuild⟩ := run_bind_ok.mp hbuild
    obtain ⟨hentries, rfl⟩ := run_require_ok.mp hread
    obtain ⟨b₁, w₂, hmake, hbuild⟩ := run_bind_ok.mp hbuild
    obtain ⟨connections, _, hread, hbuild⟩ := run_bind_ok.mp hbuild
    obtain ⟨hconnections, rfl⟩ := run_require_ok.mp hread
    obtain ⟨items, _, hread, hbuild⟩ := run_bind_ok.mp hbuild
    obtain ⟨hitems, rfl⟩ := run_require_ok.mp hread
    obtain ⟨_, w₃, hlink, hbuild⟩ := run_bind_ok.mp hbuild
    obtain ⟨_, _, hget, hbuild⟩ := run_bind_ok.mp hbuild
    cases hget
    obtain ⟨text, _, hread, hbuild⟩ := run_bind_ok.mp hbuild
    obtain ⟨htext, rfl⟩ := run_require_ok.mp hread
    cases hbuild
    exact ⟨name, entries, items, p, w₁, w₂, _, text,
      bind_eq_ok.mpr ⟨pipeline, hpipeline, hname⟩,
      bind_eq_ok.mpr ⟨pipeline, hpipeline, bind_eq_ok.mpr ⟨nodes, hnodes, hentries⟩⟩,
      bind_eq_ok.mpr ⟨pipeline, hpipeline, bind_eq_ok.mpr ⟨connections, hconnections, hitems⟩⟩,
      hnew, hmake, hlink, htext, rfl⟩
  · rintro ⟨name, entries, items, p, w₁, w₂, w₃, text, hname, hentries, hitems, hnew, hmake, hlink,
      htext, rfl⟩
    obtain ⟨pipeline, hpipeline, hname⟩ := bind_eq_ok.mp hname
    obtain ⟨_, hsame, hentries⟩ := bind_eq_ok.mp hentries
    cases hpipeline.symm.trans hsame
    obtain ⟨_, hsame, hitems⟩ := bind_eq_ok.mp hitems
    cases hpipeline.symm.trans hsame
    obtain ⟨nodes, hnodes, hentries⟩ := bind_eq_ok.mp hentries
    obtain ⟨connections, hconnections, hitems⟩ := bind_eq_ok.mp hitems
    refine run_bind_ok.mpr ⟨_, w, run_require_ok.mpr ⟨hpipeline, rfl⟩, ?_⟩
    refine run_bind_ok.mpr ⟨_, w, run_require_ok.mpr ⟨hname, rfl⟩, ?_⟩
    refine run_bind_ok.mpr ⟨p, w₁, hnew, ?_⟩
    refine run_bind_ok.mpr ⟨_, w₁, run_require_ok.mpr ⟨hnodes, rfl⟩, ?_⟩
    refine run_bind_ok.mpr ⟨_, w₁, run_require_ok.mpr ⟨hentries, rfl⟩, ?_⟩
    refine run_bind_ok.mpr ⟨b, w₂, hmake, ?_⟩
    refine run_bind_ok.mpr ⟨_, w₂, run_require_ok.mpr ⟨hconnections, rfl⟩, ?_⟩
    refine run_bind_ok.mpr ⟨_, w₂, run_require_ok.mpr ⟨hitems, rfl⟩, ?_⟩
    refine run_bind_ok.mpr ⟨(), w₃, hlink, ?_⟩
    refine run_bind_ok.mpr ⟨w₃, w₃, rfl, ?_⟩
    exact run_bind_ok.mpr ⟨text, w₃, run_require_ok.mpr ⟨htext, rfl⟩, rfl⟩

theorem build_building {history : History} (hg : Placed w.graph history) {types : NodeTypes}
    {description : Value} {b : Built} (hbuild : (build types description).run w = .ok b w') :
    ∃ name entries items cs text, nodeEntries description = .ok entries ∧
      connectionItems description = .ok items ∧ List.Forall₂ (Writes entries) items cs ∧
      Building (if types = [] then defaultNodeTypes else types) name entries w'.graph b cs ∧
      w'.graph.pipelineText b.pipeline = .ok text := by
  obtain ⟨name, entries, items, p, w₁, w₂, w₃, text, -, hentries, hitems, hnew, hmake, hlink,
    htext, rfl⟩ := build_run_iff.mp hbuild
  have hstart := newPipeline_building (if types = [] then defaultNodeTypes else types) hg
    (newPipeline_ok hnew)
  obtain ⟨hsame, hmade⟩ := buildNodes_ok hstart hmake
  obtain ⟨ends, hlinked⟩ := buildConnections_ok hmade hlink
  rw [show p = b.pipeline from hsame.symm] at htext
  exact ⟨name, entries, items, _, text, hentries, hitems, hlinked.writes, hlinked.building, htext⟩

/-- A pipeline that is built from a description has the nodes and the connections that are written
there. The nodes have the aliases in their order, the positions as ids and the kinds that their types
name, and the pipeline contains them and no others. Each connection that is written gives one record,
in order, between the positions of the aliases and the labels that are read from the endpoints. -/
theorem build_denotes {h : History} (hrun : Graph.Run w.graph h) {types : NodeTypes}
    {description : Value} {b : Built}
    (hbuild : (build types description).run w = .ok b w') :
    ∃ entries items, nodeEntries description = .ok entries ∧
      connectionItems description = .ok items ∧
      b.nodes.map Prod.fst = entries.map Prod.fst ∧
      (∀ i entry, entries[i]? = some entry → ∃ n s, b.nodes[i]? = some (entry.1, n) ∧
        (w'.graph.node n).id = i ∧ entry.2.memberOr "type" .null = .ok (.text s) ∧
        (if types = [] then defaultNodeTypes else types).find? s = some (w'.graph.node n).kind) ∧
      (w'.graph.pipeline b.pipeline).nodes = b.nodes.zipIdx.map (fun e => (e.2, e.1.2)) ∧
      List.Forall₂ (Writes entries) items (w'.graph.pipeline b.pipeline).connections := by
  obtain ⟨_, entries, items, cs, -, hentries, hitems, hall, hdone, -⟩ :=
    build_building hrun.placed hbuild
  rw [← hdone.connections] at hall
  refine ⟨entries, items, hentries, hitems, hdone.aliases, fun i entry he => ?_, hdone.nodes, hall⟩
  obtain ⟨n, hn, -, hid, -, hkind⟩ := hdone.node i entry he
  obtain ⟨s, htype, hfind⟩ := kindOfEntry_eq_some_iff.mp hkind
  exact ⟨n, s, hn, hid, htype, hfind⟩

/-- A stage whose frames go to two inputs of one map. -/
def twoFeeds : Value :=
  .dict [(.text "pipeline", .dict [
    (.text "nodes", .dict [
      (.text "sync", .dict [(.text "type", .text "FrameSyncNode")]),
      (.text "stage", .dict [(.text "type", .text "Stage")])]),
    (.text "connections", .list [
      .dict [(.text "from", .text "stage.output"), (.text "to", .text "sync.inputs[left]")],
      .dict [(.text "from", .text "stage.output"), (.text "to", .text "sync.inputs[\"right\"]")]])])]

def twoFeedsTypes : NodeTypes := [("FrameSyncNode", .frameSync), ("Stage", .processingNode)]

theorem twoFeeds_denotes : ∃ b w', (build twoFeedsTypes twoFeeds).run {} = .ok b w' ∧
    b.nodes.map Prod.fst = [.text "sync", .text "stage"] ∧
    (w'.graph.pipeline b.pipeline).nodes.map Prod.fst = [0, 1] ∧
    ∃ c c', (w'.graph.pipeline b.pipeline).connections = [c, c'] := by
  obtain ⟨b, w', hbuild⟩ : ∃ b w', (build twoFeedsTypes twoFeeds).run {} = .ok b w' :=
    exists_run_ok (by decide +kernel)
  obtain ⟨entries, items, hentries, hitems, haliases, -, hnodes, hall⟩ :=
    build_denotes Graph.Run.start hbuild
  cases hentries
  cases hitems
  refine ⟨b, w', hbuild, haliases, ?_, ?_⟩
  · have hlength : b.nodes.length = 2 := by
      have := congrArg List.length haliases
      rwa [List.length_map] at this
    have hids : (b.nodes.zipIdx.map fun e => (e.2, e.1.2)).map Prod.fst =
        b.nodes.zipIdx.map Prod.snd := List.map_map
    rw [hnodes, hids, List.zipIdx_map_snd, hlength]
    rfl
  · generalize (w'.graph.pipeline b.pipeline).connections = cs at hall
    cases hall with
    | cons _ hrest =>
      cases hrest with
      | cons _ hnil =>
        cases hnil
        exact ⟨_, _, rfl⟩

end FrameGraph.Description
