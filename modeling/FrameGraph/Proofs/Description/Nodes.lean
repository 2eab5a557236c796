import FrameGraph.Proofs.Description.Written
import FrameGraph.Proofs.Graph.Placement
import FrameGraph.Proofs.Graph.Requests
import FrameGraph.Proofs.Workspace

/-!
# The nodes of a description

A node is made for every alias, in their order, and gets the position of the alias as its id. What is
set up for its inputs leaves all nodes with the ports of their kinds.

* `Settled`: nodes stay as they are while their ports are looked up and set up.
* `Building`: what is known of a pipeline after part of a description, `Building.create`,
  `Building.connect`: it is kept by one more node and by one more connection.
-/

namespace FrameGraph.Description

open FrameGraph.Graph Workspace

variable {g g' g'' : Graph} {w w' : Workspace}

/-! ## Settings of inputs -/

/-- Ports were made and set up, and the pipelines and nodes there are stayed as they are. -/
structure Settled (g g' : Graph) : Prop where
  moves : g.Moves g'
  grows : g.Grows g'
  pipelines : g'.pipelines = g.pipelines

namespace Settled

theorem refl (g : Graph) : Settled g g := ⟨.refl, .refl g, rfl⟩

theorem trans (h : Settled g g') (h' : Settled g' g'') : Settled g g'' :=
  ⟨h.moves.trans h'.moves, h.grows.trans h'.grows, h'.pipelines.trans h.pipelines⟩

theorem of_resolved {n : Ref .node} {d : Direction} {l : PortLabel} {p : Ref .port}
    (h : Resolved n d l g g' p) (hs : g.Sound) : Settled g g' :=
  ⟨h.moves hs, h.grows, h.pipelines⟩

end Settled

/-- The search for a port in either direction, which differ in what they say if there is none. -/
def resolve (g : Graph) (n : Ref .node) (d : Direction) (l : PortLabel) (noMap noPort : Fault) :
    Action (Ref .port) :=
  if l.group ≠ "" then
    match g.portMap? n d l.group with
    | some m => getOrCreate m l.name
    | none => throw noMap
  else
    match g.port? n d ⟨"", l.name⟩ with
    | some p => pure p
    | none => throw noPort

theorem resolve_ok {n : Ref .node} {d : Direction} {l : PortLabel} {noMap noPort : Fault}
    {p : Ref .port} (h : (resolve w.graph n d l noMap noPort).run w = .ok p w') :
    Resolved n d l w.graph w'.graph p := by
  unfold resolve at h
  split at h
  · split at h
    · next m hm => exact Or.inl ⟨m, hm, getOrCreate_ok h⟩
    · exact absurd h not_run_throw_ok
  · next hgroup =>
    rw [ne_eq, not_not] at hgroup
    split at h
    · next q hport =>
      obtain ⟨rfl, rfl⟩ := run_pure_ok.mp h
      rw [← hgroup] at hport
      exact Or.inr ⟨hport, rfl⟩
    · exact absurd h not_run_throw_ok

theorem resolveOutput_ok {n : Ref .node} {l : PortLabel} {p : Ref .port}
    (h : (resolveOutput n l).run w = .ok p w') : Resolved n .output l w.graph w'.graph p := by
  obtain ⟨_, _, hget, h⟩ := run_bind_ok.mp h
  obtain ⟨rfl, rfl⟩ := run_get_ok.mp hget
  exact resolve_ok h

theorem resolveInput_ok {n : Ref .node} {l : PortLabel} {p : Ref .port}
    (h : (resolveInput n l).run w = .ok p w') : Resolved n .input l w.graph w'.graph p := by
  obtain ⟨_, _, hget, h⟩ := run_bind_ok.mp h
  obtain ⟨rfl, rfl⟩ := run_get_ok.mp hget
  exact resolve_ok h

theorem whenMentioned_tuned {p : Ref .port} {settings : Value} {key : String}
    {read : Value → String → MessageText → Except Fault Value}
    {change : Graph → Value → Except Fault Graph} {u : Unit}
    (hchange : ∀ g v g', change g v = .ok g' → g.Tuned p g')
    (h : (whenMentioned settings key read change).run w = .ok u w') :
    w.graph.Tuned p w'.graph := by
  obtain ⟨mentioned, _, hmentions, h⟩ := run_bind_ok.mp h
  obtain ⟨-, rfl⟩ := run_require_ok.mp hmentions
  split at h
  · obtain ⟨_, _, hget, h⟩ := run_bind_ok.mp h
    obtain ⟨rfl, rfl⟩ := run_get_ok.mp hget
    obtain ⟨v, _, hread, h⟩ := run_bind_ok.mp h
    obtain ⟨-, rfl⟩ := run_require_ok.mp hread
    obtain ⟨g, _, hset, h⟩ := run_bind_ok.mp h
    obtain ⟨hdone, rfl⟩ := run_require_ok.mp hset
    cases h
    exact hchange _ v _ hdone
  · obtain ⟨-, rfl⟩ := run_pure_ok.mp h
    exact .refl _ p

theorem applySettings_tuned {p : Ref .port} {settings : Value} {u : Unit}
    (h : (applySettings p settings).run w = .ok u w') : w.graph.Tuned p w'.graph := by
  obtain ⟨_, w₁, hblocking, h⟩ := run_bind_ok.mp h
  obtain ⟨_, w₂, hsize, h⟩ := run_bind_ok.mp h
  obtain ⟨_, w₃, hwait, hreuse⟩ := run_bind_ok.mp h
  have h₁ : w.graph.Tuned p w₁.graph := by
    refine whenMentioned_tuned (fun g v g' hg => ?_) hblocking
    cases hg
    exact g.setBlocking_tuned p v
  have h₂ : w₁.graph.Tuned p w₂.graph :=
    whenMentioned_tuned (fun g v g' hg => setQueueSize_tuned hg) hsize
  have h₃ : w₂.graph.Tuned p w₃.graph := by
    refine whenMentioned_tuned (fun g v g' hg => ?_) hwait
    cases hg
    exact g.setWait_tuned p v
  have h₄ : w₃.graph.Tuned p w'.graph := by
    refine whenMentioned_tuned (fun g v g' hg => ?_) hreuse
    cases hg
    exact g.setWait_tuned p _
  exact ((h₁.trans h₂).trans h₃).trans h₄

theorem buildInput_settled (hs : w.graph.Sound) {n : Ref .node} (hn : w.graph.Equipped n)
    {entry : Value × Value} {u : Unit} (h : (buildInput n entry).run w = .ok u w') :
    Settled w.graph w'.graph := by
  obtain ⟨label, _, hlabel, h⟩ := run_bind_ok.mp h
  obtain ⟨-, rfl⟩ := run_require_ok.mp hlabel
  obtain ⟨p, w₁, hport, h⟩ := run_bind_ok.mp h
  have hresolved := resolveInput_ok hport
  have hfound := Settled.of_resolved hresolved hs
  have htuned := applySettings_tuned h
  exact hfound.trans ⟨htuned.moves,
    htuned.grows (hfound.grows.equipped n hn) (hresolved.mem hs hn.has).1, htuned.pipelines⟩

theorem buildInputs_settled (hs : w.graph.Sound) {n : Ref .node} (hn : w.graph.Equipped n)
    {entries : Entries} {u : Unit} (h : (entries.forM (buildInput n)).run w = .ok u w') :
    Settled w.graph w'.graph := by
  induction entries generalizing w with
  | nil =>
    obtain ⟨-, rfl⟩ := run_pure_ok.mp h
    exact .refl _
  | cons entry entries ih =>
    obtain ⟨_, w₁, hfirst, h⟩ := run_bind_ok.mp h
    have hone := buildInput_settled hs hn hfirst
    exact hone.trans (ih (hs.moves hone.moves) (hone.grows.equipped n hn) h)

/-! ## Nodes -/

/-- A pipeline that has the nodes of a description, and connections so far. -/
structure Building (types : NodeTypes) (name : Value) (entries : Entries) (g : Graph) (b : Built)
    (cs : List Connection) : Prop where
  placed : ∃ h, Placed g h
  has : g.pipelines.Has b.pipeline
  aliases : b.nodes.map Prod.fst = entries.map Prod.fst
  node : ∀ i entry, entries[i]? = some entry → ∃ n, b.nodes[i]? = some (entry.1, n) ∧
    g.Equipped n ∧ (g.node n).id = i ∧ (g.node n).pipeline = b.pipeline ∧
    kindOfEntry types entry = some (g.node n).kind
  row : ∃ logName, g.pipeline b.pipeline =
    { name, logName, nodes := b.nodes.zipIdx.map fun e => (e.2, e.1.2), nextId := entries.length,
      connections := cs }

namespace Building

variable {types : NodeTypes} {name : Value} {entries : Entries} {b : Built} {cs : List Connection}

section Facts

variable (h : Building types name entries g b cs)
include h

theorem sound : g.Sound := by
  obtain ⟨_, hplaced⟩ := h.placed
  exact hplaced.valid.sound

theorem length_eq : b.nodes.length = entries.length := by
  have hlength := congrArg List.length h.aliases
  rwa [List.length_map, List.length_map] at hlength

theorem alive : (g.pipeline b.pipeline).alive = true := by
  obtain ⟨_, hrow⟩ := h.row
  rw [hrow]

theorem nodes : (g.pipeline b.pipeline).nodes = b.nodes.zipIdx.map fun e => (e.2, e.1.2) := by
  obtain ⟨_, hrow⟩ := h.row
  rw [hrow]

theorem nextId : (g.pipeline b.pipeline).nextId = entries.length := by
  obtain ⟨_, hrow⟩ := h.row
  rw [hrow]

theorem connections : (g.pipeline b.pipeline).connections = cs := by
  obtain ⟨_, hrow⟩ := h.row
  rw [hrow]

end Facts

theorem settle (h : Building types name entries g b cs) (hg : Settled g g') :
    Building types name entries g' b cs := by
  obtain ⟨history, hplaced⟩ := h.placed
  refine ⟨⟨history, hplaced.moves hg.moves⟩, hg.moves.kept.pipelines _ h.has, h.aliases,
    fun i entry hentry => ?_, ?_⟩
  · obtain ⟨n, hn, hequipped, hid, hhome, hkind⟩ := h.node i entry hentry
    refine ⟨n, hn, hg.grows.equipped n hequipped, ?_⟩
    rw [(hg.grows.node n hequipped.has).2]
    exact ⟨hid, hhome, hkind⟩
  · rw [Graph.pipeline, hg.pipelines]
    exact h.row

/-- A node was created for one more entry. -/
theorem create (h : Building types name entries g b cs) {entry : Value × Value} {kind : NodeKind}
    {given : Value} {n : Ref .node} (hcreate : g.create b.pipeline kind given = .ok (g', n))
    (hkind : kindOfEntry types entry = some kind) :
    Building types name (entries ++ [entry]) g' { b with nodes := b.nodes ++ [(entry.1, n)] }
      cs := by
  have hc := create_created h.has hcreate
  have hlength := h.length_eq
  obtain ⟨history, hplaced⟩ := h.placed
  obtain ⟨g₁, hmoves, hnoted⟩ := create_noted h.has hcreate
  refine ⟨⟨_, (hplaced.moves hmoves).noted hnoted⟩, hc.pipelines, ?_, fun i e he => ?_, ?_⟩
  · rw [List.map_append, List.map_append, h.aliases]
    rfl
  · rw [List.getElem?_append] at he
    split at he
    · next hi =>
      obtain ⟨m, hm, hequipped, hid, hhome, hold⟩ := h.node i e he
      refine ⟨m, ?_, hc.grows.equipped m hequipped, ?_⟩
      · rw [List.getElem?_append_left (by rw [hlength]; exact hi)]
        exact hm
      · rw [(hc.grows.node m hequipped.has).2]
        exact ⟨hid, hhome, hold⟩
    · next hi =>
      -- Behind the entries before there is only the new one.
      have hlast : i = entries.length := by
        obtain ⟨hlt, -⟩ := List.getElem?_eq_some_iff.mp he
        have : i - entries.length < 1 := hlt
        omega
      subst hlast
      rw [Nat.sub_self] at he
      cases he
      refine ⟨n, ?_, hc.equipped, hc.id.trans h.nextId, hc.home, ?_⟩
      · rw [← hlength, List.getElem?_concat_length]
      · rw [hkind, hc.kind]
  · obtain ⟨logName, hrow⟩ := h.row
    refine ⟨logName, ?_⟩
    rw [hc.row, hrow, List.zipIdx_append, List.map_append, List.length_append, hlength, Nat.zero_add]
    rfl

/-- The node at a position is in the pipeline under this id. -/
theorem node_at (h : Building types name entries g b cs) {i : Nat} {e : Value × Ref .node}
    (he : b.nodes[i]? = some e) : g.Housed b.pipeline e.2 ∧ (g.node e.2).id = i ∧
      (i, e.2) ∈ (g.pipeline b.pipeline).nodes := by
  have hlt : i < entries.length := by
    rw [← h.length_eq]
    exact (List.getElem?_eq_some_iff.mp he).1
  obtain ⟨m, hm, hequipped, hid, hhome, -⟩ := h.node i _ (List.getElem?_eq_getElem hlt)
  cases he.symm.trans hm
  have hmem : (i, m) ∈ (g.pipeline b.pipeline).nodes := by
    rw [h.nodes]
    exact List.mem_map.mpr ⟨(_, i), List.mem_zipIdx_iff_getElem?.mpr he, rfl⟩
  obtain ⟨history, hplaced⟩ := h.placed
  refine ⟨⟨hequipped, hhome, h.alive, ?_⟩, hid, hmem⟩
  rw [isMember, decide_eq_true_eq, hid]
  exact lookup_eq_some_of_mem (hplaced.valid.recorded b.pipeline).ids_nodup hmem

/-- The node that an alias names has the position of the alias as its id. -/
theorem node_position (h : Building types name entries g b cs) {a : String} {n : Ref .node}
    (hn : b.node? a = some n) : position? entries a = some (g.node n).id ∧
      kindAt types entries a = some (g.node n).kind ∧ g.Housed b.pipeline n := by
  obtain ⟨e, he, rfl⟩ := Option.map_eq_some_iff.mp hn
  obtain ⟨hequal, i, hi, rfl, hbefore⟩ := List.find?_eq_some_iff_getElem.mp he
  have hposition : position? entries a = some i := by
    have hnodes : b.nodes.findIdx? (fun e => e.1.equal (.text a)) = some i := by
      refine List.findIdx?_eq_some_iff_getElem.mpr ⟨hi, hequal, fun j hj => ?_⟩
      simpa using hbefore j hj
    have haliases := congrArg (List.findIdx? fun key => key.equal (.text a)) h.aliases
    rw [List.findIdx?_map, List.findIdx?_map] at haliases
    exact haliases.symm.trans hnodes
  have hlt : i < entries.length := by rwa [← h.length_eq]
  obtain ⟨hhoused, hid, -⟩ := h.node_at (List.getElem?_eq_getElem hi)
  refine ⟨?_, ?_, hhoused⟩
  · rw [hid]
    exact hposition
  · rw [kindAt, hposition]
    change (entries[i]?.bind fun entry => kindOfEntry types entry) = _
    obtain ⟨m, hm, -, -, -, hkind⟩ := h.node i _ (List.getElem?_eq_getElem hlt)
    rw [List.getElem?_eq_getElem hlt, Option.some.inj ((List.getElem?_eq_getElem hi).symm.trans hm)]
    exact hkind

/-- The node at a position is the one that an alias names exactly if this is the position of the alias. -/
theorem eq_iff_position (h : Building types name entries g b cs) {a : String} {n m : Ref .node}
    (hn : b.node? a = some n) {i : Nat} {v : Value} (hm : b.nodes[i]? = some (v, m)) :
    n = m ↔ position? entries a = some i := by
  obtain ⟨hposition, -, hhoused⟩ := h.node_position hn
  obtain ⟨hhoused', hid, -⟩ := h.node_at hm
  rw [hposition]
  constructor
  · rintro rfl
    exact congrArg some hid
  · intro hsame
    have hmember := hhoused.member
    have hmember' := hhoused'.member
    rw [isMember, decide_eq_true_eq] at hmember hmember'
    rw [Option.some.inj hsame, ← hid] at hmember
    exact Option.some.inj (hmember.symm.trans hmember')

/-- Every alias in the description names a node. -/
theorem node_of_position (h : Building types name entries g b cs) {a : String} {i : Nat}
    (hi : position? entries a = some i) : ∃ n, b.node? a = some n := by
  obtain ⟨hlt, hequal, -⟩ := List.findIdx?_eq_some_iff_getElem.mp hi
  obtain ⟨n, hn, -⟩ := h.node i _ (List.getElem?_eq_getElem hlt)
  have hsome : (b.nodes.find? fun e => e.1.equal (.text a)).isSome = true :=
    List.find?_isSome.mpr ⟨_, List.mem_of_getElem? hn, hequal⟩
  obtain ⟨e, he⟩ := Option.isSome_iff_exists.mp hsome
  exact ⟨e.2, by rw [Built.node?, he]; rfl⟩

theorem connect (h : Building types name entries g b cs) {o i : Ref .port} {c : Connection}
    (hc : g.connect b.pipeline o i = .ok (g', c)) :
    Building types name entries g' b (cs ++ [c]) := by
  have hnoted := connect_noted h.has hc
  have hgrows := hnoted.grows
  obtain ⟨history, hplaced⟩ := h.placed
  have hplaced' := hplaced.noted hnoted
  cases hnoted with
  | linked =>
    refine ⟨⟨_, hplaced'⟩, Table.has_modify.mpr h.has, h.aliases, fun k entry hentry => ?_, ?_⟩
    · obtain ⟨n, hn, hequipped, hrest⟩ := h.node k entry hentry
      exact ⟨n, hn, hgrows.equipped n hequipped, hrest⟩
    · obtain ⟨logName, hrow⟩ := h.row
      refine ⟨logName, ?_⟩
      rw [pipeline_modifyPipeline_self h.has, hrow]

end Building

/-- A node is made of the kind that its type names, and then its inputs are set up. -/
theorem buildNode_run_iff {types : NodeTypes} {b b' : Built} {entry : Value × Value} :
    (buildNode types b entry).run w = .ok b' w' ↔ ∃ kind given n w₁ inputs inputEntries,
      kindOfEntry types entry = some kind ∧ memberOrEmpty entry.2 "config" (.dict []) = .ok given ∧
      (create b.pipeline kind given).run w = .ok n w₁ ∧
      memberOrEmpty entry.2 "inputs" (.dict []) = .ok inputs ∧ inputs.entries = .ok inputEntries ∧
      (inputEntries.forM (buildInput n)).run w₁ = .ok () w' ∧
      b' = { b with nodes := b.nodes ++ [(entry.1, n)] } := by
  constructor
  · intro hrun
    obtain ⟨type, _, hread, hrun⟩ := run_bind_ok.mp hrun
    obtain ⟨htype, rfl⟩ := run_require_ok.mp hread
    obtain ⟨messages, _, hview, hrun⟩ := run_bind_ok.mp hrun
    cases hview
    obtain ⟨kind, _, hread, hrun⟩ := run_bind_ok.mp hrun
    obtain ⟨hkind, rfl⟩ := run_require_ok.mp hread
    obtain ⟨given, _, hread, hrun⟩ := run_bind_ok.mp hrun
    obtain ⟨hgiven, rfl⟩ := run_require_ok.mp hread
    obtain ⟨n, w₁, hcreate, hrun⟩ := run_bind_ok.mp hrun
    obtain ⟨inputs, _, hread, hrun⟩ := run_bind_ok.mp hrun
    obtain ⟨hinputs, rfl⟩ := run_require_ok.mp hread
    obtain ⟨inputEntries, _, hread, hrun⟩ := run_bind_ok.mp hrun
    obtain ⟨hinputEntries, rfl⟩ := run_require_ok.mp hread
    obtain ⟨_, w₂, hall, hrun⟩ := run_bind_ok.mp hrun
    obtain ⟨rfl, rfl⟩ := run_pure_ok.mp hrun
    obtain ⟨s, rfl, hfind⟩ := (kindOf_eq_ok_iff _ _).mp hkind
    exact ⟨kind, given, n, w₁, inputs, inputEntries, kindOfEntry_eq_some_iff.mpr ⟨s, htype, hfind⟩,
      hgiven, hcreate, hinputs, hinputEntries, hall, rfl⟩
  · rintro ⟨kind, given, n, w₁, inputs, inputEntries, hkind, hgiven, hcreate, hinputs,
      hinputEntries, hall, rfl⟩
    obtain ⟨s, htype, hfind⟩ := kindOfEntry_eq_some_iff.mp hkind
    have hkindOf := (kindOf_eq_ok_iff types w.graph.messages.text).mpr ⟨s, rfl, hfind⟩
    refine run_bind_ok.mpr ⟨_, w, run_require_ok.mpr ⟨htype, rfl⟩, run_bind_ok.mpr ⟨_, w, rfl, ?_⟩⟩
    refine run_bind_ok.mpr ⟨kind, w, run_require_ok.mpr ⟨hkindOf, rfl⟩, ?_⟩
    refine run_bind_ok.mpr ⟨given, w, run_require_ok.mpr ⟨hgiven, rfl⟩, ?_⟩
    refine run_bind_ok.mpr ⟨n, w₁, hcreate, ?_⟩
    refine run_bind_ok.mpr ⟨inputs, w₁, run_require_ok.mpr ⟨hinputs, rfl⟩, ?_⟩
    refine run_bind_ok.mpr ⟨inputEntries, w₁, run_require_ok.mpr ⟨hinputEntries, rfl⟩, ?_⟩
    exact run_bind_ok.mpr ⟨(), w', hall, rfl⟩

theorem buildNode_ok {types : NodeTypes} {name : Value} {entries : Entries} {b b' : Built}
    (h : Building types name entries w.graph b []) {entry : Value × Value}
    (hrun : (buildNode types b entry).run w = .ok b' w') :
    b'.pipeline = b.pipeline ∧ Building types name (entries ++ [entry]) w'.graph b' [] := by
  obtain ⟨kind, given, n, w₁, inputs, inputEntries, hkind, -, hcreate, -, -, hall, rfl⟩ :=
    buildNode_run_iff.mp hrun
  have hdone := create_ok hcreate
  have hcreated := h.create hdone hkind
  have hequipped := (create_created h.has hdone).equipped
  exact ⟨rfl, hcreated.settle (buildInputs_settled hcreated.sound hequipped hall)⟩

theorem buildNodes_ok {types : NodeTypes} {name : Value} {before entries : Entries} {b b' : Built}
    (h : Building types name before w.graph b [])
    (hrun : (entries.foldlM (buildNode types) b).run w = .ok b' w') :
    b'.pipeline = b.pipeline ∧ Building types name (before ++ entries) w'.graph b' [] := by
  induction entries generalizing w before b with
  | nil =>
    obtain ⟨rfl, rfl⟩ := run_pure_ok.mp hrun
    rw [List.append_nil]
    exact ⟨rfl, h⟩
  | cons entry entries ih =>
    rw [List.foldlM_cons] at hrun
    obtain ⟨b₁, w₁, hfirst, hrest⟩ := run_bind_ok.mp hrun
    obtain ⟨hpipeline, hone⟩ := buildNode_ok h hfirst
    obtain ⟨hpipeline', hall⟩ := ih hone hrest
    rw [List.append_assoc] at hall
    exact ⟨hpipeline'.trans hpipeline, hall⟩

end FrameGraph.Description
