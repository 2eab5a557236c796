import FrameGraph.Proofs.Description.Build
import FrameGraph.Proofs.Graph.NodeSettings

/-!
# Which descriptions are accepted

A pipeline is built from a description by steps that change ports and connections while they check
what is written. But each check looks at the description, and at what the kinds of its nodes declare,
and the only thing that it asks of the steps before is that a connection is new. So a description is
accepted for what it says, node by node and connection by connection, and each connection once.

* `SettingsAccepted`, `InputAccepted`, `NodeAccepted`: what is asked of one node.
* `Connectable`: what is asked of one connection.
* `Accepted`: what is asked of a description, `build_succeeds_iff`: and nothing else.
-/

namespace FrameGraph

namespace Description

open FrameGraph.Graph Workspace

variable {g g' : Graph} {w w' : Workspace} {n : Ref .node} {p : Ref .port}

/-! ## Settings of inputs -/

/-- Where a setting is mentioned its value keeps a rule. -/
def Mentioned (settings : Value) (key : String) (rule : Value → Prop) : Prop :=
  ∃ mentioned, settings.mentions key = .ok mentioned ∧
    (mentioned = true → ∃ v, settings.member key = .ok v ∧ rule v)

def IsTruth (v : Value) : Prop := ∃ b, v = .bool b

def IsSize (v : Value) : Prop := ∃ k : Int, v = .int k ∧ 1 ≤ k

structure SettingsAccepted (settings : Value) : Prop where
  blocking : Mentioned settings "blocking" IsTruth
  queueSize : Mentioned settings "queue_size" IsSize
  wait : Mentioned settings "wait_for_message" IsTruth
  reuse : Mentioned settings "reuse_previous_message" IsTruth

theorem requireBool_eq_ok_iff {settings v : Value} {key : String} {name : MessageText} :
    requireBool settings key name = .ok v ↔ settings.member key = .ok v ∧ IsTruth v := by
  constructor
  · intro h
    obtain ⟨u, hu, h⟩ := bind_eq_ok.mp h
    split at h
    · cases h
      exact ⟨hu, _, rfl⟩
    · obtain ⟨_, -, h⟩ := bind_eq_ok.mp h
      cases h
  · rintro ⟨hv, b, rfl⟩
    exact bind_eq_ok.mpr ⟨_, hv, rfl⟩

theorem requireInteger_eq_ok_iff {settings v : Value} {key : String} {name : MessageText} :
    requireInteger settings key name = .ok v ↔
      settings.member key = .ok v ∧ ∃ k : Int, v = .int k := by
  constructor
  · intro h
    obtain ⟨u, hu, h⟩ := bind_eq_ok.mp h
    split at h
    · cases h
      exact ⟨hu, _, rfl⟩
    · obtain ⟨_, -, h⟩ := bind_eq_ok.mp h
      cases h
  · rintro ⟨hv, k, rfl⟩
    exact bind_eq_ok.mpr ⟨_, hv, rfl⟩

theorem setQueueSize_succeeds_iff {q : Ref .queue} (hq : g.queueOf? p = some q) (k : Int) :
    (∃ g', g.setQueueSize p (.int k) = .ok g') ↔ 1 ≤ k := by
  unfold setQueueSize Queue.resize
  rw [hq]
  rcases Queue.capacityOf_int k with ⟨hk, hcapacity⟩ | ⟨hk, fault, hcapacity, -⟩
  · simp only [hcapacity]
    exact ⟨fun _ => hk, fun _ => ⟨_, rfl⟩⟩
  · simp only [hcapacity]
    refine ⟨?_, fun h => absurd h (not_le.mpr hk)⟩
    rintro ⟨g', h⟩
    cases h

theorem succeeds_whenMentioned_iff {settings : Value} {key : String}
    {read : Value → String → MessageText → Except Fault Value}
    {change : Graph → Value → Except Fault Graph} {rule : Value → Prop}
    (h : ∀ v, (read settings key w.graph.messages.text = .ok v ∧ ∃ g, change w.graph v = .ok g) ↔
      settings.member key = .ok v ∧ rule v) :
    succeeds (whenMentioned settings key read change) w = true ↔ Mentioned settings key rule := by
  refine succeeds_require_bind_iff.trans (exists_congr fun mentioned => and_congr_right fun _ => ?_)
  cases mentioned with
  | false => exact ⟨fun _ => nofun, fun _ => rfl⟩
  | true =>
    rw [if_pos rfl]
    refine succeeds_require_bind_iff.trans ?_
    simp only [succeeds_require_bind_iff, true_implies]
    refine exists_congr fun v => ?_
    rw [← h v]
    exact and_congr_right fun _ => ⟨fun ⟨g, hg, _⟩ => ⟨g, hg⟩, fun ⟨g, hg⟩ => ⟨g, hg, rfl⟩⟩

theorem succeeds_applySettings_iff {q : Ref .queue} (hq : w.graph.queueOf? p = some q)
    {settings : Value} :
    succeeds (applySettings p settings) w = true ↔ SettingsAccepted settings := by
  have htruth : ∀ {w : Workspace} {key : String} {change : Graph → Value → Graph},
      succeeds (whenMentioned settings key requireBool fun g v => .ok (change g v)) w = true ↔
        Mentioned settings key IsTruth := fun {w key change} =>
    succeeds_whenMentioned_iff fun v => by simp [requireBool_eq_ok_iff]
  have hsize : ∀ {w : Workspace}, w.graph.queueOf? p = some q →
      (succeeds (whenMentioned settings "queue_size" requireInteger fun g v =>
        g.setQueueSize p v) w = true ↔ Mentioned settings "queue_size" IsSize) := by
    intro w hq
    refine succeeds_whenMentioned_iff fun v => ?_
    rw [requireInteger_eq_ok_iff, and_assoc]
    refine and_congr_right fun _ => ⟨?_, ?_⟩
    · rintro ⟨⟨k, rfl⟩, hset⟩
      exact ⟨k, rfl, (setQueueSize_succeeds_iff hq k).mp hset⟩
    · rintro ⟨k, rfl, hk⟩
      exact ⟨⟨k, rfl⟩, (setQueueSize_succeeds_iff hq k).mpr hk⟩
  have hparts : SettingsAccepted settings ↔ Mentioned settings "blocking" IsTruth ∧
      Mentioned settings "queue_size" IsSize ∧ Mentioned settings "wait_for_message" IsTruth ∧
      Mentioned settings "reuse_previous_message" IsTruth :=
    ⟨fun h => ⟨h.blocking, h.queueSize, h.wait, h.reuse⟩, fun ⟨h₁, h₂, h₃, h₄⟩ => ⟨h₁, h₂, h₃, h₄⟩⟩
  rw [hparts]
  refine succeeds_andThen_iff htruth fun _ w₁ hblocking => ?_
  have htuned : w.graph.Tuned p w₁.graph := by
    refine whenMentioned_tuned (fun g v g' hg => ?_) hblocking
    cases hg
    exact g.setBlocking_tuned p v
  refine succeeds_andThen_iff (hsize (htuned.queueOf?_eq.trans hq)) fun _ _ _ => ?_
  exact succeeds_andThen_iff htruth fun _ _ _ => htruth

/-! ## Inputs and nodes -/

theorem succeeds_resolve_iff {d : Direction} {l : PortLabel} {noMap noPort : Fault}
    (hs : w.graph.Sound) (hn : w.graph.Equipped n) :
    succeeds (resolve w.graph n d l noMap noPort) w = true ↔
      ∃ x, w.graph.declared? n d l = some x := by
  constructor
  · intro h
    obtain ⟨p, w', hrun⟩ := exists_run_ok h
    obtain ⟨x, hx, -⟩ := (resolve_ok hrun).declared hs hn
    exact ⟨x, hx⟩
  · rintro ⟨x, hx⟩
    rcases hn.resolve hs hx with ⟨hgroup, m, hm, hcreate⟩ | ⟨hgroup, p, hp⟩
    · rw [resolve, if_pos hgroup, hm]
      exact succeeds_getOrCreate_iff.mpr hcreate
    · rw [resolve, if_neg (not_not.mpr hgroup), hp]
      rfl

theorem succeeds_resolveOutput_iff {l : PortLabel} (hs : w.graph.Sound)
    (hn : w.graph.Equipped n) :
    succeeds (resolveOutput n l) w = true ↔ ∃ x, w.graph.declared? n .output l = some x :=
  succeeds_resolve_iff hs hn

theorem succeeds_resolveInput_iff {l : PortLabel} (hs : w.graph.Sound)
    (hn : w.graph.Equipped n) :
    succeeds (resolveInput n l) w = true ↔ ∃ x, w.graph.declared? n .input l = some x :=
  succeeds_resolve_iff hs hn

/-- The entry names an input of the kind, and its settings are accepted. -/
def InputAccepted (kind : NodeKind) (entry : Value × Value) : Prop :=
  ∃ l, PortLabel.ofValue entry.1 = .ok l ∧ (∃ x, kind.declarations.port? .input l = some x) ∧
    SettingsAccepted (entry.2.orElse (.dict []))

theorem succeeds_buildInput_iff (hs : w.graph.Sound) (hn : w.graph.Equipped n)
    (entry : Value × Value) :
    succeeds (buildInput n entry) w = true ↔ InputAccepted (w.graph.node n).kind entry := by
  refine succeeds_require_bind_iff.trans (exists_congr fun l => and_congr_right fun _ => ?_)
  refine succeeds_andThen_iff (succeeds_resolveInput_iff hs hn) fun p w' hp => ?_
  obtain ⟨x, hx, hport⟩ := (resolveInput_ok hp).declared hs hn
  obtain ⟨q, hq⟩ := hport.queueOf? (Declarations.direction_of_port? hx)
  exact succeeds_applySettings_iff hq

theorem succeeds_buildInputs_iff (hs : w.graph.Sound) (hn : w.graph.Equipped n) (entries : Entries) :
    succeeds (entries.forM (buildInput n)) w = true ↔
      ∀ entry ∈ entries, InputAccepted (w.graph.node n).kind entry := by
  refine succeeds_forM_iff
    (P := fun v => v.graph.Sound ∧ v.graph.Equipped n ∧ v.graph.node n = w.graph.node n)
    (fun entry v ⟨hs, hn, hrow⟩ => ?_) (fun entry v _ v' ⟨hs, hn, hrow⟩ hrun => ?_) ⟨hs, hn, rfl⟩
    entries
  · rw [succeeds_buildInput_iff hs hn, hrow]
  · have hsettled := buildInput_settled hs hn hrun
    exact ⟨hs.moves hsettled.moves, hsettled.grows.equipped n hn,
      (hsettled.grows.node n hn.has).2.trans hrow⟩

/-- The type of the described node is known, a node of its kind is made from the settings, and its
inputs are accepted. -/
def NodeAccepted (types : NodeTypes) (id : Nat) (entry : Value × Value) : Prop :=
  ∃ kind given settings inputs inputEntries, kindOfEntry types entry = some kind ∧
    memberOrEmpty entry.2 "config" (.dict []) = .ok given ∧
    Entries.ofValue (given.orElse (.dict [])) = .ok settings ∧
    Settings.Keeps kind (kind.settings id settings) ∧
    memberOrEmpty entry.2 "inputs" (.dict []) = .ok inputs ∧ inputs.entries = .ok inputEntries ∧
    ∀ e ∈ inputEntries, InputAccepted kind e

theorem succeeds_buildNode_iff {types : NodeTypes} {name : Value} {entries : Entries} {b : Built}
    (h : Building types name entries w.graph b []) (entry : Value × Value) :
    succeeds (buildNode types b entry) w = true ↔ NodeAccepted types entries.length entry := by
  constructor
  · intro hok
    obtain ⟨b', w', hrun⟩ := exists_run_ok hok
    obtain ⟨kind, given, n, w₁, inputs, inputEntries, hkind, hgiven, hcreate, hinputs,
      hinputEntries, hrun, -⟩ := buildNode_run_iff.mp hrun
    have hdone := create_ok hcreate
    have hcreated := create_created h.has hdone
    obtain ⟨_, _, hsettings, -⟩ := create_eq_ok.mp hdone
    rw [h.nextId] at hsettings
    obtain ⟨settings, hgivenEntries, hkeeps, -⟩ := newSettings_eq_ok_iff.mp hsettings
    have hall := (succeeds_buildInputs_iff (h.create hdone hkind).sound hcreated.equipped
      inputEntries).mp (succeeds_of_run hrun)
    rw [hcreated.kind] at hall
    exact ⟨kind, given, settings, inputs, inputEntries, hkind, hgiven, hgivenEntries, hkeeps,
      hinputs, hinputEntries, hall⟩
  · rintro ⟨kind, given, settings, inputs, inputEntries, hkind, hgiven, hgivenEntries, hkeeps,
      hinputs, hinputEntries, hall⟩
    have hsettings : w.graph.newSettings kind (w.graph.pipeline b.pipeline).nextId given =
        .ok (kind.settings entries.length settings) := by
      rw [h.nextId]
      exact newSettings_eq_ok_iff.mpr ⟨settings, hgivenEntries, hkeeps, rfl⟩
    obtain ⟨n, w₁, hcreate⟩ :=
      exists_run_ok (succeeds_create_iff.mpr (create_of_settings hsettings))
    have hdone := create_ok hcreate
    have hcreated := create_created h.has hdone
    rw [← hcreated.kind] at hall
    obtain ⟨_, w', hrun⟩ := exists_run_ok ((succeeds_buildInputs_iff (h.create hdone hkind).sound
      hcreated.equipped inputEntries).mpr hall)
    exact succeeds_of_run (buildNode_run_iff.mpr ⟨kind, given, n, w₁, inputs, inputEntries, hkind,
      hgiven, hcreate, hinputs, hinputEntries, hrun, rfl⟩)

theorem succeeds_buildNodes_iff {types : NodeTypes} {name : Value} {before entries : Entries}
    {b : Built} (h : Building types name before w.graph b []) :
    succeeds (entries.foldlM (buildNode types) b) w = true ↔
      ∀ i entry, entries[i]? = some entry → NodeAccepted types (before.length + i) entry := by
  induction entries generalizing w before b with
  | nil => exact ⟨fun _ => nofun, fun _ => rfl⟩
  | cons entry entries ih =>
    rw [List.foldlM_cons]
    have hrest : ∀ b' w', (buildNode types b entry).run w = .ok b' w' →
        (succeeds (entries.foldlM (buildNode types) b') w' = true ↔ ∀ i e, entries[i]? = some e →
          NodeAccepted types (before.length + (i + 1)) e) := by
      intro b' w' hrun
      obtain ⟨-, hone⟩ := buildNode_ok h hrun
      rw [ih hone, List.length_append]
      simp only [List.length_singleton, Nat.add_assoc, Nat.add_comm 1]
    refine (succeeds_andThen_iff (succeeds_buildNode_iff h entry) hrest).trans ⟨?_, fun hall => ?_⟩
    · rintro ⟨hfirst, hall⟩ i e he
      cases i with
      | zero =>
        cases he
        exact hfirst
      | succ i => exact hall i e he
    · exact ⟨hall 0 entry rfl, fun i e he => hall (i + 1) e he⟩

/-! ## Connections -/

theorem buildConnection_succeeds {types : NodeTypes} {name : Value} {entries : Entries} {b : Built}
    {cs : List Connection} (h : Building types name entries w.graph b cs) {item : Value}
    {e : EndpointSpec × EndpointSpec} (he : endpoints item = .ok e)
    (hconnectable : Connectable types entries e) (hnew : record entries e ∉ cs) :
    succeeds (buildConnection b item) w = true := by
  obtain ⟨kind, kind', x, y, hkind, hkind', hx, hy, hcompatible⟩ := hconnectable
  obtain ⟨_, hfirst⟩ := position?_of_kindAt hkind
  obtain ⟨_, hsecond⟩ := position?_of_kindAt hkind'
  obtain ⟨n, hn⟩ := h.node_of_position hfirst
  obtain ⟨m, hm⟩ := h.node_of_position hsecond
  obtain ⟨hposition, hnkind, hhoused⟩ := h.node_position hn
  obtain ⟨hposition', hmkind, hhoused'⟩ := h.node_position hm
  cases hkind.symm.trans hnkind
  cases hkind'.symm.trans hmkind
  obtain ⟨o, w₁, ho⟩ :=
    exists_run_ok ((succeeds_resolveOutput_iff h.sound hhoused.equipped).mpr ⟨x, hx⟩)
  have hsettled := Settled.of_resolved (resolveOutput_ok ho) h.sound
  have hy₁ : w₁.graph.declared? m .input e.2.port = some y := by
    rw [declared?, (hsettled.grows.node m hhoused'.equipped.has).2]
    exact hy
  obtain ⟨i, w₂, hi⟩ := exists_run_ok ((succeeds_resolveInput_iff (h.sound.moves hsettled.moves)
    (hsettled.grows.equipped m hhoused'.equipped)).mpr ⟨y, hy₁⟩)
  have hfound := Found.of_resolved h.sound hhoused.equipped hhoused'.equipped (resolveOutput_ok ho)
    (resolveInput_ok hi)
  have hbuilding := h.settle hfound.settled
  obtain ⟨hposition₂, -, hhoused₂⟩ := hbuilding.node_position hn
  obtain ⟨hposition₂', -, hhoused₂'⟩ := hbuilding.node_position hm
  obtain ⟨x', hx', hxo⟩ := hfound.output
  obtain ⟨y', hy', hyi⟩ := hfound.input
  cases hx.symm.trans hx'
  cases hy.symm.trans hy'
  have hrecord : record entries e =
      ⟨(w₂.graph.node n).id, e.1.port, (w₂.graph.node m).id, e.2.port⟩ := by
    rw [record, hposition₂, hposition₂']
    rfl
  rw [hrecord, ← hbuilding.connections] at hnew
  have hlink : succeeds (linkOutput o i) w₂ = true := by
    obtain ⟨r, hr⟩ := (connect_iff_of_declared hbuilding.sound hhoused₂ hhoused₂' hxo hyi
      (Declarations.direction_of_port? hx) (Declarations.direction_of_port? hy) hfound.output_mem
      hfound.input_mem).mpr ⟨hcompatible, hnew⟩
    exact succeeds_linkOutput_iff.mpr ⟨_, r, pipelineOf_eq_ok (hhoused₂.pipelineOf? hxo), hr⟩
  obtain ⟨_, _, hrun⟩ := exists_run_ok hlink
  exact succeeds_of_run
    (buildConnection_run_iff.mpr ⟨e, n, m, o, i, w₁, w₂, he, hn, hm, ho, hi, hrun⟩)

/-- Connections are made in order if each can be made and none is there yet or written twice, by
induction on what is still to be made. -/
theorem buildConnections_succeeds {types : NodeTypes} {name : Value} {entries : Entries} {b : Built}
    (made : List (EndpointSpec × EndpointSpec)) {ends : List (EndpointSpec × EndpointSpec)}
    {items : List Value} (h : Building types name entries w.graph b (made.map (record entries)))
    (hread : List.Forall₂ (fun item e => endpoints item = .ok e) items ends)
    (hconnectable : ∀ e ∈ made ++ ends, Connectable types entries e)
    (hnodup : (made ++ ends).Nodup) :
    succeeds (items.forM (buildConnection b)) w = true := by
  induction hread generalizing w made with
  | nil => rfl
  | @cons item e items ends he _ ih =>
    have hall : made ++ e :: ends = made ++ [e] ++ ends := by rw [List.append_assoc]; rfl
    have hmem : ∀ {e'}, e' ∈ made → Connectable types entries e' := fun hmade =>
      hconnectable _ (List.mem_append_left _ hmade)
    have hone : Connectable types entries e :=
      hconnectable e (List.mem_append_right _ List.mem_cons_self)
    have hnew : record entries e ∉ made.map (record entries) := by
      intro hrecord
      obtain ⟨e', hmade, hsame⟩ := List.mem_map.mp hrecord
      cases record_inj (hmem hmade) hone hsame
      exact (List.nodup_append.mp hnodup).2.2 e hmade e List.mem_cons_self rfl
    obtain ⟨_, w', hrun⟩ := exists_run_ok (buildConnection_succeeds h he hone hnew)
    obtain ⟨e', hlinked⟩ := buildConnection_ok h hrun
    obtain ⟨he', -⟩ := List.forall₂_cons.mp hlinked.read
    cases he.symm.trans he'
    have hbuilding := hlinked.building
    rw [← List.map_append] at hbuilding
    rw [hall] at hconnectable hnodup
    have hrest := ih (made ++ [e]) hbuilding hconnectable hnodup
    obtain ⟨_, w'', hrun'⟩ := exists_run_ok hrest
    exact succeeds_of_run (run_bind_ok.mpr ⟨_, w', hrun, hrun'⟩)

theorem succeeds_buildConnections_iff {types : NodeTypes} {name : Value} {entries : Entries}
    {b : Built} (h : Building types name entries w.graph b []) (items : List Value) :
    succeeds (items.forM (buildConnection b)) w = true ↔
      ∃ ends, List.Forall₂ (fun item e => endpoints item = .ok e) items ends ∧
        (∀ e ∈ ends, Connectable types entries e) ∧ ends.Nodup := by
  constructor
  · intro hok
    obtain ⟨_, w', hrun⟩ := exists_run_ok hok
    obtain ⟨ends, hlinked⟩ := buildConnections_ok h hrun
    exact ⟨ends, hlinked.read, hlinked.connectable, (hlinked.new List.nodup_nil).of_map⟩
  · rintro ⟨ends, hread, hconnectable, hnodup⟩
    exact buildConnections_succeeds [] h hread hconnectable hnodup

/-! ## Descriptions -/

/-- What a description says: the name of the pipeline, its nodes by alias and its connections. -/
structure Says (description : Value) (name : String) (entries : Entries) (items : List Value) :
    Prop where
  name : pipelineName description = .ok (.text name)
  nodes : nodeEntries description = .ok entries
  connections : connectionItems description = .ok items

/-- Every node is accepted with its position as its id, and the written connections are between
different pairs of ends that can be connected. -/
structure Accepted (types : NodeTypes) (entries : Entries) (items : List Value) : Prop where
  nodes : ∀ i entry, entries[i]? = some entry → NodeAccepted types i entry
  connections : ∃ ends, List.Forall₂ (fun item e => endpoints item = .ok e) items ends ∧
    (∀ e ∈ ends, Connectable types entries e) ∧ ends.Nodup

theorem build_succeeds_iff {history : History} (hg : Placed w.graph history) {types : NodeTypes}
    {description : Value} {name : String} {entries : Entries} {items : List Value}
    (hsaid : Says description name entries items) :
    (∃ b w', (build types description).run w = .ok b w') ↔
      Accepted (if types = [] then defaultNodeTypes else types) entries items := by
  constructor
  · rintro ⟨b, w', hrun⟩
    obtain ⟨name', entries', items', p, w₁, w₂, w₃, text, -, hentries, hitems, hnew, hmake, hlink,
      -⟩ := build_run_iff.mp hrun
    cases hsaid.nodes.symm.trans hentries
    cases hsaid.connections.symm.trans hitems
    have hstart := newPipeline_building (if types = [] then defaultNodeTypes else types) hg
      (newPipeline_ok hnew)
    obtain ⟨-, hmade⟩ := buildNodes_ok hstart hmake
    refine ⟨fun i entry he => ?_, (succeeds_buildConnections_iff hmade items).mp
      (succeeds_of_run hlink)⟩
    have hnode := (succeeds_buildNodes_iff hstart).mp (succeeds_of_run hmake) i entry he
    rwa [List.length_nil, Nat.zero_add] at hnode
  · intro h
    obtain ⟨p, w₁, hnew⟩ := exists_run_ok (succeeds_newPipeline_iff.mpr
      ⟨_, show w.graph.newPipeline (.text name) = .ok _ from rfl⟩)
    have hstart := newPipeline_building (if types = [] then defaultNodeTypes else types) hg
      (newPipeline_ok hnew)
    obtain ⟨b, w₂, hmake⟩ := exists_run_ok ((succeeds_buildNodes_iff hstart).mpr fun i entry he => by
      rw [List.length_nil, Nat.zero_add]
      exact h.nodes i entry he)
    obtain ⟨hsame, hmade⟩ := buildNodes_ok hstart hmake
    obtain ⟨_, w₃, hlink⟩ :=
      exists_run_ok ((succeeds_buildConnections_iff hmade items).mpr h.connections)
    obtain ⟨ends, hlinked⟩ := buildConnections_ok hmade hlink
    obtain ⟨logName, hrow⟩ := hlinked.building.row
    rw [hsame] at hrow
    obtain ⟨text, htext⟩ : ∃ text, w₃.graph.pipelineText p = .ok text := by
      rw [pipelineText, hrow]
      exact ⟨_, rfl⟩
    exact ⟨b, _, build_run_iff.mpr ⟨_, entries, items, p, w₁, w₂, w₃, text, hsaid.name, hsaid.nodes,
      hsaid.connections, hnew, hmake, hlink, htext, rfl⟩⟩

end Description

end FrameGraph
