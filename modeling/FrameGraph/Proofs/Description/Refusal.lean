import FrameGraph.CommandLine.Report
import FrameGraph.Proofs.Description.Acceptance
import FrameGraph.Proofs.Grammar
import FrameGraph.Proofs.Graph.Linking
import FrameGraph.Proofs.Graph.Settings

/-!
# How building a description fails

A description of the right shape has dictionaries for its nodes and for their settings, texts where
something is named, and scalars as settings. Whatever it says, an attempt to build its pipeline ends
well or with a bad value, which is reported, but for one case: the rules of a node come to two
settings without an order. Such a description ends the program.

* `Shaped`: descriptions of the right shape.
* `Unordered`, `StopsUnordered`: what building stops at with the wrong type.
* `build_fails`: how it fails, and what is reported.
-/

namespace FrameGraph.Description

open FrameGraph.Graph Workspace CommandLine

variable {g g' : Graph} {w w' : Workspace} {n : Ref .node} {p : Ref .port} {fault : Fault}

/-! ## Shapes -/

/-- A dictionary of scalars, under a port. -/
structure InputShaped (entry : Value × Value) : Prop where
  port : ∃ spec, entry.1 = .text spec
  settings : ∃ fields, (entry.2.orElse (.dict [])).content = .dict fields ∧
    Settings.Scalars fields

/-- A node with its type, its settings and the settings of its inputs, the last two of which need not
be there. -/
structure NodeShaped (entry : Value × Value) : Prop where
  type : ∃ s, entry.2.memberOr "type" .null = .ok (.text s)
  settings : ∃ given fields, memberOrEmpty entry.2 "config" (.dict []) = .ok given ∧
    given.content = .dict fields ∧ Settings.Scalars fields
  inputs : ∃ inputs inputEntries, memberOrEmpty entry.2 "inputs" (.dict []) = .ok inputs ∧
    inputs.entries = .ok inputEntries ∧ ∀ e ∈ inputEntries, InputShaped e

structure ConnectionShaped (item : Value) : Prop where
  source : ∃ spec, item.member "from" = .ok (.text spec)
  target : ∃ spec, item.member "to" = .ok (.text spec)

structure Shaped (description name : Value) (entries : Entries) (items : List Value) : Prop where
  scalar : name.IsScalar
  name : pipelineName description = .ok name
  nodes : nodeEntries description = .ok entries
  connections : connectionItems description = .ok items
  node : ∀ entry ∈ entries, NodeShaped entry
  connection : ∀ item ∈ items, ConnectionShaped item

/-! ## Settings of inputs -/

theorem requireScalar_error {read : Value → String → MessageText → Except Fault Value}
    (hread : read = requireBool ∨ read = requireInteger) {settings v : Value} {key : String}
    {name : MessageText} (hmember : settings.member key = .ok v) (hv : v.IsScalar)
    (h : read settings key name = .error fault) : fault.isBadValue = true := by
  rcases hread with rfl | rfl
  all_goals
    rcases bind_eq_error.mp h with h | ⟨u, hu, h⟩
    · cases hmember.symm.trans h
    · cases hmember.symm.trans hu
      split at h
      · cases h
      · rcases bind_eq_error.mp h with h | ⟨_, -, h⟩
        · exact Value.literal_of_scalar hv h
        · cases h
          rfl

/-- A setting that is mentioned is there, and a scalar. -/
theorem whenMentioned_error {settings : Value} {fields : Entries}
    (hsettings : settings.content = .dict fields) (hscalars : Settings.Scalars fields) {key : String}
    {read : Value → String → MessageText → Except Fault Value}
    (hread : read = requireBool ∨ read = requireInteger)
    {change : Graph → Value → Except Fault Graph}
    (hchange : ∀ {name g v fault}, read settings key name = .ok v → change g v = .error fault →
      fault.isBadValue = true)
    (h : (whenMentioned settings key read change).run w = .error fault w') :
    fault.isBadValue = true := by
  have hmentions : settings.mentions key = .ok (fields.field? key).isSome := by
    rw [Value.mentions, hsettings]
  replace h := (run_require_bind hmentions).symm.trans h
  split at h
  · next hfield =>
    obtain ⟨v, hv⟩ := Option.isSome_iff_exists.mp hfield
    have hmember : settings.member key = .ok v := by
      rw [Value.member, hsettings]
      dsimp only
      rw [hv]
    rw [run_get_bind] at h
    rcases run_require_bind_error.mp h with ⟨hfails, -⟩ | ⟨u, hu, h⟩
    · exact requireScalar_error hread hmember (hscalars.find? hv) hfails
    · rcases run_require_bind_error.mp h with ⟨hfails, -⟩ | ⟨_, -, h⟩
      · exact hchange hu hfails
      · cases h
  · exact absurd h not_run_pure_error

theorem setQueueSize_int_error {k : Int} (h : g.setQueueSize p (.int k) = .error fault) :
    fault.isBadValue = true := by
  unfold setQueueSize at h
  split at h
  · cases h
  · rcases bind_eq_error.mp h with h | ⟨_, -, h⟩
    · rcases bind_eq_error.mp h with h | ⟨_, -, h⟩
      · rcases Queue.capacityOf_int k with ⟨-, hok⟩ | ⟨-, cause, hcause, hbad⟩
        · cases hok.symm.trans h
        · cases hcause.symm.trans h
          exact hbad
      · cases h
    · cases h

theorem applySettings_error {settings : Value} {fields : Entries}
    (hsettings : settings.content = .dict fields) (hscalars : Settings.Scalars fields)
    (h : (applySettings p settings).run w = .error fault w') : fault.isBadValue = true := by
  have htruth : ∀ {key : String} {change : Graph → Value → Graph} {w w' : Workspace},
      (whenMentioned settings key requireBool fun g v => .ok (change g v)).run w = .error fault w' →
        fault.isBadValue = true := fun h =>
    whenMentioned_error hsettings hscalars (Or.inl rfl) (fun _ hset => by cases hset) h
  rcases run_bind_error.mp h with h | ⟨_, _, -, h⟩
  · exact htruth h
  rcases run_bind_error.mp h with h | ⟨_, _, -, h⟩
  · refine whenMentioned_error hsettings hscalars (Or.inr rfl) (fun hread hset => ?_) h
    obtain ⟨-, k, rfl⟩ := requireInteger_eq_ok_iff.mp hread
    exact setQueueSize_int_error hset
  rcases run_bind_error.mp h with h | ⟨_, _, -, h⟩
  · exact htruth h
  · exact htruth h

/-! ## Inputs -/

/-- A port that cannot be found is named in what is said. Ports of a map are made on demand, which
never fails for the maps of a kind. -/
theorem resolve_error {d : Direction} {l : PortLabel} {noMap noPort : Fault}
    (hn : w.graph.Equipped n) (hnoMap : noMap.isBadValue = true) (hnoPort : noPort.isBadValue = true)
    (h : (resolve w.graph n d l noMap noPort).run w = .error fault w') :
    fault.isBadValue = true := by
  unfold resolve at h
  split at h
  · split at h
    · next m hm =>
      obtain ⟨-, x, -, hmap⟩ := hn.map_declared hm
      obtain ⟨g', p, hcreate, -⟩ := hmap.getOrCreate hn.alive l.name
      have hok : succeeds (getOrCreate m l.name) w = true :=
        succeeds_getOrCreate_iff.mpr ⟨_, hcreate⟩
      obtain ⟨_, _, hrun⟩ := exists_run_ok hok
      cases hrun.symm.trans h
    · obtain ⟨rfl, -⟩ := run_throw_error.mp h
      exact hnoMap
  · split at h
    · exact absurd h not_run_pure_error
    · obtain ⟨rfl, -⟩ := run_throw_error.mp h
      exact hnoPort

theorem resolveOutput_error {l : PortLabel} (hn : w.graph.Equipped n)
    (h : (resolveOutput n l).run w = .error fault w') : fault.isBadValue = true :=
  resolve_error (d := .output) hn rfl rfl h

theorem resolveInput_error {l : PortLabel} (hn : w.graph.Equipped n)
    (h : (resolveInput n l).run w = .error fault w') : fault.isBadValue = true :=
  resolve_error (d := .input) hn rfl rfl h

theorem buildInput_error {entry : Value × Value} (hn : w.graph.Equipped n) (hshape : InputShaped entry)
    (h : (buildInput n entry).run w = .error fault w') : fault.isBadValue = true := by
  obtain ⟨spec, hspec⟩ := hshape.port
  obtain ⟨fields, hfields, hscalars⟩ := hshape.settings
  rw [buildInput, hspec] at h
  rcases run_require_bind_error.mp h with ⟨hread, -⟩ | ⟨l, -, h⟩
  · rw [PortLabel.read_eq_error hread]
    rfl
  rcases run_bind_error.mp h with h | ⟨p, w₁, -, h⟩
  · exact resolveInput_error hn h
  · exact applySettings_error hfields hscalars h

theorem buildInputs_error {entries : Entries} (hs : w.graph.Sound) (hn : w.graph.Equipped n)
    (hshape : ∀ e ∈ entries, InputShaped e)
    (h : (entries.forM (buildInput n)).run w = .error fault w') : fault.isBadValue = true := by
  obtain ⟨before, entry, after, w₁, rfl, hbefore, hlast⟩ := run_forM_error h
  have hentry := hshape entry (List.mem_append_right _ List.mem_cons_self)
  have hsettled := buildInputs_settled hs hn hbefore
  exact buildInput_error (hsettled.grows.equipped n hn) hentry hlast

/-! ## Nodes -/

/-- The settings of a described node come to two values without an order. -/
def Unordered (types : NodeTypes) (id : Nat) (entry : Value × Value) : Prop :=
  ∃ kind given settings, kindOfEntry types entry = some kind ∧
    memberOrEmpty entry.2 "config" (.dict []) = .ok given ∧
    Entries.ofValue (given.orElse (.dict [])) = .ok settings ∧
    Settings.Incomparable kind (kind.settings id settings)

theorem ofValue_of_content {v : Value} {fields : Entries} (hv : v.content = .dict fields) :
    Entries.ofValue v = .ok (Entries.insertAll [] fields) := by
  rw [Entries.ofValue, Entries.merge_of_content _ hv]

theorem scalars_of_given {given : Value} {fields : Entries} (hgiven : given.content = .dict fields)
    (hscalars : Settings.Scalars fields) : ∃ settings,
      Entries.ofValue (given.orElse (.dict [])) = .ok settings ∧ Settings.Scalars settings := by
  have hnone : Settings.Scalars [] := nofun
  by_cases htruthy : given.truthy = true
  · rw [Value.orElse, if_pos htruthy]
    exact ⟨_, ofValue_of_content hgiven, hnone.insertAll hscalars⟩
  · rw [Value.orElse, if_neg htruthy]
    exact ⟨_, ofValue_of_content rfl, hnone⟩

/-- A node is refused for its settings only. -/
theorem create_eq_error_iff {q : Ref .pipeline} {kind : NodeKind} {given : Value} :
    g.create q kind given = .error fault ↔
      g.newSettings kind (g.pipeline q).nextId given = .error fault := by
  constructor
  · intro h
    cases hsettings : g.newSettings kind (g.pipeline q).nextId given with
    | ok settings =>
      obtain ⟨r, hr⟩ := create_of_settings hsettings
      cases hr.symm.trans h
    | error cause =>
      rw [Graph.create, hsettings] at h
      cases h
      rfl
  · intro h
    rw [Graph.create, h]
    rfl

theorem create_run_error {q : Ref .pipeline} {kind : NodeKind} {given : Value} :
    (Workspace.create q kind given).run w = .error fault w' ↔
      w.graph.newSettings kind (w.graph.pipeline q).nextId given = .error fault ∧ w = w' := by
  rw [← create_eq_error_iff, Workspace.create, run_get_bind]
  refine run_require_bind_error.trans (or_iff_left ?_)
  rintro ⟨r, -, h⟩
  cases h

theorem kindOf_text_error {types : NodeTypes} {name : MessageText} {s : String}
    (h : types.kindOf name (.text s) = .error fault) : fault = .refused (.unknownNodeType s) := by
  simp only [NodeTypes.kindOf, Value.isKey, Bool.not_true, Bool.false_eq_true, if_false] at h
  split at h
  · cases h
  · cases h
    rfl

section Nodes

variable {types : NodeTypes} {name : Value} {entries : Entries} {b : Built}

theorem buildNode_error {entry : Value × Value} (h : Building types name entries w.graph b [])
    (hshape : NodeShaped entry) (hrun : (buildNode types b entry).run w = .error fault w') :
    fault.isBadValue = true ∨ (fault = .wrongType ∧ Unordered types entries.length entry) := by
  obtain ⟨s, htype⟩ := hshape.type
  obtain ⟨given, fields, hgiven, hfields, hscalars⟩ := hshape.settings
  obtain ⟨inputs, inputEntries, hinputs, hinputEntries, hinputShapes⟩ := hshape.inputs
  obtain ⟨settings, hsettings, hscalars⟩ := scalars_of_given hfields hscalars
  replace hrun := (run_require_bind htype).symm.trans hrun
  rcases run_bind_error.mp hrun with hview | ⟨messages, _, hview, hrun⟩
  · cases hview
  cases hview
  rcases run_require_bind_error.mp hrun with ⟨hread, -⟩ | ⟨kind, hkind, hrun⟩
  · rw [kindOf_text_error hread]
    exact Or.inl rfl
  obtain ⟨s, hs, hfind⟩ := (kindOf_eq_ok_iff _ _).mp hkind
  cases hs
  have hkind := kindOfEntry_eq_some_iff.mpr ⟨s, htype, hfind⟩
  replace hrun := (run_require_bind hgiven).symm.trans hrun
  rcases run_bind_error.mp hrun with hcreate | ⟨n, w₁, hcreate, hrun⟩
  · obtain ⟨hcheck, -⟩ := create_run_error.mp hcreate
    rw [Graph.newSettings, hsettings, h.nextId] at hcheck
    rcases bind_eq_error.mp hcheck with hread | ⟨_, hread, hcheck⟩
    · cases hread
    cases hread
    rcases bind_eq_error.mp hcheck with hcheck | ⟨_, -, hdone⟩
    · refine (Settings.check_error_of_scalars (hscalars.settings _ _) hcheck).imp_right fun hwrong => ?_
      exact ⟨hwrong.1, kind, given, settings, hkind, hgiven, hsettings, hwrong.2⟩
    · cases hdone
  have hdone := create_ok hcreate
  have hcreated := h.create hdone hkind
  have hequipped := (create_created h.has hdone).equipped
  replace hrun := (run_require_bind hinputs).symm.trans hrun
  replace hrun := (run_require_bind hinputEntries).symm.trans hrun
  rcases run_bind_error.mp hrun with hrun | ⟨_, _, -, hrun⟩
  · exact Or.inl (buildInputs_error hcreated.sound hequipped hinputShapes hrun)
  · exact absurd hrun not_run_pure_error

theorem buildNode_of_unordered {entry : Value × Value}
    (h : Building types name entries w.graph b []) (hshape : NodeShaped entry)
    (hentry : Unordered types entries.length entry) :
    (buildNode types b entry).run w = .error .wrongType w := by
  obtain ⟨kind, given, settings, hkind, hgiven, hsettings, hincomparable⟩ := hentry
  obtain ⟨s, htype, hfind⟩ := kindOfEntry_eq_some_iff.mp hkind
  have hkindOf := (kindOf_eq_ok_iff types w.graph.messages.text).mpr ⟨s, rfl, hfind⟩
  obtain ⟨_, fields, hsame, hfields, hscalars⟩ := hshape.settings
  cases hgiven.symm.trans hsame
  obtain ⟨_, hsame, hscalars⟩ := scalars_of_given hfields hscalars
  cases hsettings.symm.trans hsame
  have hcheck : Settings.check kind w.graph.messages.text (kind.settings entries.length settings) =
      .error .wrongType :=
    Settings.check_of_incomparable (hscalars.settings kind entries.length) hincomparable
  have hnew : w.graph.newSettings kind (w.graph.pipeline b.pipeline).nextId given =
      .error .wrongType := by
    rw [h.nextId]
    exact bind_eq_error.mpr (Or.inr ⟨_, hsettings, bind_eq_error.mpr (Or.inl hcheck)⟩)
  refine (run_require_bind htype).trans ?_
  refine run_bind_error.mpr (Or.inr ⟨_, w, rfl, ?_⟩)
  refine (run_require_bind hkindOf).trans ?_
  refine (run_require_bind hgiven).trans ?_
  exact run_bind_error.mpr (Or.inl (create_run_error.mpr ⟨hnew, rfl⟩))

/-- Some node's settings come to two values without an order, and all nodes before are accepted. -/
def StopsUnordered (types : NodeTypes) (entries : Entries) : Prop :=
  ∃ before entry after, entries = before ++ entry :: after ∧
    (∀ i e, before[i]? = some e → NodeAccepted types i e) ∧ Unordered types before.length entry

theorem buildNodes_error (h : Building types name [] w.graph b [])
    (hshape : ∀ entry ∈ entries, NodeShaped entry)
    (hrun : (entries.foldlM (buildNode types) b).run w = .error fault w') :
    fault.isBadValue = true ∨ (fault = .wrongType ∧ StopsUnordered types entries) := by
  obtain ⟨before, entry, after, b', w₁, rfl, hbefore, hlast⟩ := run_foldlM_error.mp hrun
  have hentry := hshape entry (List.mem_append_right _ List.mem_cons_self)
  obtain ⟨-, hmade⟩ := buildNodes_ok h hbefore
  refine (buildNode_error hmade hentry hlast).imp_right fun hwrong => ?_
  refine ⟨hwrong.1, before, entry, after, rfl, fun i e he => ?_, hwrong.2⟩
  have hnode := (succeeds_buildNodes_iff h).mp (succeeds_of_run hbefore) i e he
  rwa [List.length_nil, Nat.zero_add] at hnode

theorem buildNodes_of_stops (h : Building types name [] w.graph b [])
    (hshape : ∀ entry ∈ entries, NodeShaped entry) (hstops : StopsUnordered types entries) :
    ∃ w', (entries.foldlM (buildNode types) b).run w = .error .wrongType w' := by
  obtain ⟨before, entry, after, rfl, hbefore, hentry⟩ := hstops
  have hshape := hshape entry (List.mem_append_right _ List.mem_cons_self)
  obtain ⟨b', w₁, hrun⟩ := exists_run_ok ((succeeds_buildNodes_iff h).mpr fun i e he => by
    rw [List.length_nil, Nat.zero_add]
    exact hbefore i e he)
  obtain ⟨-, hmade⟩ := buildNodes_ok h hrun
  exact ⟨w₁, run_foldlM_error.mpr ⟨before, entry, after, b', w₁, rfl, hrun,
    buildNode_of_unordered hmade hshape hentry⟩⟩

/-! ## Connections -/

theorem shown_error {q : Ref .pipeline} {cs : List Connection}
    (h : Building types name entries g b cs) (hname : name.IsScalar) (hq : q = b.pipeline)
    (hshown : g.shown (g.pipeline q).name = .error fault) : fault.isBadValue = true := by
  obtain ⟨_, hrow⟩ := h.row
  rw [hq, hrow] at hshown
  exact Value.shown_of_scalar hname hshown

theorem link_error {q : Ref .pipeline} {o i : Ref .port}
    (h : (link q o i).run w = .error fault w') : w.graph.connect q o i = .error fault := by
  cases hresult : w.graph.connect q o i with
  | ok r =>
    obtain ⟨_, hrun, -⟩ := link_of_ok hresult
    cases hrun.symm.trans h
  | error cause =>
    obtain ⟨_, hrun, -⟩ := link_of_error hresult
    cases hrun.symm.trans h
    rfl

theorem buildConnection_error {cs : List Connection} (h : Building types name entries w.graph b cs)
    (hname : name.IsScalar) {item : Value} (hshape : ConnectionShaped item)
    (hrun : (buildConnection b item).run w = .error fault w') : fault.isBadValue = true := by
  obtain ⟨sourceSpec, hfrom⟩ := hshape.source
  obtain ⟨targetSpec, hto⟩ := hshape.target
  replace hrun := (run_require_bind hfrom).symm.trans hrun
  rcases run_require_bind_error.mp hrun with ⟨hread, -⟩ | ⟨source, -, hrun⟩
  · exact EndpointSpec.isBadValue_of_read hread
  replace hrun := (run_require_bind hto).symm.trans hrun
  rcases run_require_bind_error.mp hrun with ⟨hread, -⟩ | ⟨target, -, hrun⟩
  · exact EndpointSpec.isBadValue_of_read hread
  split at hrun
  · next n m hn hm =>
    obtain ⟨-, -, hhoused⟩ := h.node_position hn
    obtain ⟨-, -, hhoused'⟩ := h.node_position hm
    rcases run_bind_error.mp hrun with hrun | ⟨o, w₁, ho, hrun⟩
    · exact resolveOutput_error hhoused.equipped hrun
    have hresolved := resolveOutput_ok ho
    have hsettled := Settled.of_resolved hresolved h.sound
    rcases run_bind_error.mp hrun with hrun | ⟨i, w₂, hi, hrun⟩
    · exact resolveInput_error (hsettled.grows.equipped m hhoused'.equipped) hrun
    have hfound : Found w.graph (source, target) n m w₂.graph o i :=
      .of_resolved h.sound hhoused.equipped hhoused'.equipped hresolved (resolveInput_ok hi)
    have hbuilding := h.settle hfound.settled
    obtain ⟨-, -, hhoused₂⟩ := hbuilding.node_position hn
    obtain ⟨x, -, hxo⟩ := hfound.output
    have hhome := pipelineOf_eq_ok (hhoused₂.pipelineOf? hxo)
    rw [linkOutput, run_get_bind] at hrun
    replace hrun := (run_require_bind hhome).symm.trans hrun
    rcases connect_refused (link_error hrun) with ⟨rule, rfl⟩ | hshown
    · rfl
    · exact shown_error hbuilding hname rfl hshown
  · rw [run_get_bind] at hrun
    rcases run_require_bind_error.mp hrun with ⟨hread, -⟩ | ⟨_, -, hrun⟩
    · cases hread
    rcases run_require_bind_error.mp hrun with ⟨hread, -⟩ | ⟨_, -, hrun⟩
    · cases hread
    obtain ⟨rfl, -⟩ := run_throw_error.mp hrun
    rfl

theorem buildConnections_error {cs : List Connection}
    (h : Building types name entries w.graph b cs) (hname : name.IsScalar) {items : List Value}
    (hshape : ∀ item ∈ items, ConnectionShaped item)
    (hrun : (items.forM (buildConnection b)).run w = .error fault w') : fault.isBadValue = true := by
  obtain ⟨before, item, after, w₁, rfl, hbefore, hlast⟩ := run_forM_error hrun
  obtain ⟨ends, hlinked⟩ := buildConnections_ok h hbefore
  exact buildConnection_error hlinked.building hname
    (hshape item (List.mem_append_right _ List.mem_cons_self)) hlast

end Nodes

/-! ## Descriptions -/

section Descriptions

variable {history : History} {types : NodeTypes} {description name : Value} {entries : Entries}
  {items : List Value}

theorem newPipeline_error (hname : name.IsScalar)
    (h : (Workspace.newPipeline name).run w = .error fault w') : fault.isBadValue = true := by
  rw [Workspace.newPipeline, run_get_bind] at h
  rcases run_require_bind_error.mp h with ⟨hnew, -⟩ | ⟨_, -, h⟩
  · rcases bind_eq_error.mp hnew with hshown | ⟨_, -, hnew⟩
    · exact Value.shown_of_scalar hname hshown
    · cases hnew
  · cases h

theorem build_error (hg : Placed w.graph history) (hshape : Shaped description name entries items)
    (h : (build types description).run w = .error fault w') :
    fault.isBadValue = true ∨ (fault = .wrongType ∧
      StopsUnordered (if types = [] then defaultNodeTypes else types) entries) := by
  obtain ⟨pipeline, hpipeline, hname⟩ := bind_eq_ok.mp hshape.name
  obtain ⟨_, hsame, hentries⟩ := bind_eq_ok.mp hshape.nodes
  cases hpipeline.symm.trans hsame
  obtain ⟨_, hsame, hitems⟩ := bind_eq_ok.mp hshape.connections
  cases hpipeline.symm.trans hsame
  obtain ⟨nodes, hnodes, hentries⟩ := bind_eq_ok.mp hentries
  obtain ⟨connections, hconnections, hitems⟩ := bind_eq_ok.mp hitems
  replace h := (run_require_bind hpipeline).symm.trans h
  replace h := (run_require_bind hname).symm.trans h
  rcases run_bind_error.mp h with h | ⟨p, w₁, hnew, h⟩
  · exact Or.inl (newPipeline_error hshape.scalar h)
  have hstart := newPipeline_building (if types = [] then defaultNodeTypes else types) hg
    (newPipeline_ok hnew)
  replace h := (run_require_bind hnodes).symm.trans h
  replace h := (run_require_bind hentries).symm.trans h
  rcases run_bind_error.mp h with h | ⟨b, w₂, hmake, h⟩
  · exact buildNodes_error hstart hshape.node h
  obtain ⟨hsame, hmade⟩ := buildNodes_ok hstart hmake
  replace h := (run_require_bind hconnections).symm.trans h
  replace h := (run_require_bind hitems).symm.trans h
  rcases run_bind_error.mp h with h | ⟨_, w₃, hlink, h⟩
  · exact Or.inl (buildConnections_error hmade hshape.scalar hshape.connection h)
  obtain ⟨ends, hlinked⟩ := buildConnections_ok hmade hlink
  rw [run_get_bind] at h
  rcases run_require_bind_error.mp h with ⟨hread, -⟩ | ⟨_, -, h⟩
  · rcases bind_eq_error.mp hread with hshown | ⟨_, -, hdone⟩
    · exact Or.inl (shown_error hlinked.building hshape.scalar hsame.symm hshown)
    · cases hdone
  · cases h

/-- A description is built up to the node that it stops at. -/
theorem build_of_stops (hg : Placed w.graph history)
    (hshape : Shaped description name entries items) {title : String}
    (htitle : w.graph.shown name = .ok title)
    (hstops : StopsUnordered (if types = [] then defaultNodeTypes else types) entries) :
    ∃ w', (build types description).run w = .error .wrongType w' := by
  obtain ⟨pipeline, hpipeline, hname⟩ := bind_eq_ok.mp hshape.name
  obtain ⟨_, hsame, hentries⟩ := bind_eq_ok.mp hshape.nodes
  cases hpipeline.symm.trans hsame
  obtain ⟨nodes, hnodes, hentries⟩ := bind_eq_ok.mp hentries
  obtain ⟨p, w₁, hnew⟩ := exists_run_ok (succeeds_newPipeline_iff.mpr
    ⟨_, bind_eq_ok.mpr ⟨title, htitle, rfl⟩⟩)
  have hstart := newPipeline_building (if types = [] then defaultNodeTypes else types) hg
    (newPipeline_ok hnew)
  obtain ⟨w', hrun⟩ := buildNodes_of_stops hstart hshape.node hstops
  refine ⟨w', ?_⟩
  refine (run_require_bind hpipeline).trans ?_
  refine (run_require_bind hname).trans ?_
  refine run_bind_error.mpr (Or.inr ⟨p, w₁, hnew, ?_⟩)
  refine (run_require_bind hnodes).trans ?_
  refine (run_require_bind hentries).trans ?_
  exact run_bind_error.mpr (Or.inl hrun)

/-! ## The program -/

/-- The words name a file that is there, and this is the description in it. -/
structure Reads (files : FileTree) (args : List String) (path : String) (description : Value) :
    Prop where
  options : ∃ o, Options.parse args = .ok o ∧ o.path = .ok path
  found : files.contains path = .ok true
  load : loadDescription (files.open? path) = description
  nonempty : description.truthy = true

def heading (path : String) : String := printLines [s!"📁 使用配置文件: {path}"]

/-- What is printed of a bad value. -/
def failureLine (fault : Fault) : String :=
  printLines [s!"❌ Pipeline构建失败: {fault.badValueText}"]

theorem run_of_error {files : FileTree} {args : List String} {path : String}
    (hreads : Reads files args path description)
    (h : (build [] description).run {} = .error fault w') :
    CommandLine.run files args =
      if fault.isBadValue then ⟨heading path ++ failureLine fault, .ok 1, files⟩
      else ⟨heading path, .error fault, files⟩ := by
  obtain ⟨o, hargs, hpath⟩ := hreads.options
  have hreport : Report.ofOptions o path true (files.open? path) =
      if fault.isBadValue then ⟨heading path ++ failureLine fault, .exit 1⟩
      else ⟨heading path, .abort fault⟩ := by
    rw [Report.ofOptions, hreads.load]
    simp only [hreads.nonempty, Bool.not_true, Bool.false_eq_true, if_false]
    rw [Report.ofDescription, h]
    rfl
  have hamong : Report.among files o = .ok (Report.ofOptions o path true (files.open? path)) :=
    bind_eq_ok.mpr ⟨path, hpath, bind_eq_ok.mpr ⟨true, hreads.found, rfl⟩⟩
  rw [hreport] at hamong
  rw [CommandLine.run, hargs]
  dsimp only
  rw [hamong]
  cases fault.isBadValue <;> rfl

/-- However the values of a description of the right shape are chosen, building it ends well or with a
bad value, which the program reports before it ends with one. The only exception is a node whose rules
come to two settings without an order: there building ends with the wrong type, and so does the
program. -/
theorem build_fails {history : History} (hrun : Graph.Run w.graph history)
    (hshape : Shaped description name entries items) :
    (∀ fault w', (build types description).run w = .error fault w' →
      fault.isBadValue = true ∨ (fault = .wrongType ∧
        StopsUnordered (if types = [] then defaultNodeTypes else types) entries)) ∧
    (∀ title, w.graph.shown name = .ok title →
      StopsUnordered (if types = [] then defaultNodeTypes else types) entries →
      ∃ w', (build types description).run w = .error .wrongType w') ∧
    ∀ files args path, Reads files args path description →
      ((¬∃ b w', (build [] description).run {} = .ok b w') →
        ¬StopsUnordered defaultNodeTypes entries →
        ∃ fault w', (build [] description).run {} = .error fault w' ∧
          CommandLine.run files args = ⟨heading path ++ failureLine fault, .ok 1, files⟩) ∧
      ∀ title, ({} : Graph).shown name = .ok title → StopsUnordered defaultNodeTypes entries →
        CommandLine.run files args = ⟨heading path, .error .wrongType, files⟩ := by
  refine ⟨fun _ _ => build_error hrun.placed hshape,
    fun _ htitle => build_of_stops hrun.placed hshape htitle, fun files args path hreads => ⟨?_, ?_⟩⟩
  · intro hfails hstops
    cases hbuild : (build [] description).run {} with
    | ok b w' => exact absurd ⟨b, w', hbuild⟩ hfails
    | error fault w' =>
      have herror := build_error Graph.Run.start.placed hshape hbuild
      have hbad : fault.isBadValue = true := herror.resolve_right fun hwrong => hstops hwrong.2
      refine ⟨fault, w', rfl, ?_⟩
      rw [run_of_error hreads hbuild, if_pos hbad]
  · intro title htitle hstops
    obtain ⟨w', hbuild⟩ : ∃ w', (build [] description).run {} = .error .wrongType w' :=
      build_of_stops Graph.Run.start.placed hshape htitle hstops
    rw [run_of_error hreads hbuild]
    rfl

end Descriptions

/-- A tone mapping with a gamma. -/
def brightNode (gamma : Value) : Value × Value :=
  (.text "tone", .dict [(.text "type", .text "ToneMappingNode"),
    (.text "config", .dict [(.text "gamma", gamma)])])

def brightened (gamma : Value) : Value :=
  .dict [(.text "pipeline", .dict [(.text "name", .text "p"),
    (.text "nodes", .dict [brightNode gamma])])]

theorem brightened_shaped {gamma : Value} (hgamma : gamma.IsScalar) :
    Shaped (brightened gamma) (.text "p") [brightNode gamma] [] := by
  refine ⟨.text "p", rfl, rfl, rfl, fun entry hentry => ?_, nofun⟩
  cases List.mem_singleton.mp hentry
  refine ⟨⟨_, rfl⟩, ⟨_, _, rfl, rfl, fun e he => ?_⟩, ⟨_, _, rfl, rfl, nofun⟩⟩
  cases List.mem_singleton.mp he
  exact hgamma

/-- A text has no order with the zero that a gamma is compared with. -/
theorem stopsUnordered_brightened :
    StopsUnordered defaultNodeTypes [brightNode (.text "bright")] := by
  refine ⟨[], _, [], rfl, nofun, .toneMapping, _, _, rfl, rfl, rfl, ?_⟩
  -- The method of the mapping is checked first and is kept.
  refine ⟨[_], _, [_], rfl, List.forall_mem_singleton.mpr rfl, ?_⟩
  rintro (⟨a, b, ha, -⟩ | ⟨s, t, -, ht⟩)
  · cases ha
  · cases ht

/-- Numbers have an order: what is wrong with a gamma of zero is said. -/
theorem not_stopsUnordered_brightened :
    ¬StopsUnordered defaultNodeTypes [brightNode (.int 0)] := by
  rintro ⟨before, entry, after, hentries, -, hentry⟩
  cases before with
  | cons e before => simp at hentries
  | nil =>
    cases hentries
    obtain ⟨kind, given, settings, hkind, hgiven, hsettings, hincomparable⟩ := hentry
    cases hkind
    cases hgiven
    cases hsettings
    have hscalars : Settings.Scalars [(.text "gamma", .int 0)] :=
      List.forall_mem_singleton.mpr (.number (.int 0))
    have hrefused : Settings.check .toneMapping (fun _ => .ok "")
        (NodeKind.toneMapping.settings 0 [(.text "gamma", .int 0)]) =
          .error (.refused .gamma) := by
      decide +kernel
    cases hrefused.symm.trans
      (Settings.check_of_incomparable (hscalars.settings .toneMapping 0) hincomparable)

/-- A text as gamma has no order with zero. The number zero has one, and it is a bad value. -/
theorem brightened_fails :
    (∃ w', (build [] (brightened (.text "bright"))).run {} = .error .wrongType w') ∧
      ∀ fault w', (build [] (brightened (.int 0))).run {} = .error fault w' →
        fault.isBadValue = true := by
  constructor
  · obtain ⟨-, hstops, -⟩ := build_fails (w := {}) Run.start (brightened_shaped (.text "bright"))
    exact hstops "p" rfl stopsUnordered_brightened
  · intro fault w' hrun
    obtain ⟨herror, -, -⟩ := build_fails (w := {}) Run.start (brightened_shaped (.number (.int 0)))
    refine (herror fault w' hrun).resolve_right fun hwrong => ?_
    exact not_stopsUnordered_brightened hwrong.2

/-- A gamma of the wrong type is no bad value, and the program ends without a report of it. -/
theorem brightened_aborts :
    (∃ w', (build [] (brightened (.text "bright"))).run {} = .error .wrongType w') ∧
      Fault.wrongType.isBadValue = false ∧
      ∀ o heading, Report.ofDescription o heading (brightened (.text "bright")) =
        ⟨heading, .abort .wrongType⟩ := by
  obtain ⟨w', hrun⟩ : ∃ w', (build [] (brightened (.text "bright"))).run {} = .error .wrongType w' :=
    build_of_stops Run.start.placed (brightened_shaped (.text "bright")) rfl
      stopsUnordered_brightened
  refine ⟨⟨w', hrun⟩, rfl, fun o heading => ?_⟩
  rw [Report.ofDescription, hrun]
  rfl

end FrameGraph.Description
