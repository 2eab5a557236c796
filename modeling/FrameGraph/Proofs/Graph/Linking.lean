import FrameGraph.Proofs.Graph.Unlinking
import FrameGraph.Proofs.Workspace

/-!
# Which ports can be linked

A request to link two ports goes through several checks, and some of them follow references to nodes
and pipelines that may be gone. The checks that come first make sure that the later ones find what
they look at, so a request that is turned away is always refused for a rule, and nothing has changed
by then.

* `Graph.Linkable`: the conditions under which two ports can be linked, whatever their order.
* `Graph.connect_refused`: a request that fails breaks a rule.
* `Workspace.link_all_or_nothing`: ports are linked exactly under these conditions, and otherwise
  everything stays as it is.
-/

namespace FrameGraph

namespace Graph

variable {g g' : Graph} {p : Ref .pipeline} {o i : Ref .port}

/-- The port is the registered one of its label on a node that exists and is in the pipeline. -/
structure Standing (g : Graph) (p : Ref .pipeline) (d : Direction) (q : Ref .port) : Prop where
  alive : (g.node (g.port q).node).alive = true
  home : (g.node (g.port q).node).pipeline = p
  registered : g.Registered p d q

/-- An output and an input of the pipeline fit together and are not linked yet. -/
structure Linkable (g : Graph) (p : Ref .pipeline) (o i : Ref .port) : Prop where
  held : (g.pipeline p).alive = true
  output : g.Standing p .output o
  input : g.Standing p .input i
  kinds : ∃ sender details, (g.port o).role = .output sender ∧ (g.port i).role = .input details ∧
    ¬(sender = .multiple ∧ details.kind = .multiple) ∧ ¬(sender = .single ∧ details.kind = .single)
  types : ∃ a ∈ (g.port o).accepts, ∃ b ∈ (g.port i).accepts, ∃ t, a.Denotes t ∧ b.Denotes t
  fresh : g.spelled o i ∉ (g.pipeline p).connections

/-! ## The conditions -/

theorem compatible_iff {outputs inputs : List Accepts} :
    compatible outputs inputs = true ↔
      ∃ a ∈ outputs, ∃ b ∈ inputs, ∃ t, a.Denotes t ∧ b.Denotes t := by
  simp only [compatible, List.any_eq_true, Accepts.meets_iff]

theorem kindsMatch_iff {out into : Port} :
    kindsMatch out into = true ↔ ∃ sender details, out.role = .output sender ∧
      into.role = .input details ∧ ¬(sender = .multiple ∧ details.kind = .multiple) ∧
      ¬(sender = .single ∧ details.kind = .single) := by
  unfold kindsMatch
  constructor
  · intro h
    split at h
    · next sender details ho hi =>
      refine ⟨sender, details, ho, hi, ?_, ?_⟩
      · rintro ⟨rfl, hkind⟩
        rw [hkind] at h
        cases h
      · rintro ⟨rfl, hkind⟩
        rw [hkind] at h
        cases h
    · cases h
  · rintro ⟨sender, details, ho, hi, hmultiple, hsingle⟩
    rw [ho, hi]
    dsimp only
    cases sender <;> cases hkind : details.kind <;> simp_all [SenderKind.feeds]

theorem samePipeline_iff (ho : g.pipelineOf? o = some p) :
    g.samePipeline o i = true ↔ g.pipelineOf? i = some p := by
  rw [samePipeline, ho]
  exact decide_eq_true_iff

theorem Standing.of_pipelineOf? {d : Direction} {q : Ref .port} (hq : g.pipelineOf? q = some p)
    (hcheck : g.checkRegistered p q = .ok ()) (hd : (g.port q).direction = d) :
    g.Standing p d q := by
  obtain ⟨halive, hhome, -⟩ := pipelineOf?_eq_some_iff.mp hq
  obtain ⟨hmember, hfound⟩ := checkRegistered_eq_ok.mp hcheck
  exact ⟨halive, hhome, hmember, hd ▸ hfound⟩

theorem Standing.pipelineOf? {d : Direction} {q : Ref .port} (hq : g.Standing p d q)
    (hp : (g.pipeline p).alive = true) : g.pipelineOf? q = some p :=
  pipelineOf?_eq_some_iff.mpr ⟨hq.alive, hq.home, hp⟩

theorem Standing.checkRegistered {q : Ref .port} (hq : g.Standing p (g.port q).direction q) :
    g.checkRegistered p q = .ok () :=
  checkRegistered_eq_ok.mpr ⟨hq.registered.member, hq.registered.found⟩

/-- The checks pass exactly if the conditions hold, and then the record that the ports spell is
appended. -/
theorem connect_eq_ok_iff {r : Graph × Connection} :
    g.connect p o i = .ok r ↔ g.Linkable p o i ∧
      r = (g.modifyPipeline p fun pipeline =>
        { pipeline with connections := pipeline.connections ++ [g.spelled o i] },
        g.spelled o i) := by
  obtain ⟨g', c⟩ := r
  rw [connect_eq_ok]
  constructor
  · rintro ⟨hpipeline, hcan, hc, ho, hi, hnew, rfl⟩
    obtain rfl : c = g.spelled o i := connectionOf_eq_ok hc
    obtain ⟨hout, hin, -⟩ := canConnect_roles hcan
    rw [canConnect, Bool.and_eq_true, Bool.and_eq_true, samePipeline_iff hpipeline,
      kindsMatch_iff, compatible_iff] at hcan
    obtain ⟨⟨hsame, hkinds⟩, htypes⟩ := hcan
    exact ⟨⟨(pipelineOf?_eq_some_iff.mp hpipeline).2.2, .of_pipelineOf? hpipeline ho hout,
      .of_pipelineOf? hsame hi hin, hkinds, htypes, hnew⟩, rfl⟩
  · rintro ⟨h, hr⟩
    cases hr
    obtain ⟨sender, details, hout, hin, -⟩ := h.kinds
    have hpipeline := h.output.pipelineOf? h.held
    refine ⟨hpipeline, ?_, connectionOf_of_alive h.output.alive h.input.alive,
      Standing.checkRegistered ?_, Standing.checkRegistered ?_, h.fresh, rfl⟩
    · rw [canConnect, Bool.and_eq_true, Bool.and_eq_true, samePipeline_iff hpipeline,
        kindsMatch_iff, compatible_iff]
      exact ⟨⟨h.input.pipelineOf? h.held, h.kinds⟩, h.types⟩
    · rw [Port.direction, hout]
      exact h.output
    · rw [Port.direction, hin]
      exact h.input

theorem Linkable.has (h : g.Linkable p o i) : g.pipelines.Has p := by
  by_contra hp
  have hmember := h.output.registered.member
  rw [isMember, decide_eq_true_eq, pipeline, Table.get_of_size_le _ (Nat.le_of_not_lt hp)] at hmember
  cases hmember

/-- Templates of port maps, copies and all other ports that are not registered cannot be linked. -/
theorem Linkable.listed (h : g.Linkable p o i) : ¬g.Unlisted o ∧ ¬g.Unlisted i :=
  ⟨not_unlisted_of_mem (mem_of_port? h.output.registered.found),
    not_unlisted_of_mem (mem_of_port? h.input.registered.found)⟩

/-! ## Refusals -/

theorem checkRegistered_refused {q : Ref .port} {fault : Fault}
    (h : g.checkRegistered p q = .error fault) :
    (∃ rule, fault = .refused rule) ∨ g.shown (g.pipeline p).name = .error fault := by
  unfold checkRegistered at h
  dsimp only at h
  split at h
  · rcases bind_eq_error.mp h with hname | ⟨_, -, h⟩
    · exact Or.inr hname
    · cases h
      exact Or.inl ⟨_, rfl⟩
  · split at h
    · cases h
      exact Or.inl ⟨_, rfl⟩
    · cases h

theorem exists_connectionOf (h : g.canConnect o i = true) : ∃ c, g.connectionOf o i = .ok c := by
  unfold canConnect samePipeline at h
  rw [Bool.and_eq_true, Bool.and_eq_true] at h
  obtain ⟨⟨hsame, -⟩, -⟩ := h
  split at hsame
  · cases hsame
  · next p ho =>
    have halive := (pipelineOf?_eq_some_iff.mp ho).1
    have halive' := (pipelineOf?_eq_some_iff.mp (of_decide_eq_true hsame)).1
    exact ⟨_, connectionOf_of_alive halive halive'⟩

/-- A request that fails is refused for a rule. The texts of some rules show the name of the pipeline,
and where a name cannot be shown this is the fault instead. -/
theorem connect_refused {fault : Fault} (h : g.connect p o i = .error fault) :
    (∃ rule, fault = .refused rule) ∨ g.shown (g.pipeline p).name = .error fault := by
  unfold connect at h
  dsimp only at h
  split at h
  · rcases bind_eq_error.mp h with hname | ⟨_, -, h⟩
    · exact Or.inr hname
    · cases h
      exact Or.inl ⟨_, rfl⟩
  · split at h
    · cases h
      exact Or.inl ⟨_, rfl⟩
    · next hcan =>
      -- Both nodes were found by now, so the record of the two ports is there.
      obtain ⟨c, hc⟩ := exists_connectionOf (o := o) (i := i) (by simpa using hcan)
      rcases bind_eq_error.mp h with hrecord | ⟨_, -, h⟩
      · cases hc.symm.trans hrecord
      · rcases bind_eq_error.mp h with ho | ⟨_, -, h⟩
        · exact checkRegistered_refused ho
        · rcases bind_eq_error.mp h with hi | ⟨_, -, h⟩
          · exact checkRegistered_refused hi
          · split at h
            · cases h
              exact Or.inl ⟨_, rfl⟩
            · cases h

theorem shown_text (g : Graph) (s : String) : g.shown (.text s) = .ok s := rfl

end Graph

namespace Workspace

open FrameGraph.Graph

variable {w : Workspace} {p : Ref .pipeline} {o i : Ref .port}

theorem link_of_ok {g' : Graph} {c : Connection} (h : w.graph.connect p o i = .ok (g', c)) :
    ∃ w', (link p o i).run w = .ok () w' ∧ w'.graph = g' ∧ w'.files = w.files := by
  simp only [link, run_get_bind, h]
  exact ⟨_, rfl, rfl, rfl⟩

/-- A request that fails leaves a record at most. -/
theorem link_of_error {fault : Fault} (h : w.graph.connect p o i = .error fault) :
    ∃ w', (link p o i).run w = .error fault w' ∧ w'.graph = w.graph ∧ w'.files = w.files := by
  simp only [link, run_get_bind, h]
  split <;> exact ⟨_, rfl, rfl, rfl⟩

/-- Two ports are linked exactly if they are an output and an input of the pipeline that fit together
and are not linked yet. Then one record is appended to the connections of the pipeline. Otherwise the
request is refused, graph and files are as they were, and no reference that is gone is ever followed;
only a name that cannot be shown, which a text always can, comes before the refusal. -/
theorem link_all_or_nothing (w : Workspace) (p : Ref .pipeline) (o i : Ref .port) :
    (w.graph.Linkable p o i → ∃ w', (link p o i).run w = .ok () w' ∧ w'.files = w.files ∧
        w'.graph = w.graph.modifyPipeline p (fun pipeline =>
          { pipeline with connections := pipeline.connections ++ [w.graph.spelled o i] }) ∧
        (w'.graph.pipeline p).connections =
          (w.graph.pipeline p).connections ++ [w.graph.spelled o i]) ∧
      (¬w.graph.Linkable p o i → ∃ fault w', (link p o i).run w = .error fault w' ∧
        w'.files = w.files ∧ w'.graph = w.graph ∧
        ((∃ rule, fault = .refused rule) ∨
          w.graph.shown (w.graph.pipeline p).name = .error fault) ∧
        ∀ name, (w.graph.pipeline p).name = .text name → ∃ rule, fault = .refused rule) ∧
      (w.graph.Unlisted o ∨ w.graph.Unlisted i → ¬w.graph.Linkable p o i) := by
  refine ⟨fun h => ?_, fun h => ?_, fun hunlisted h => ?_⟩
  · obtain ⟨w', hrun, hgraph, hfiles⟩ := link_of_ok (connect_eq_ok_iff.mpr ⟨h, rfl⟩)
    refine ⟨w', hrun, hfiles, hgraph, ?_⟩
    rw [hgraph, pipeline_modifyPipeline_self h.has]
  · cases hresult : w.graph.connect p o i with
    | ok r => exact absurd (connect_eq_ok_iff.mp hresult).1 h
    | error fault =>
      obtain ⟨w', hrun, hgraph, hfiles⟩ := link_of_error hresult
      have hcause := connect_refused hresult
      refine ⟨fault, w', hrun, hfiles, hgraph, hcause, fun name hname => ?_⟩
      refine hcause.resolve_right ?_
      rw [hname, shown_text]
      exact nofun
  · exact hunlisted.elim h.listed.1 h.listed.2

/-- The second node can be linked back to the first one, but the first one not to a node of the other
pipeline, although the records of that pipeline would name it the same way. -/
theorem crossed_link :
    (let w : Workspace := { graph := (Operation.afterAll ({}, []) crossed).1 }
     (∃ w', (link ⟨0⟩ ⟨3⟩ ⟨0⟩).run w = .ok () w' ∧ (w'.graph.pipeline ⟨0⟩).connections =
        [⟨0, ⟨"", "output"⟩, 1, ⟨"", "input"⟩⟩, ⟨1, ⟨"", "output"⟩, 0, ⟨"", "input"⟩⟩]) ∧
      ∃ rule w', (link ⟨0⟩ ⟨1⟩ ⟨6⟩).run w = .error (.refused rule) w' ∧ w'.graph = w.graph) := by
  intro w
  refine ⟨?_, ?_⟩
  · have hlinkable : w.graph.Linkable ⟨0⟩ ⟨3⟩ ⟨0⟩ := by
      have hsome : (w.graph.connect ⟨0⟩ ⟨3⟩ ⟨0⟩).toOption.isSome = true := by decide +kernel
      cases hresult : w.graph.connect ⟨0⟩ ⟨3⟩ ⟨0⟩ with
      | ok r => exact (connect_eq_ok_iff.mp hresult).1
      | error fault =>
        rw [hresult] at hsome
        cases hsome
    obtain ⟨w', hrun, -, -, hconnections⟩ := (link_all_or_nothing w ⟨0⟩ ⟨3⟩ ⟨0⟩).1 hlinkable
    refine ⟨w', hrun, hconnections.trans ?_⟩
    decide +kernel
  · have hhome : ¬w.graph.Linkable ⟨0⟩ ⟨1⟩ ⟨6⟩ := fun h =>
      absurd h.input.home (by decide +kernel)
    obtain ⟨fault, w', hrun, -, hgraph, -, htext⟩ :=
      (link_all_or_nothing w ⟨0⟩ ⟨1⟩ ⟨6⟩).2.1 hhome
    obtain ⟨rule, rfl⟩ := htext "p" rfl
    exact ⟨rule, w', hrun, hgraph⟩

end Workspace

end FrameGraph
