import FrameGraph.Proofs.Graph.Placement

/-!
# Unlinking by record

A connection is removed by its record, two ids of nodes and two labels. Linking looks at the ports
themselves, but unlinking does not, and every pipeline numbers its nodes from zero: ports of other
pipelines can spell a connection of this one.

* `Graph.Joined`: two ports of a pipeline are linked.
* `run_disconnect_spelled`: unlinking two ports removes a connection exactly if two ports that are
  linked in the pipeline spell the same record. If one of the former belongs to another pipeline, the
  latter are other ports.
* `crossed_disconnect`: a link is lost although nobody asked for it.
-/

namespace FrameGraph.Graph

variable {g g' : Graph}

/-- The record that two ports spell. -/
def spelled (g : Graph) (o i : Ref .port) : Connection :=
  ⟨(g.node (g.port o).node).id, (g.port o).label, (g.node (g.port i).node).id, (g.port i).label⟩

/-- The port is the one found under its label on a node of the pipeline. -/
structure Registered (g : Graph) (p : Ref .pipeline) (d : Direction) (q : Ref .port) : Prop where
  member : g.isMember p (g.port q).node = true
  found : g.port? (g.port q).node d (g.port q).label = some q

/-- Two ports of a pipeline are linked. -/
structure Joined (g : Graph) (p : Ref .pipeline) (o i : Ref .port) : Prop where
  output : g.Registered p .output o
  input : g.Registered p .input i
  listed : g.spelled o i ∈ (g.pipeline p).connections

/-! ## What is removed -/

theorem Registered.pipeline {h : History} (hrun : Run g h) {p : Ref .pipeline} {d : Direction}
    {q : Ref .port} (hq : g.Registered p d q) : (g.node (g.port q).node).pipeline = p := by
  have hmember := hq.member
  rw [isMember, decide_eq_true_eq] at hmember
  have hcreated := (hrun.recorded p).created_of_node? hmember
  exact hrun.homed.node p _ (List.mem_of_getElem? hcreated)

/-- Every connection of a pipeline is that of two ports that are linked in it. -/
theorem exists_joined {h : History} (hrun : Run g h) {p : Ref .pipeline} {c : Connection}
    (hc : c ∈ (g.pipeline p).connections) : ∃ o i, g.Joined p o i ∧ g.spelled o i = c := by
  have hv := hrun.valid
  have hh := hrun.homed
  obtain ⟨no, ni, ho, hi⟩ := hv.attached p c hc
  obtain ⟨o, i, hlink⟩ := hv.link_of_mem hc
  obtain ⟨⟨homem, holabel⟩, himem, hilabel, -⟩ := hv.ports hlink ho hi
  have honode : no = (g.port o).node := by
    have hcreated := (hv.recorded p).created_of_node? ho
    rw [hh.output p o i c hlink] at hcreated
    exact (Option.some.inj hcreated).symm
  have hinode : ni = (g.port i).node := by
    have hcreated := (hv.recorded p).created_of_node? hi
    rw [hh.input p o i c hlink] at hcreated
    exact (Option.some.inj hcreated).symm
  have hoid := hv.id_of_node? ho
  have hiid := hv.id_of_node? hi
  subst honode hinode
  have hspelled : g.spelled o i = c := by
    rw [spelled, hoid, hiid, holabel, hilabel]
  refine ⟨o, i, ⟨⟨?_, hv.sound.port?_of_mem homem⟩, ⟨?_, hv.sound.port?_of_mem himem⟩, ?_⟩, hspelled⟩
  · rw [isMember, decide_eq_true_eq, hoid]
    exact ho
  · rw [isMember, decide_eq_true_eq, hiid]
    exact hi
  · rw [hspelled]
    exact hc

theorem connectionOf_of_alive {o i : Ref .port} (ho : (g.node (g.port o).node).alive = true)
    (hi : (g.node (g.port i).node).alive = true) : g.connectionOf o i = .ok (g.spelled o i) := by
  rw [connectionOf, owner_of_alive ho, owner_of_alive hi]
  rfl

theorem disconnect_of_mem {p : Ref .pipeline} {o i : Ref .port}
    (hc : g.connectionOf o i = .ok (g.spelled o i))
    (hmem : g.spelled o i ∈ (g.pipeline p).connections) :
    g.disconnect p o i = .ok (g.modifyPipeline p fun pipeline =>
      { pipeline with connections := pipeline.connections.erase (g.spelled o i) },
      g.spelled o i, true) := by
  rw [disconnect, hc]
  exact if_pos hmem

theorem disconnect_of_not_mem {p : Ref .pipeline} {o i : Ref .port}
    (hc : g.connectionOf o i = .ok (g.spelled o i))
    (hmem : g.spelled o i ∉ (g.pipeline p).connections) :
    g.disconnect p o i = .ok (g, g.spelled o i, false) := by
  rw [disconnect, hc]
  exact if_neg hmem

/-- Unlinking two ports whose nodes still exist. A connection is removed exactly if two ports are
linked in the pipeline that spell the same record, and then it is this one alone. If one of the two
ports belongs to another pipeline, it is a link of other ports that is lost. -/
theorem run_disconnect_spelled {h : History} (hrun : Run g h) (p : Ref .pipeline) {o i : Ref .port}
    (ho : (g.node (g.port o).node).alive = true) (hi : (g.node (g.port i).node).alive = true) :
    ∃ g' removed, g.disconnect p o i = .ok (g', g.spelled o i, removed) ∧
      (removed = true ↔ ∃ o' i', g.Joined p o' i' ∧ g.spelled o' i' = g.spelled o i) ∧
      (removed = true → g' = g.modifyPipeline p fun pipeline =>
        { pipeline with connections := pipeline.connections.erase (g.spelled o i) }) ∧
      (removed = false → g' = g) ∧
      ((g.node (g.port o).node).pipeline ≠ p ∨ (g.node (g.port i).node).pipeline ≠ p →
        ∀ o' i', g.Joined p o' i' → o' ≠ o ∨ i' ≠ i) := by
  have hc := connectionOf_of_alive ho hi
  have hforeign : (g.node (g.port o).node).pipeline ≠ p ∨ (g.node (g.port i).node).pipeline ≠ p →
      ∀ o' i', g.Joined p o' i' → o' ≠ o ∨ i' ≠ i := by
    rintro hforeign o' i' hjoined
    refine hforeign.imp (fun hne heq => ?_) fun hne heq => ?_
    · subst heq
      exact hne (hjoined.output.pipeline hrun)
    · subst heq
      exact hne (hjoined.input.pipeline hrun)
  by_cases hmem : g.spelled o i ∈ (g.pipeline p).connections
  · refine ⟨_, true, disconnect_of_mem hc hmem, ?_, fun _ => rfl, nofun, hforeign⟩
    exact ⟨fun _ => exists_joined hrun hmem, fun _ => rfl⟩
  · refine ⟨g, false, disconnect_of_not_mem hc hmem, ?_, nofun, fun _ => rfl, hforeign⟩
    refine ⟨nofun, ?_⟩
    rintro ⟨o', i', hjoined, hspelled⟩
    rw [← hspelled] at hmem
    exact absurd hjoined.listed hmem

/-- Two pipelines with two nodes each, and one link in the first. -/
def crossed : List Operation :=
  [.newPipeline (.text "p"), .newPipeline (.text "q"), .create ⟨0⟩ .processingNode .null,
    .create ⟨0⟩ .processingNode .null, .create ⟨1⟩ .processingNode .null,
    .create ⟨1⟩ .processingNode .null, .link ⟨0⟩ ⟨1⟩ ⟨2⟩]

theorem run_crossed :
    Run (Operation.afterAll ({}, []) crossed).1 (Operation.afterAll ({}, []) crossed).2 := by
  refine Run.start.all ⟨trivial, trivial, ?_, ?_, ?_, ?_, ?_, trivial⟩
  all_goals
    simp only [Operation.Fits]
    decide

/-- The input is on the second node of the other pipeline and was never linked, but the link of the
first pipeline to its own second node is gone. -/
theorem crossed_disconnect :
    (let g := (Operation.afterAll ({}, []) crossed).1
     g.pipelineOf? ⟨1⟩ = some ⟨0⟩ ∧ g.pipelineOf? ⟨6⟩ = some ⟨1⟩ ∧
      (g.pipeline ⟨0⟩).connections = [⟨0, ⟨"", "output"⟩, 1, ⟨"", "input"⟩⟩] ∧
      (g.disconnect ⟨0⟩ ⟨1⟩ ⟨6⟩).toOption.map (fun r => (r.2.2, (r.1.pipeline ⟨0⟩).connections)) =
        some (true, [])) := by
  decide +kernel

theorem crossed_disconnect_spelled :
    (let g := (Operation.afterAll ({}, []) crossed).1
     ∃ g', g.disconnect ⟨0⟩ ⟨1⟩ ⟨6⟩ = .ok (g', g.spelled ⟨1⟩ ⟨6⟩, true) ∧
      (g'.pipeline ⟨1⟩).connections = (g.pipeline ⟨1⟩).connections ∧
      ∃ o i, g.Joined ⟨0⟩ o i ∧ g.spelled o i = g.spelled ⟨1⟩ ⟨6⟩ ∧ (o ≠ ⟨1⟩ ∨ i ≠ ⟨6⟩)) := by
  intro g
  obtain ⟨g', removed, hdone, hremoved, hchanged, hkept, hforeign⟩ :=
    run_disconnect_spelled run_crossed ⟨0⟩ (o := ⟨1⟩) (i := ⟨6⟩) (by decide +kernel)
      (by decide +kernel)
  have hmem : g.spelled ⟨1⟩ ⟨6⟩ ∈ (g.pipeline ⟨0⟩).connections := by decide +kernel
  obtain ⟨o, i, hjoined, hspelled⟩ := exists_joined run_crossed hmem
  have htrue : removed = true := hremoved.mpr ⟨o, i, hjoined, hspelled⟩
  subst htrue
  refine ⟨g', hdone, ?_, o, i, hjoined, hspelled, hforeign ?_ o i hjoined⟩
  · rw [hchanged rfl, pipeline_modifyPipeline, if_neg fun hc => by cases hc.1]
  · decide +kernel

end FrameGraph.Graph
