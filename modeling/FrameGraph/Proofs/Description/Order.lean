import FrameGraph.Proofs.Description.Acceptance
import Mathlib.Data.List.Perm.Basic

/-!
# Connections in any order

A connection may ask a map for a port that another one has asked for before, and it is put behind the
ones before it. So the order in which connections are written can be seen in the order of ports and
connections, but in nothing else: whether the description is accepted and which pipeline it gives is
a matter of what is written.

* `Accepted.perm`: a description is accepted with its connections in any order.
* `Linked.view_perm`: the pipelines that connections in two orders give.
* `build_in_any_order`: which descriptions are accepted, and what the order of connections changes.
-/

namespace FrameGraph.Description

open FrameGraph.Graph Workspace

variable {g g' g'' : Graph} {types : NodeTypes} {name : Value} {entries : Entries} {b : Built}
  {items items' : List Value} {ends ends' : List (EndpointSpec × EndpointSpec)}

theorem exists_ends_perm (hitems : items.Perm items')
    (hread : List.Forall₂ (fun item e => endpoints item = .ok e) items ends) :
    ∃ ends', List.Forall₂ (fun item e => endpoints item = .ok e) items' ends' ∧ ends.Perm ends' := by
  obtain ⟨ends', hread', hends⟩ := List.perm_comp_forall₂ hitems.symm hread
  exact ⟨ends', hread', hends.symm⟩

theorem ends_perm (hitems : items.Perm items')
    (hread : List.Forall₂ (fun item e => endpoints item = .ok e) items ends)
    (hread' : List.Forall₂ (fun item e => endpoints item = .ok e) items' ends') :
    ends.Perm ends' := by
  obtain ⟨ends'', hread'', hends⟩ := exists_ends_perm hitems hread
  have hunique : Relator.RightUnique fun item e => endpoints item = .ok e := fun item e e' he he' =>
    Except.ok.inj (he.symm.trans he')
  rwa [List.right_unique_forall₂' hunique hread'' hread'] at hends

theorem Accepted.perm (h : Accepted types entries items) (hitems : items.Perm items') :
    Accepted types entries items' := by
  obtain ⟨ends, hread, hconnectable, hnodup⟩ := h.connections
  obtain ⟨ends', hread', hends⟩ := exists_ends_perm hitems hread
  exact ⟨h.nodes, ends', hread', fun e he => hconnectable e (hends.mem_iff.mpr he),
    hends.nodup_iff.mp hnodup⟩

/-- Connections in two orders, made in one pipeline with its nodes. -/
theorem Linked.view_perm (hbuilding : Building types name entries g b [])
    (h : Linked types name entries b [] items ends g g')
    (h' : Linked types name entries b [] items' ends' g g'') (hitems : items.Perm items') :
    (g'.pipelineView b.pipeline).SameUpToOrder (g''.pipelineView b.pipeline) := by
  have hends := ends_perm hitems h.read h'.read
  have hasked : ∀ r, r ∈ ends.flatMap (requests b) ↔ r ∈ ends'.flatMap (requests b) := fun r =>
    (hends.flatMap_right (requests b)).mem_iff
  obtain ⟨logName, hrow⟩ := h.building.row
  obtain ⟨logName', hrow'⟩ := h'.building.row
  refine ⟨?_, ?_, ?_, ?_⟩
  · simp only [pipelineView, hrow, hrow']
  · simp only [pipelineView, h.building.nodes, h'.building.nodes]
    rw [List.forall₂_map_left_iff, List.forall₂_map_right_iff, List.forall₂_same]
    intro e he
    obtain ⟨⟨e', i⟩, he', rfl⟩ := List.mem_map.mp he
    obtain ⟨hhoused, -⟩ := hbuilding.node_at (List.mem_zipIdx_iff_getElem?.mp he')
    exact h.grown.nodeView hbuilding.sound h'.grown h.building.sound h'.building.sound hasked
      hhoused.equipped
  · simp only [pipelineView, h.building.connections, h'.building.connections, List.nil_append]
    exact hends.map _
  · simp only [pipelineView, hrow, hrow']

/-- A description is accepted exactly if each of its nodes is, if its connections can be made between
the nodes by what their kinds declare, and if no two of these have the same ends. So the order of the
connections makes no difference to that. It makes none to the pipeline either, except that ports that
maps have made, and connections, may come in another order. -/
theorem build_in_any_order {w : Workspace} {h : History} (hrun : Graph.Run w.graph h)
    (types : NodeTypes) {description : Value} {name : String} {entries : Entries}
    {items : List Value} (hsaid : Says description name entries items) :
    ((∃ b w', (build types description).run w = .ok b w') ↔
      Accepted (if types = [] then defaultNodeTypes else types) entries items) ∧
    ∀ {description' : Value} {items' : List Value}, Says description' name entries items' →
      items.Perm items' →
      ((∃ b w', (build types description).run w = .ok b w') ↔
        ∃ b w', (build types description').run w = .ok b w') ∧
      ∀ {b b' : Built} {w₁ w₂ : Workspace}, (build types description).run w = .ok b w₁ →
        (build types description').run w = .ok b' w₂ →
        b' = b ∧ (w₁.graph.pipelineView b.pipeline).SameUpToOrder
          (w₂.graph.pipelineView b.pipeline) := by
  refine ⟨build_succeeds_iff hrun.placed hsaid, fun hsaid' hitems => ⟨?_, fun hbuild hbuild' => ?_⟩⟩
  · rw [build_succeeds_iff hrun.placed hsaid, build_succeeds_iff hrun.placed hsaid']
    exact ⟨fun h => h.perm hitems, fun h => h.perm hitems.symm⟩
  · obtain ⟨_, _, _, p, v₁, v₂, v₃, _, hname, hentries, hwritten, hnew, hmake, hlink, -, rfl⟩ :=
      build_run_iff.mp hbuild
    obtain ⟨_, _, _, p', v₁', v₂', v₃', _, hname', hentries', hwritten', hnew', hmake', hlink', -,
      rfl⟩ := build_run_iff.mp hbuild'
    cases hsaid.name.symm.trans hname
    cases hsaid.nodes.symm.trans hentries
    cases hsaid.connections.symm.trans hwritten
    cases hsaid'.name.symm.trans hname'
    cases hsaid'.nodes.symm.trans hentries'
    cases hsaid'.connections.symm.trans hwritten'
    -- Up to the connections, the two attempts are one.
    cases hnew.symm.trans hnew'
    cases hmake.symm.trans hmake'
    have hstart := newPipeline_building (if types = [] then defaultNodeTypes else types)
      hrun.placed (newPipeline_ok hnew)
    obtain ⟨-, hmade⟩ := buildNodes_ok hstart hmake
    obtain ⟨_, hlinked⟩ := buildConnections_ok hmade hlink
    obtain ⟨_, hlinked'⟩ := buildConnections_ok hmade hlink'
    exact ⟨rfl, Linked.view_perm hmade hlinked hlinked' hitems⟩

/-- A camera whose frames go to two inputs of one map, one of which was set up before. -/
def pairedFeeds (connections : List Value) : Value :=
  .dict [(.text "pipeline", .dict [
    (.text "name", .text "paired"),
    (.text "nodes", .dict [
      (.text "camera", .dict [(.text "type", .text "RawInputNode")]),
      (.text "sync", .dict [(.text "type", .text "FrameSyncNode"),
        (.text "inputs", .dict [(.text "inputs[left]",
          .dict [(.text "queue_size", .int 2), (.text "blocking", .bool false)])])])]),
    (.text "connections", .list connections)])]

def leftFeed : Value :=
  .dict [(.text "from", .text "camera.raw"), (.text "to", .text "sync.inputs[left]")]

def rightFeed : Value :=
  .dict [(.text "from", .text "camera.raw"), (.text "to", .text "sync.inputs[\"right\"]")]

theorem pairedFeeds_in_any_order : ∃ entries,
    Accepted defaultNodeTypes entries [leftFeed, rightFeed] ∧ ∃ b w₁ w₂,
      (build [] (pairedFeeds [leftFeed, rightFeed])).run {} = .ok b w₁ ∧
      (build [] (pairedFeeds [rightFeed, leftFeed])).run {} = .ok b w₂ ∧
      (w₁.graph.pipelineView b.pipeline).SameUpToOrder (w₂.graph.pipelineView b.pipeline) := by
  obtain ⟨entries, hsaid, hsaid'⟩ : ∃ entries,
      Says (pairedFeeds [leftFeed, rightFeed]) "paired" entries [leftFeed, rightFeed] ∧
        Says (pairedFeeds [rightFeed, leftFeed]) "paired" entries [rightFeed, leftFeed] :=
    ⟨_, ⟨rfl, rfl, rfl⟩, rfl, rfl, rfl⟩
  obtain ⟨hiff, horder⟩ := build_in_any_order (w := {}) .start [] hsaid
  obtain ⟨b, w₁, hbuild⟩ : ∃ b w, (build [] (pairedFeeds [leftFeed, rightFeed])).run {} = .ok b w :=
    exists_run_ok (by decide +kernel)
  obtain ⟨b', w₂, hbuild'⟩ : ∃ b w,
      (build [] (pairedFeeds [rightFeed, leftFeed])).run {} = .ok b w :=
    exists_run_ok (by decide +kernel)
  obtain ⟨-, hviews⟩ := horder hsaid' (.swap rightFeed leftFeed [])
  obtain ⟨rfl, hview⟩ := hviews hbuild hbuild'
  exact ⟨entries, hiff.mp ⟨b', w₁, hbuild⟩, b', w₁, w₂, hbuild, hbuild', hview⟩

/-- Two spellings of one label are the same end. -/
example : succeeds (build [] (pairedFeeds [leftFeed,
    .dict [(.text "from", .text "camera.raw"), (.text "to", .text "sync.inputs[ 'left' ]")]])) {} =
    false := by
  decide +kernel

end FrameGraph.Description
