import FrameGraph.Proofs.Graph.Decomposition

/-!
# What operations leave alone

An operation writes few parts of a graph: the tables of ports, queues and port maps, and single
columns in the rows of pipelines and nodes. What a pipeline lists is not among the parts, since its
history says what becomes of it.

* `Part`: the parts, `Operation.written`: those that an operation may write.
* `Operation.framed`: all other parts are as they were.
* `Quiet`, `Operation.quiet`: most operations leave the registries of a node and the entries of port
  maps alone.
-/

namespace FrameGraph

/-- The parts of a graph that operations write. -/
inductive Part where
  /-- The shelves of pipelines and nodes, and whose they are. -/
  | shelves
  /-- The kinds and the settings of nodes. -/
  | settings
  /-- The registries of nodes. -/
  | registries
  | ports
  | queues
  | portMaps
  deriving DecidableEq

namespace Graph

variable {g g' g'' : Graph} {written : List Part}

/-- The part is as it was. -/
def Same (g g' : Graph) : Part → Prop
  | .shelves =>
    (∀ p, (g'.pipelines.Has p ↔ g.pipelines.Has p) ∧ (g'.pipeline p).shelf = (g.pipeline p).shelf) ∧
      ∀ n, (g'.nodes.Has n ↔ g.nodes.Has n) ∧ (g'.node n).shelf = (g.node n).shelf ∧
        (g'.node n).id = (g.node n).id
  | .settings => ∀ n, (g'.nodes.Has n ↔ g.nodes.Has n) ∧ (g'.node n).kind = (g.node n).kind ∧
      (g'.node n).settings = (g.node n).settings
  | .registries => ∀ n d, (g'.node n).registry d = (g.node n).registry d
  | .ports => g'.ports = g.ports
  | .queues => g'.queues = g.queues
  | .portMaps => g'.portMaps = g.portMaps

/-- All parts are as they were that are not listed. -/
def Framed (written : List Part) (g g' : Graph) : Prop :=
  ∀ part, written.contains part = false → g.Same g' part

namespace Framed

/-- No row of a pipeline or a node was written. -/
theorem of_rows (hpipelines : g'.pipelines = g.pipelines) (hnodes : g'.nodes = g.nodes)
    (hports : written.contains .ports = true ∨ g'.ports = g.ports)
    (hqueues : written.contains .queues = true ∨ g'.queues = g.queues)
    (hportMaps : written.contains .portMaps = true ∨ g'.portMaps = g.portMaps) :
    Framed written g g' := by
  have hpipeline : ∀ p, g'.pipeline p = g.pipeline p := fun p => by
    rw [Graph.pipeline, hpipelines]
    rfl
  have hnode : ∀ n, g'.node n = g.node n := fun n => by
    rw [Graph.node, hnodes]
    rfl
  intro part hpart
  cases part with
  | shelves => simp [Same, hpipelines, hnodes, hpipeline, hnode]
  | settings => simp [Same, hnodes, hnode]
  | registries => simp [Same, hnode]
  | ports => exact hports.resolve_left (Bool.eq_false_iff.mp hpart)
  | queues => exact hqueues.resolve_left (Bool.eq_false_iff.mp hpart)
  | portMaps => exact hportMaps.resolve_left (Bool.eq_false_iff.mp hpart)

theorem refl (written : List Part) (g : Graph) : Framed written g g :=
  .of_rows rfl rfl (.inr rfl) (.inr rfl) (.inr rfl)

theorem trans (h : Framed written g g') (h' : Framed written g' g'') : Framed written g g'' := by
  intro part hpart
  have hfirst := h part hpart
  have hsecond := h' part hpart
  cases part with
  | shelves =>
    refine ⟨fun p => ?_, fun n => ?_⟩
    · obtain ⟨hhas, hshelf⟩ := hfirst.1 p
      obtain ⟨hhas', hshelf'⟩ := hsecond.1 p
      exact ⟨hhas'.trans hhas, hshelf'.trans hshelf⟩
    · obtain ⟨hhas, hshelf, hid⟩ := hfirst.2 n
      obtain ⟨hhas', hshelf', hid'⟩ := hsecond.2 n
      exact ⟨hhas'.trans hhas, hshelf'.trans hshelf, hid'.trans hid⟩
  | settings =>
    intro n
    obtain ⟨hhas, hkind, hsettings⟩ := hfirst n
    obtain ⟨hhas', hkind', hsettings'⟩ := hsecond n
    exact ⟨hhas'.trans hhas, hkind'.trans hkind, hsettings'.trans hsettings⟩
  | registries => exact fun n d => (hsecond n d).trans (hfirst n d)
  | ports | queues | portMaps => exact Eq.trans hsecond hfirst

/-- Rows of pipelines were written. -/
theorem of_pipelines {pipelines : Table .pipeline Pipeline}
    (hshelves : written.contains .shelves = true ∨ ∀ p,
      (pipelines.Has p ↔ g.pipelines.Has p) ∧ (pipelines.get p).shelf = (g.pipeline p).shelf) :
    Framed written g { g with pipelines } := by
  intro part hpart
  cases part with
  | shelves =>
    exact ⟨hshelves.resolve_left (Bool.eq_false_iff.mp hpart), fun _ => ⟨.rfl, rfl, rfl⟩⟩
  | settings => exact fun _ => ⟨.rfl, rfl, rfl⟩
  | registries => exact fun _ _ => rfl
  | ports | queues | portMaps => rfl

theorem modifyPipeline (p : Ref .pipeline) {f : Pipeline → Pipeline}
    (hf : written.contains .shelves = true ∨ ∀ pipeline, (f pipeline).shelf = pipeline.shelf) :
    Framed written g (g.modifyPipeline p f) := by
  refine .of_pipelines (hf.imp_right fun hf q => ⟨Table.has_modify, ?_⟩)
  refine (congrArg Pipeline.shelf (g.pipeline_modifyPipeline p q f)).trans ?_
  split
  · exact hf _
  · rfl

/-- The row of a node was written. -/
theorem modifyNode (n : Ref .node) {f : Node → Node}
    (hfixed : ∀ node, (f node).id = node.id ∧ (f node).kind = node.kind)
    (hshelf : written.contains .shelves = true ∨ ∀ node, (f node).shelf = node.shelf)
    (hsettings : written.contains .settings = true ∨ ∀ node, (f node).settings = node.settings)
    (hregistries : written.contains .registries = true ∨
      ∀ node d, (f node).registry d = node.registry d) :
    Framed written g (g.modifyNode n f) := by
  have hrow : ∀ m, (g.modifyNode n f).node m = g.node m ∨
      (g.modifyNode n f).node m = f (g.node m) := fun m => by
    rw [node_modifyNode]
    split
    · exact Or.inr rfl
    · exact Or.inl rfl
  intro part hpart
  have hnot := Bool.eq_false_iff.mp hpart
  cases part with
  | shelves =>
    refine ⟨fun _ => ⟨.rfl, rfl⟩, fun m => ⟨Table.has_modify, ?_⟩⟩
    rcases hrow m with hm | hm <;> rw [hm]
    · exact ⟨rfl, rfl⟩
    · exact ⟨hshelf.resolve_left hnot _, (hfixed _).1⟩
  | settings =>
    refine fun m => ⟨Table.has_modify, ?_⟩
    rcases hrow m with hm | hm <;> rw [hm]
    · exact ⟨rfl, rfl⟩
    · exact ⟨(hfixed _).2, hsettings.resolve_left hnot _⟩
  | registries =>
    intro m d
    rcases hrow m with hm | hm <;> rw [hm]
    exact hregistries.resolve_left hnot _ d
  | ports | queues | portMaps => rfl

end Framed

/-! ## What is written -/

theorem Made.framed {n : Ref .node} {l : PortLabel} {r : Graph × Ref .port} (h : g.Made n l r) :
    Framed [.ports, .queues] g r.1 :=
  .of_rows h.pipelines h.nodes (.inl rfl) (.inl rfl) (.inr h.portMaps)

theorem Tuned.framed {p : Ref .port} (h : g.Tuned p g') : Framed [.ports, .queues] g g' :=
  .of_rows h.pipelines h.nodes (.inl rfl) (.inl rfl) (.inr h.portMaps)

theorem Fills.framed (h : g.Fills g') : Framed [.queues] g g' :=
  .of_rows h.refilled.pipelines h.refilled.nodes (.inr h.refilled.ports) (.inl rfl)
    (.inr h.refilled.portMaps)

theorem Noted.framed {p : Ref .pipeline} {e : Event} (h : g.Noted p e g') : Framed [] g g' := by
  cases h <;> exact .modifyPipeline p (.inr fun _ => rfl)

theorem newPipeline_framed {name : Value} {r : Graph × Ref .pipeline}
    (h : g.newPipeline name = .ok r) : Framed [.shelves] g r.1 := by
  obtain ⟨logName, -, h⟩ := bind_eq_ok.mp h
  cases h
  exact .of_pipelines (.inl rfl)

theorem remove_framed {p : Ref .pipeline} (hp : g.pipelines.Has p) (n : Ref .node) :
    Framed [] g (g.remove p n).1 := by
  rcases remove_noted hp n with ⟨-, hnoted⟩ | ⟨-, hsame⟩
  · exact hnoted.framed
  · rw [hsame]
    exact .refl _ g

theorem disconnect_framed {p : Ref .pipeline} (hp : g.pipelines.Has p) {o i : Ref .port}
    {r : Graph × Connection × Bool} (h : g.disconnect p o i = .ok r) : Framed [] g r.1 := by
  rcases disconnect_eq_ok hp h with ⟨-, hnoted⟩ | ⟨-, hsame⟩
  · exact hnoted.framed
  · rw [hsame]
    exact .refl _ g

theorem setRegistry_framed (n : Ref .node) (d : Direction) (r : Registry) :
    Framed [.registries] g (g.modifyNode n fun node => node.setRegistry d r) :=
  .modifyNode n (fun _ => ⟨Node.setRegistry_id _ _ _, Node.setRegistry_kind _ _ _⟩)
    (.inr fun _ => Node.setRegistry_shelf _ _ _) (.inr fun _ => Node.setRegistry_settings _ _ _)
    (.inl rfl)

theorem registerPort_framed {n : Ref .node} {d : Direction} {p : Ref .port}
    (h : g.registerPort n d p = .ok g') : Framed [.registries] g g' := by
  obtain ⟨r, -, h⟩ := bind_eq_ok.mp h
  cases h
  exact setRegistry_framed n d r

theorem registerMap_framed {n : Ref .node} {d : Direction} {m : Ref .portMap}
    (h : g.registerMap n d m = .ok g') : Framed [.registries] g g' := by
  obtain ⟨r, -, h⟩ := bind_eq_ok.mp h
  cases h
  exact setRegistry_framed n d r

theorem getOrCreate_framed {m : Ref .portMap} {key : String} {r : Graph × Ref .port}
    (h : g.getOrCreate m key = .ok r) : Framed [.ports, .queues, .portMaps] g r.1 := by
  obtain ⟨g', p⟩ := r
  rcases getOrCreate_cases h with ⟨-, rfl⟩ | ⟨-, g₁, -, hmade, rfl⟩
  · exact .refl _ g'
  · exact .of_rows hmade.pipelines hmade.nodes (.inl rfl) (.inl rfl) (.inl rfl)

theorem newQueue_framed {name : String} {size blocking : Value} {r : Graph × Ref .queue}
    (h : g.newQueue name size blocking = .ok r) : Framed [.queues] g r.1 := by
  obtain ⟨queue, -, h⟩ := bind_eq_ok.mp h
  cases h
  exact .of_rows rfl rfl (.inr rfl) (.inl rfl) (.inr rfl)

theorem setSettings_framed (n : Ref .node) (v : Value) :
    Framed [.settings] g (g.setSettings n v).1 := by
  rw [setSettings_eq]
  exact .modifyNode n (fun _ => ⟨rfl, rfl⟩) (.inr fun _ => rfl) (.inl rfl)
    (.inr fun _ d => by cases d <;> rfl)

theorem setShelf_framed (owner : ShelfOwner) (shelf : Shelf) :
    Framed [.shelves] g (g.setShelf owner shelf) := by
  cases owner with
  | pipeline p => exact .modifyPipeline p (.inl rfl)
  | node n =>
    exact .modifyNode n (fun _ => ⟨rfl, rfl⟩) (.inl rfl) (.inr fun _ => rfl)
      (.inr fun _ d => by cases d <;> rfl)
  | shelf s => exact .of_rows rfl rfl (.inr rfl) (.inr rfl) (.inr rfl)

/-! ## Quiet changes -/

/-- The registries of a node and the entries of all port maps are as they were. -/
structure Quiet (n : Ref .node) (g g' : Graph) : Prop where
  registry : ∀ d, (g'.node n).registry d = (g.node n).registry d
  entries : ∀ m, (g'.portMap m).entries = (g.portMap m).entries

theorem Quiet.refl (g : Graph) (n : Ref .node) : Quiet n g g := ⟨fun _ => rfl, fun _ => rfl⟩

theorem create_quiet {n m : Ref .node} {p : Ref .pipeline} {kind : NodeKind} {given : Value}
    (h : g.create p kind given = .ok (g', m)) (hnm : n ≠ m) : Quiet n g g' := by
  obtain ⟨settings, g₁, -, hm, hports, rfl⟩ := create_eq_ok.mp h
  have hdeclares := declarePorts_declares hports
  have hrow : g₁.node n = g.node n := by
    rw [hdeclares.node n hnm, Graph.node, Table.get_push, if_neg fun hi => hnm ?_]
    · rfl
    · rw [hm]
      exact congrArg Ref.mk hi
  exact ⟨fun d => congrArg (Node.registry · d) hrow, hdeclares.entries⟩

end Graph

/-! ## Operations -/

namespace Operation

open FrameGraph.Graph

variable {g : Graph} {n : Ref .node}

/-- The parts that an operation may write. -/
def written : Operation → List Part
  | .newPipeline _ => [.shelves]
  | .create _ _ _ => [.shelves, .settings, .registries, .ports, .queues, .portMaps]
  | .remove _ _ => []
  | .link _ _ _ => []
  | .unlink _ _ _ => []
  | .newOutput _ _ _ _ => [.ports]
  | .newInput _ _ _ _ _ _ _ => [.ports, .queues]
  | .newPortMap _ _ _ => [.portMaps]
  | .copyPort _ => [.ports]
  | .registerPorts _ _ _ => [.registries]
  | .registerMaps _ _ _ => [.registries]
  | .getOrCreate _ _ => [.ports, .queues, .portMaps]
  | .changePort _ _ => [.ports]
  | .setBlocking _ _ => [.ports, .queues]
  | .setQueueSize _ _ => [.ports, .queues]
  | .setWait _ _ => [.ports]
  | .setReuse _ _ => [.ports]
  | .newQueue _ _ _ => [.queues]
  | .call _ _ => [.queues]
  | .send _ _ => [.queues]
  | .resume _ => [.queues]
  | .trySend _ _ => [.queues]
  | .setSettings _ _ => [.settings]
  | .setShelf _ _ => [.shelves]
  | .newShelf _ => []
  | .setMessages _ => []
  | .forgetPipeline _ => []
  | .forgetNode _ => []

def writes (op : Operation) (part : Part) : Bool := op.written.contains part

/-- An operation leaves all parts as they were that it does not write. -/
theorem framed (op : Operation) (hfits : op.Fits g) : Framed op.written g (op.after g) := by
  cases op with
  | newPipeline name => exact orSame_cases (.refl _ g) fun _ hr => newPipeline_framed hr
  | create p kind given =>
    intro part hnot
    cases part <;> cases hnot
  | remove p n => exact remove_framed hfits.1 n
  | link p o i => exact orSame_cases (.refl _ g) fun _ hr => (connect_noted hfits.1 hr).framed
  | unlink p o i => exact orSame_cases (.refl _ g) fun _ hr => disconnect_framed hfits.1 hr
  | newInput n l kind accepts blocking size wait =>
    exact orSame_cases (.refl _ g) fun _ hr => (newInput_made hr).framed
  | newOutput | copyPort | setWait | setReuse =>
    exact .of_rows rfl rfl (.inl rfl) (.inr rfl) (.inr rfl)
  | newPortMap => exact .of_rows rfl rfl (.inr rfl) (.inr rfl) (.inl rfl)
  | registerPorts n d ports =>
    exact registerEach_rel (R := Framed [.registries]) (.refl _) .trans
      (fun _ _ _ => registerPort_framed) ports
  | registerMaps n d maps =>
    exact registerEach_rel (R := Framed [.registries]) (.refl _) .trans
      (fun _ _ _ => registerMap_framed) maps
  | getOrCreate m key => exact orSame_cases (.refl _ g) fun _ hr => getOrCreate_framed hr
  | changePort p change =>
    simp only [after]
    split
    · exact .of_rows rfl rfl (.inl rfl) (.inr rfl) (.inr rfl)
    · exact .refl _ g
  | setBlocking p v => exact (g.setBlocking_tuned p v).framed
  | setQueueSize p v =>
    simp only [after]
    split
    · next hsize => exact (setQueueSize_tuned hsize).framed
    · exact .refl _ g
  | newQueue name size blocking => exact orSame_cases (.refl _ g) fun _ hr => newQueue_framed hr
  | call => exact .of_rows rfl rfl (.inr rfl) (.inl rfl) (.inr rfl)
  | send | resume | trySend => exact (after_fills rfl).framed
  | setSettings n v => exact setSettings_framed n v
  | setShelf owner shelf => exact setShelf_framed owner shelf
  | newShelf | setMessages => exact .of_rows rfl rfl (.inr rfl) (.inr rfl) (.inr rfl)
  | forgetPipeline p => exact .modifyPipeline p (.inr fun _ => rfl)
  | forgetNode n =>
    exact .modifyNode n (fun _ => ⟨rfl, rfl⟩) (.inr fun _ => rfl) (.inr fun _ => rfl)
      (.inr fun _ d => by cases d <;> rfl)

/-- Whether an operation registers ports or port maps, or asks a map for a port. -/
def lists : Operation → Bool
  | .create _ _ _ => true
  | .registerPorts _ _ _ => true
  | .registerMaps _ _ _ => true
  | .getOrCreate _ _ => true
  | _ => false

theorem quiet (op : Operation) (hfits : op.Fits g) (hop : op.lists = false) :
    Quiet n g (op.after g) := by
  have hframed := op.framed hfits
  have hregistries : op.writes .registries = false := by
    cases op with
    | create | registerPorts | registerMaps => cases hop
    | _ => rfl
  refine ⟨hframed .registries hregistries n, ?_⟩
  by_cases hmaps : op.writes .portMaps = false
  · intro m
    rw [Graph.portMap, hframed .portMaps hmaps]
    rfl
  · cases op with
    | newPortMap name d template => exact entries_push rfl
    | create | getOrCreate => cases hop
    | _ => exact absurd rfl hmaps

end Operation

end FrameGraph
