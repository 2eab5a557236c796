import FrameGraph.Proofs.Graph.Move

/-!
# Making and registering ports

Ports are made by moves that touch neither nodes nor port maps, and settings of inputs are changed by
such moves. A new node gets the ports and port maps of its kind, which are made and registered one by
one: nothing but the registries of this node changes, and all that is in them belongs to it.

* `Port.bare`: what stays of a port when settings of inputs change.
* `Made`, `Tuned`: what is known of a port that was just made, and of changed settings of an input.
* `clonePort_made`: the port that a map makes belongs to the node of the map's template.
* `Declares`: what making and registering ports of a node changes.
-/

namespace FrameGraph

/-! ## Ports without their settings -/

/-- The input with the defaults of its settings. -/
def Input.bare (i : Input) : Input := { i with blocking? := none, queueSize? := none, wait? := none }

namespace Port

def bare (p : Port) : Port := p.updateInput Input.bare

@[simp] theorem bare_node (p : Port) : p.bare.node = p.node := updateInput_node _ _

@[simp] theorem bare_label (p : Port) : p.bare.label = p.label := updateInput_label _ _

@[simp] theorem bare_accepts (p : Port) : p.bare.accepts = p.accepts := by
  obtain ⟨_, _, _, role⟩ := p
  cases role <;> rfl

@[simp] theorem bare_direction (p : Port) : p.bare.direction = p.direction := by
  obtain ⟨_, _, _, role⟩ := p
  cases role <;> rfl

theorem bare_queue (p : Port) : p.bare.input?.map Input.queue = p.input?.map Input.queue := by
  rw [bare, updateInput_input?, Option.map_map]
  rfl

theorem bare_updateInput (p : Port) {f : Input → Input} (hf : ∀ i, (f i).bare = i.bare) :
    (p.updateInput f).bare = p.bare := by
  obtain ⟨_, _, _, role⟩ := p
  cases role with
  | output kind => rfl
  | input i => simp [bare, updateInput, hf]

end Port

namespace Graph

variable {g g' : Graph}

/-- A relation between graphs that is reflexive and transitive, and that every step respects. -/
theorem foldlM_related {δ : Type} {R : Graph → Graph → Prop} (hrefl : ∀ g, R g g)
    (htrans : ∀ {a b c}, R a b → R b c → R a c) {f : Graph → δ → Except Fault Graph}
    (hf : ∀ g d g', f g d = .ok g' → R g g') (ds : List δ) : ds.foldlM f g = .ok g' → R g g' := by
  induction ds generalizing g with
  | nil =>
    intro h
    cases h
    exact hrefl _
  | cons d ds ih =>
    intro h
    rw [List.foldlM_cons, bind_eq_ok] at h
    obtain ⟨g₁, h₁, h⟩ := h
    exact htrans (hf g d g₁ h₁) (ih h)

/-! ## Ports -/

/-- A port of a node with a label was made, by moves that leave pipelines, nodes, port maps, the other
ports and the other queues alone. -/
structure Made (g : Graph) (n : Ref .node) (l : PortLabel) (r : Graph × Ref .port) : Prop where
  moves : g.Moves r.1
  fresh : ¬g.ports.Has r.2
  has : r.1.ports.Has r.2
  only : ∀ q, r.1.ports.Has q → g.ports.Has q ∨ q = r.2
  node : (r.1.port r.2).node = n
  label : (r.1.port r.2).label = l
  others : ∀ q, g.ports.Has q → r.1.port q = g.port q
  ownQueue : ∀ q, r.1.queueOf? r.2 = some q → ¬g.queues.Has q
  queues : ∀ q, g.queues.Has q → r.1.queues.Has q ∧ r.1.queue q = g.queue q
  pipelines : r.1.pipelines = g.pipelines
  nodes : r.1.nodes = g.nodes
  portMaps : r.1.portMaps = g.portMaps

theorem newOutput_made (g : Graph) (n : Ref .node) (l : PortLabel) (kind : SenderKind)
    (accepts : List Accepts) : g.Made n l (g.newOutput n l kind accepts) where
  moves := (Move.port ⟨n, l, acceptsOr accepts, .output kind⟩ fun _ hi => by cases hi).single
  fresh := Nat.lt_irrefl _
  has := Table.has_push_self _ _
  only _ hq := Table.has_or_eq_of_push hq
  node := congrArg Port.node (Table.get_push_self _ _)
  label := congrArg Port.label (Table.get_push_self _ _)
  others _ hq := Table.get_push_of_lt _ _ hq
  ownQueue q hq := by
    have hrow := congrArg (fun p => p.input?.map Input.queue)
      (Table.get_push_self g.ports ⟨n, l, acceptsOr accepts, .output kind⟩)
    cases hrow.symm.trans hq
  queues _ hq := ⟨hq, rfl⟩
  pipelines := rfl
  nodes := rfl
  portMaps := rfl

theorem newInput_made {n : Ref .node} {l : PortLabel} {kind : ReceiverKind} {accepts : List Accepts}
    {blocking size wait : Value} {r : Graph × Ref .port}
    (h : g.newInput n l kind accepts blocking size wait = .ok r) : g.Made n l r := by
  obtain ⟨queue, hqueue, h⟩ := bind_eq_ok.mp h
  cases h
  refine ⟨(Move.input queue _ (Queue.roomy_of_make hqueue) rfl).single, Nat.lt_irrefl _,
    Table.has_push_self _ _, fun _ hq => Table.has_or_eq_of_push hq,
    congrArg Port.node (Table.get_push_self _ _), congrArg Port.label (Table.get_push_self _ _),
    fun _ hq => Table.get_push_of_lt _ _ hq, fun q hq => ?_,
    fun _ hq => ⟨Table.has_push hq, Table.get_push_of_lt _ _ hq⟩, rfl, rfl, rfl⟩
  have hrow := congrArg (fun p => p.input?.map Input.queue) (Table.get_push_self g.ports
    ⟨n, l, acceptsOr accepts, .input
      { kind, defaultBlocking := blocking, defaultQueueSize := queue.capacity, defaultWait := wait,
        queue := ⟨g.queues.size⟩ }⟩)
  cases hrow.symm.trans hq
  exact Nat.lt_irrefl _

/-! ## Settings of inputs -/

/-- Settings of an input were changed, by moves that leave pipelines, nodes, port maps, the other ports
and the other queues alone. -/
structure Tuned (g : Graph) (p : Ref .port) (g' : Graph) : Prop where
  moves : g.Moves g'
  ports : ∀ q, g'.ports.Has q ↔ g.ports.Has q
  bare : (g'.port p).bare = (g.port p).bare
  others : ∀ q, q ≠ p → g'.port q = g.port q
  queuesHas : ∀ q, g'.queues.Has q ↔ g.queues.Has q
  queues : ∀ q, g.queueOf? p ≠ some q → g'.queue q = g.queue q
  pipelines : g'.pipelines = g.pipelines
  nodes : g'.nodes = g.nodes
  portMaps : g'.portMaps = g.portMaps

namespace Tuned

variable {p : Ref .port}

theorem refl (g : Graph) (p : Ref .port) : g.Tuned p g :=
  ⟨.refl, fun _ => .rfl, rfl, fun _ _ => rfl, fun _ => .rfl, fun _ _ => rfl, rfl, rfl, rfl⟩

theorem bare_eq (h : g.Tuned p g') (q : Ref .port) : (g'.port q).bare = (g.port q).bare := by
  by_cases hq : q = p
  · rw [hq]
    exact h.bare
  · rw [h.others q hq]

theorem node_eq (h : g.Tuned p g') (q : Ref .port) : (g'.port q).node = (g.port q).node := by
  rw [← Port.bare_node, h.bare_eq, Port.bare_node]

theorem label_eq (h : g.Tuned p g') (q : Ref .port) : (g'.port q).label = (g.port q).label := by
  rw [← Port.bare_label, h.bare_eq, Port.bare_label]

theorem queueOf?_eq (h : g.Tuned p g') {q : Ref .port} : g'.queueOf? q = g.queueOf? q := by
  rw [queueOf?, queueOf?, ← Port.bare_queue, h.bare_eq, Port.bare_queue]

theorem trans {g'' : Graph} (h : g.Tuned p g') (h' : g'.Tuned p g'') : g.Tuned p g'' where
  moves := h.moves.trans h'.moves
  ports q := (h'.ports q).trans (h.ports q)
  bare := h'.bare.trans h.bare
  others q hq := (h'.others q hq).trans (h.others q hq)
  queuesHas q := (h'.queuesHas q).trans (h.queuesHas q)
  queues q hq := (h'.queues q (h.queueOf?_eq ▸ hq)).trans (h.queues q hq)
  pipelines := h'.pipelines.trans h.pipelines
  nodes := h'.nodes.trans h.nodes
  portMaps := h'.portMaps.trans h.portMaps

theorem setQueue (h : g.Tuned p g') {q : Ref .queue} (hq : g.queueOf? p = some q)
    {queue : Queue Value} (hroomy : (g'.queue q).Roomy → queue.Roomy) :
    g.Tuned p (g'.setQueue q queue) where
  moves := h.moves.tail (.setQueue q queue hroomy)
  ports := h.ports
  bare := h.bare
  others := h.others
  queuesHas r := Table.has_modify.trans (h.queuesHas r)
  queues r hr := by
    have hne : r ≠ q := by
      rintro rfl
      exact hr hq
    rw [queue_setQueue, if_neg fun hc => hne hc.1]
    exact h.queues r hr
  pipelines := h.pipelines
  nodes := h.nodes
  portMaps := h.portMaps

end Tuned

theorem Made.tune {n : Ref .node} {l : PortLabel} {p : Ref .port} (h : g.Made n l (g', p))
    {g'' : Graph} (ht : g'.Tuned p g'') : g.Made n l (g'', p) where
  moves := h.moves.trans ht.moves
  fresh := h.fresh
  has := (ht.ports p).mpr h.has
  only q hq := h.only q ((ht.ports q).mp hq)
  node := (ht.node_eq p).trans h.node
  label := (ht.label_eq p).trans h.label
  others q hq := by
    rw [ht.others q fun heq => h.fresh (heq ▸ hq)]
    exact h.others q hq
  ownQueue q hq := h.ownQueue q (ht.queueOf?_eq ▸ hq)
  queues q hq := by
    obtain ⟨hhas, hsame⟩ := h.queues q hq
    exact ⟨(ht.queuesHas q).mpr hhas, (ht.queues q fun hown => h.ownQueue q hown hq).trans hsame⟩
  pipelines := ht.pipelines.trans h.pipelines
  nodes := ht.nodes.trans h.nodes
  portMaps := ht.portMaps.trans h.portMaps

theorem updateInput_tuned (g : Graph) (p : Ref .port) (f : Input → Input)
    (hf : ∀ i, (f i).bare = i.bare) : g.Tuned p (g.modifyPort p fun port => port.updateInput f) := by
  have hmove : g.Move (g.modifyPort p fun port => port.updateInput f) := by
    refine .changePort p _ ?_ (Port.updateInput_node _ _) (Or.inr (Port.updateInput_label _ _))
    rw [Port.updateInput_input?, Option.map_map]
    have hqueue : ∀ i, (f i).bare.queue = i.bare.queue := fun i => by rw [hf]
    exact congrArg (fun queue => Option.map queue _) (funext hqueue)
  refine ⟨hmove.single, fun r => Table.has_modify, ?_, fun r hr => ?_, fun _ => .rfl, fun _ _ => rfl,
    rfl, rfl, rfl⟩
  · rw [port_modifyPort]
    split
    · exact Port.bare_updateInput _ hf
    · rfl
  · rw [port_modifyPort, if_neg fun hc => hr hc.1]

theorem setBlocking_tuned (g : Graph) (p : Ref .port) (v : Value) :
    g.Tuned p (g.setBlocking p v) := by
  unfold setBlocking
  split
  · exact .refl g p
  · next q hq =>
    have hport := g.updateInput_tuned p (fun i => { i with blocking? := overrideOf v }) fun _ => rfl
    exact hport.setQueue hq id

theorem setQueueSize_tuned {p : Ref .port} {v : Value} (h : g.setQueueSize p v = .ok g') :
    g.Tuned p g' := by
  unfold setQueueSize at h
  split at h
  · cases h
    exact .refl g p
  · next q hq =>
    obtain ⟨queue, hqueue, h⟩ := bind_eq_ok.mp h
    cases h
    have hport := g.updateInput_tuned p (fun i => { i with queueSize? := some queue.capacity })
      fun _ => rfl
    exact hport.setQueue hq fun _ => Queue.roomy_of_resize hqueue

theorem setWait_tuned (g : Graph) (p : Ref .port) (v : Value) : g.Tuned p (g.setWait p v) :=
  g.updateInput_tuned p _ fun _ => rfl

/-! ## Owners -/

theorem owner_eq_ok {p : Ref .port} {n : Ref .node} (h : g.owner p = .ok n) :
    n = (g.port p).node := by
  unfold owner at h
  dsimp only at h
  split at h
  · cases h
    rfl
  · cases h

theorem owner_of_alive {p : Ref .port} (h : (g.node (g.port p).node).alive = true) :
    g.owner p = .ok (g.port p).node := if_pos h

theorem pipelineOf?_eq_some_iff {q : Ref .port} {p : Ref .pipeline} :
    g.pipelineOf? q = some p ↔ (g.node (g.port q).node).alive = true ∧
      (g.node (g.port q).node).pipeline = p ∧ (g.pipeline p).alive = true := by
  unfold pipelineOf?
  dsimp only
  constructor
  · intro h
    split at h
    · next halive =>
      obtain ⟨hnode, hpipeline⟩ := (Bool.and_eq_true _ _).mp halive
      cases h
      exact ⟨hnode, rfl, hpipeline⟩
    · cases h
  · rintro ⟨hnode, rfl, hpipeline⟩
    exact if_pos ((Bool.and_eq_true _ _).mpr ⟨hnode, hpipeline⟩)

theorem pipelineOf_eq_ok {o : Ref .port} {p : Ref .pipeline} (ho : g.pipelineOf? o = some p) :
    g.pipelineOf o = .ok p := by
  obtain ⟨hnode, rfl, hpipeline⟩ := pipelineOf?_eq_some_iff.mp ho
  refine bind_eq_ok.mpr ⟨(g.port o).node, if_pos hnode, ?_⟩
  exact if_pos hpipeline

theorem pipelineOf_eq_ok_iff {o : Ref .port} {p : Ref .pipeline} :
    g.pipelineOf o = .ok p ↔ g.pipelineOf? o = some p := by
  refine ⟨fun h => ?_, pipelineOf_eq_ok⟩
  obtain ⟨n, hn, hp⟩ := bind_eq_ok.mp h
  unfold owner at hn
  unfold home at hp
  dsimp only at hn hp
  split at hn
  · next halive =>
    cases hn
    split at hp
    · next halive' =>
      cases hp
      exact pipelineOf?_eq_some_iff.mpr ⟨halive, rfl, halive'⟩
    · cases hp
  · cases hn

theorem pipelineOf_eq_home {o : Ref .port} {p : Ref .pipeline} (h : g.pipelineOf o = .ok p) :
    p = (g.node (g.port o).node).pipeline :=
  (pipelineOf?_eq_some_iff.mp (pipelineOf_eq_ok_iff.mp h)).2.1.symm

/-! ## Port maps and registration -/

/-- A port that is made after a template is an output like it, or an input with its defaults that is
then set up with what its settings override. -/
theorem clonePort_cases {template : Ref .port} {l : PortLabel} {r : Graph × Ref .port}
    (h : g.clonePort template l = .ok r) :
    (∃ kind, r = g.newOutput (g.port template).node l kind (g.port template).accepts) ∨
    ∃ i g₁ p g₂ g₃, (g.port template).input? = some i ∧
      g.newInput (g.port template).node l i.kind (g.port template).accepts i.defaultBlocking
        (.number i.defaultQueueSize) i.defaultWait = .ok (g₁, p) ∧
      (g₂ = g₁ ∨ ∃ v, i.blocking? = some v ∧ g₂ = g₁.setBlocking p v) ∧
      (g₃ = g₂ ∨ ∃ v, g₂.setQueueSize p v = .ok g₃) ∧
      r = (g₃.setWait p (i.wait?.getD .null), p) := by
  unfold clonePort at h
  obtain ⟨n, hn, h⟩ := bind_eq_ok.mp h
  cases owner_eq_ok hn
  cases hrole : (g.port template).role with
  | output kind =>
    simp only [hrole] at h
    cases h
    exact .inl ⟨kind, rfl⟩
  | input i =>
    simp only [hrole] at h
    obtain ⟨⟨g₁, p⟩, hinput, h⟩ := bind_eq_ok.mp h
    have hi : (g.port template).input? = some i := by rw [Port.input?, hrole]
    cases hv : i.blocking? with
    | none =>
      cases hq : i.queueSize? with
      | none =>
        simp only [hv, hq] at h
        cases h
        exact .inr ⟨i, g₁, p, g₁, g₁, hi, hinput, .inl rfl, .inl rfl, rfl⟩
      | some size =>
        simp only [hv, hq] at h
        obtain ⟨g₃, hsize, h⟩ := bind_eq_ok.mp h
        cases h
        exact .inr ⟨i, g₁, p, g₁, g₃, hi, hinput, .inl rfl, .inr ⟨_, hsize⟩, rfl⟩
    | some v =>
      cases hq : i.queueSize? with
      | none =>
        simp only [hv, hq] at h
        cases h
        exact .inr ⟨i, g₁, p, _, _, hi, hinput, .inr ⟨v, hv, rfl⟩, .inl rfl, rfl⟩
      | some size =>
        simp only [hv, hq] at h
        obtain ⟨g₃, hsize, h⟩ := bind_eq_ok.mp h
        cases h
        exact .inr ⟨i, g₁, p, _, g₃, hi, hinput, .inr ⟨v, hv, rfl⟩, .inr ⟨_, hsize⟩, rfl⟩

theorem clonePort_made {template : Ref .port} {l : PortLabel} {r : Graph × Ref .port}
    (h : g.clonePort template l = .ok r) : g.Made (g.port template).node l r := by
  rcases clonePort_cases h with ⟨kind, rfl⟩ | ⟨i, g₁, p, g₂, g₃, -, hinput, hpolicy, hsize, rfl⟩
  · exact newOutput_made _ _ _ _ _
  · have hmade := newInput_made hinput
    have hset : g.Made (g.port template).node l (g₂, p) := by
      rcases hpolicy with rfl | ⟨v, -, rfl⟩
      · exact hmade
      · exact hmade.tune (setBlocking_tuned _ _ _)
    have hsized : g.Made (g.port template).node l (g₃, p) := by
      rcases hsize with rfl | ⟨v, hsize⟩
      · exact hset
      · exact hset.tune (setQueueSize_tuned hsize)
    exact hsized.tune (setWait_tuned _ _ _)

/-- A map gives the port that it has under a key, or one that is made. -/
theorem getOrCreate_cases {m : Ref .portMap} {key : String} {p : Ref .port}
    (h : g.getOrCreate m key = .ok (g', p)) :
    ((g.portMap m).get? key = some p ∧ g' = g) ∨
      ((g.portMap m).get? key = none ∧ ∃ g₁,
        g.clonePort (g.portMap m).template ⟨(g.portMap m).name, key⟩ = .ok (g₁, p) ∧
        g.Made (g.port (g.portMap m).template).node ⟨(g.portMap m).name, key⟩ (g₁, p) ∧
        g' = { g₁ with portMaps := g₁.portMaps.modify m fun portMap => portMap.add key p }) := by
  unfold getOrCreate at h
  dsimp only at h
  split at h
  · next hkey =>
    cases h
    exact Or.inl ⟨hkey, rfl⟩
  · next hkey =>
    obtain ⟨⟨g₁, q⟩, hclone, h⟩ := bind_eq_ok.mp h
    cases h
    exact Or.inr ⟨hkey, g₁, hclone, clonePort_made hclone, rfl⟩

theorem getOrCreate_moves {m : Ref .portMap} (hm : g.portMaps.Has m) {key : String}
    {r : Graph × Ref .port} (h : g.getOrCreate m key = .ok r) : g.Moves r.1 := by
  obtain ⟨g', p⟩ := r
  rcases getOrCreate_cases h with ⟨-, hsame⟩ | ⟨hkey, g₁, -, hmade, hg'⟩
  · subst hsame
    exact .refl
  · have hmap : g₁.portMap m = g.portMap m := congrArg (fun t => Table.get t m) hmade.portMaps
    subst hg'
    refine hmade.moves.tail (.entry m key p ?_ hmade.has ?_ ?_)
    · rw [hmade.portMaps]
      exact hm
    · rw [hmap]
      exact hmade.label
    · rw [hmap]
      exact hkey

theorem registerPort_move {n : Ref .node} {d : Direction} {p : Ref .port} (hp : g.ports.Has p)
    (h : g.registerPort n d p = .ok g') : g.Move g' := by
  obtain ⟨r, hr, h⟩ := bind_eq_ok.mp h
  cases h
  exact .registerPort n d p r hp hr

theorem registerMap_move {n : Ref .node} {d : Direction} {m : Ref .portMap} (hm : g.portMaps.Has m)
    (h : g.registerMap n d m = .ok g') : g.Move g' := by
  obtain ⟨r, hr, h⟩ := bind_eq_ok.mp h
  cases h
  exact .registerMap n d m r hm hr

theorem registerEach_moves {kind : Kind} {register : Graph → Ref kind → Except Fault Graph}
    {P : Graph → Ref kind → Prop}
    (hstep : ∀ g g' r, P g r → register g r = .ok g' → g.Move g' ∧ ∀ s, P g s → P g' s)
    (refs : List (Ref kind)) (hrefs : ∀ r ∈ refs, P g r) :
    g.Moves (registerEach register g refs).1 := by
  induction refs generalizing g with
  | nil => exact .refl
  | cons r refs ih =>
    unfold registerEach
    split
    · next g₁ hr =>
      obtain ⟨hmove, hkeep⟩ := hstep g g₁ r (hrefs r List.mem_cons_self) hr
      exact hmove.single.trans (ih fun s hs => hkeep s (hrefs s (List.mem_cons_of_mem r hs)))
    · exact .refl

/-- What every registration does, all of them do together. -/
theorem registerEach_rel {kind : Kind} {register : Graph → Ref kind → Except Fault Graph}
    {R : Graph → Graph → Prop} (hrefl : ∀ g, R g g)
    (htrans : ∀ {g g' g''}, R g g' → R g' g'' → R g g'')
    (hstep : ∀ g g' r, register g r = .ok g' → R g g') (refs : List (Ref kind)) :
    R g (registerEach register g refs).1 := by
  induction refs generalizing g with
  | nil => exact hrefl g
  | cons r refs ih =>
    rw [registerEach]
    split
    · next g₁ hr => exact htrans (hstep g g₁ r hr) ih
    · exact hrefl g

theorem registerEach_same {kind : Kind} {register : Graph → Ref kind → Except Fault Graph} {β : Type}
    (view : Graph → β) (hstep : ∀ g g' r, register g r = .ok g' → view g' = view g)
    (refs : List (Ref kind)) : view (registerEach register g refs).1 = view g :=
  registerEach_rel (R := fun g g' => view g' = view g) (fun _ => rfl) (fun h h' => h'.trans h) hstep
    refs

/-! ## Port maps that are there -/

theorem entries_of_not_has {m : Ref .portMap} (hm : ¬g.portMaps.Has m) :
    (g.portMap m).entries = [] := by
  rw [portMap, Table.get_of_size_le _ (Nat.le_of_not_lt hm)]
  rfl

theorem entries_push {row : PortMap} (hrow : row.entries = []) (m : Ref .portMap) :
    ((g.portMaps.push row).1.get m).entries = (g.portMap m).entries := by
  rw [Table.get_push]
  split
  · next hm =>
    rw [hrow, entries_of_not_has (Nat.not_lt.mpr (Nat.le_of_eq hm.symm))]
  · rfl

/-! ## Ports of a new node -/

/-- Ports and port maps of a node were made and registered on it. -/
structure Declares (n : Ref .node) (g g' : Graph) : Prop where
  moves : g.Moves g'
  node : ∀ m, m ≠ n → g'.node m = g.node m
  kind : (g'.node n).kind = (g.node n).kind
  settings : (g'.node n).settings = (g.node n).settings
  alive : (g'.node n).alive = (g.node n).alive
  shelf : (g'.node n).shelf = (g.node n).shelf
  nodesHas : ∀ m, g'.nodes.Has m ↔ g.nodes.Has m
  pipelines : g'.pipelines = g.pipelines
  row : ∀ p, g.ports.Has p → g'.port p = g.port p
  map : ∀ m, g.portMaps.Has m → g'.portMaps.Has m ∧ g'.portMap m = g.portMap m
  entries : ∀ m, (g'.portMap m).entries = (g.portMap m).entries

namespace Declares

variable {n : Ref .node}

theorem refl (g : Graph) (n : Ref .node) : Declares n g g :=
  ⟨.refl, fun _ _ => rfl, rfl, rfl, rfl, rfl, fun _ => .rfl, rfl, fun _ _ => rfl,
    fun _ h => ⟨h, rfl⟩, fun _ => rfl⟩

theorem trans (h : Declares n g g') (h' : Declares n g' g'') : Declares n g g'' where
  moves := h.moves.trans h'.moves
  node m hm := (h'.node m hm).trans (h.node m hm)
  kind := h'.kind.trans h.kind
  settings := h'.settings.trans h.settings
  alive := h'.alive.trans h.alive
  shelf := h'.shelf.trans h.shelf
  nodesHas m := (h'.nodesHas m).trans (h.nodesHas m)
  pipelines := h'.pipelines.trans h.pipelines
  row p hp := (h'.row p (h.moves.kept.ports p hp).1).trans (h.row p hp)
  map m hm := by
    obtain ⟨hm', hrow⟩ := h.map m hm
    obtain ⟨hm'', hrow'⟩ := h'.map m hm'
    exact ⟨hm'', hrow'.trans hrow⟩
  entries m := (h'.entries m).trans (h.entries m)

theorem of_made {l : PortLabel} {r : Graph × Ref .port} (h : g.Made n l r) : Declares n g r.1 := by
  have hnode : ∀ m, r.1.node m = g.node m := fun m => by rw [Graph.node, h.nodes]; rfl
  have hmap : ∀ m, r.1.portMap m = g.portMap m := fun m => by rw [Graph.portMap, h.portMaps]; rfl
  refine ⟨h.moves, fun m _ => hnode m, by rw [hnode], by rw [hnode], by rw [hnode],
    by rw [hnode], fun m => by rw [h.nodes], h.pipelines, h.others, fun m hm => ⟨?_, hmap m⟩,
    fun m => by rw [hmap]⟩
  rw [h.portMaps]
  exact hm

theorem of_registered {d : Direction} {r : Registry}
    (hmove : g.Move (g.modifyNode n fun node => node.setRegistry d r)) :
    Declares n g (g.modifyNode n fun node => node.setRegistry d r) := by
  have hown : ∀ {β : Type} (f : Node → β), (∀ node : Node, f (node.setRegistry d r) = f node) →
      f ((g.modifyNode n fun node => node.setRegistry d r).node n) = f (g.node n) := by
    intro β f hf
    rw [node_modifyNode]
    split
    · exact hf _
    · rfl
  refine ⟨hmove.single, fun m hm => ?_, hown Node.kind fun _ => Node.setRegistry_kind _ _ _,
    hown Node.settings fun _ => Node.setRegistry_settings _ _ _,
    hown Node.alive fun _ => Node.setRegistry_alive _ _ _,
    hown Node.shelf fun _ => Node.setRegistry_shelf _ _ _, fun _ => Table.has_modify, rfl,
    fun _ _ => rfl, fun m hm => ⟨hm, rfl⟩, fun _ => rfl⟩
  rw [node_modifyNode, if_neg fun hc => hm hc.1]

end Declares

theorem newPortMap_move (g : Graph) (name : String) (d : Direction) (template : Ref .port) :
    g.Move (g.newPortMap name d template).1 := .portMap _ rfl

theorem newPortMap_declares (g : Graph) (n : Ref .node) (name : String) (d : Direction)
    (template : Ref .port) : Declares n g (g.newPortMap name d template).1 :=
  ⟨(g.newPortMap_move name d template).single, fun _ _ => rfl, rfl, rfl, rfl, rfl, fun _ => .rfl,
    rfl, fun _ _ => rfl, fun _ hm => ⟨Table.has_push hm, Table.get_push_of_lt _ _ hm⟩, entries_push rfl⟩

theorem registerPort_declares {n : Ref .node} {d : Direction} {p : Ref .port} (hp : g.ports.Has p)
    (h : g.registerPort n d p = .ok g') : Declares n g g' := by
  have hmove := registerPort_move hp h
  obtain ⟨r, -, h⟩ := bind_eq_ok.mp h
  cases h
  exact .of_registered hmove

theorem registerMap_declares {n : Ref .node} {d : Direction} {m : Ref .portMap}
    (hm : g.portMaps.Has m) (h : g.registerMap n d m = .ok g') : Declares n g g' := by
  have hmove := registerMap_move hm h
  obtain ⟨r, -, h⟩ := bind_eq_ok.mp h
  cases h
  exact .of_registered hmove

end Graph

end FrameGraph
