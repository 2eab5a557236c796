import FrameGraph.Proofs.Graph.Declared

/-!
# Operations consist of moves

Every operation, refused or not, consists of moves. One that achieves something on a pipeline ends
with the one change that is noted for it. So whatever moves and noted changes keep holds along every
run.

* `Fills`: what a delivery does, which changes contents of queues alone.
* `Operation.moving`: the moves of every operation.
* `Graph.Run.induct`: induction over a run by moves and noted changes.
-/

namespace FrameGraph

namespace Graph

variable {g g' : Graph}

/-! ## Delivery -/

/-- The contents of a queue were changed, but neither its capacity nor its policy. -/
def Fill (g g' : Graph) : Prop :=
  ∃ q queue, queue.capacity = (g.queue q).capacity ∧ queue.blocking = (g.queue q).blocking ∧
    g' = g.setQueue q queue

abbrev Fills : Graph → Graph → Prop := Relation.ReflTransGen Fill

theorem Fill.single (h : g.Fill g') : g.Fills g' := Relation.ReflTransGen.single h

theorem Fill.move (h : g.Fill g') : g.Move g' := by
  obtain ⟨q, queue, hcapacity, -, rfl⟩ := h
  refine .setQueue q queue fun hroomy => ?_
  rw [Queue.Roomy, hcapacity]
  exact hroomy

theorem Fills.moves (h : g.Fills g') : g.Moves g' := by
  induction h with
  | refl => exact .refl
  | tail _ hfill ih => exact ih.tail hfill.move

/-- Only queues have changed. -/
structure Refilled (g g' : Graph) : Prop where
  pipelines : g'.pipelines = g.pipelines
  nodes : g'.nodes = g.nodes
  ports : g'.ports = g.ports
  portMaps : g'.portMaps = g.portMaps

theorem Fills.refilled (h : g.Fills g') : g.Refilled g' := by
  induction h with
  | refl => exact ⟨rfl, rfl, rfl, rfl⟩
  | tail _ hfill ih =>
    obtain ⟨q, queue, -, -, rfl⟩ := hfill
    exact ⟨ih.pipelines, ih.nodes, ih.ports, ih.portMaps⟩

theorem push_fill {q : Ref .queue} {m : Value} {r : Graph × Journal} (h : g.push q m = some r) :
    g.Fill r.1 := by
  unfold push at h
  split at h
  · cases h
  · next queue lost hsend =>
    cases h
    obtain ⟨-, hcapacity, hblocking⟩ := Queue.send_stored hsend
    exact ⟨q, queue, hcapacity, hblocking, rfl⟩

theorem serve_fills (g : Graph) (m : Value) (l : PortLabel) (ports : List (Ref .port)) :
    g.Fills (g.serve m l ports).1 := by
  induction ports generalizing g with
  | nil => exact .refl
  | cons p rest ih =>
    unfold serve
    split
    · exact ih g
    · split
      · exact .refl
      · next hpush => exact (push_fill hpush).single.trans (ih _)

theorem serveAll_fills (g : Graph) (m : Value) (p : Ref .pipeline) (cs : List Connection) :
    g.Fills (g.serveAll m p cs).graph := by
  induction cs generalizing g with
  | nil => exact .refl
  | cons c rest ih =>
    unfold serveAll
    split
    · exact ih g
    · next n _ =>
      have hserve := g.serve_fills m c.input (g.portsOf n .input)
      split
      · next hstop =>
        rw [hstop] at hserve
        exact hserve
      · next hdone =>
        rw [hdone] at hserve
        exact hserve.trans (ih _)

theorem resume_fills (g : Graph) (d : Delivery) : g.Fills (g.resume d).graph := by
  unfold resume
  split
  · exact .refl
  · next g₁ _ hpush =>
    have hserve := g₁.serve_fills d.message d.connection.input d.later
    have hfirst := (push_fill hpush).single.trans hserve
    split
    · next hstop =>
      rw [hstop] at hfirst
      exact hfirst
    · next hdone =>
      rw [hdone] at hfirst
      exact hfirst.trans (serveAll_fills _ _ _ _)

theorem tryPush_fills (g : Graph) (q : Ref .queue) (m : Value) : g.Fills (g.tryPush q m).1 := by
  unfold tryPush Queue.trySend
  split
  · next queue hsend =>
    split at hsend
    · cases hsend
    · cases hsend
      refine Fill.single ⟨q, _, ?_, ?_, rfl⟩ <;> rfl
  · exact .refl

theorem tryServe_fills (g : Graph) (m : Value) (l : PortLabel) (ports : List (Ref .port)) :
    g.Fills (g.tryServe m l ports).1 := by
  induction ports generalizing g with
  | nil => exact .refl
  | cons p rest ih =>
    unfold tryServe
    split
    · exact ih g
    · exact (g.tryPush_fills _ m).trans (ih _)

theorem tryServeAll_fills (g : Graph) (m : Value) (p : Ref .pipeline) (cs : List Connection) :
    g.Fills (g.tryServeAll m p cs).1 := by
  induction cs generalizing g with
  | nil => exact .refl
  | cons c rest ih =>
    unfold tryServeAll
    split
    · exact ih g
    · exact (g.tryServe_fills m _ _).trans (ih _)

/-! ## Results -/

/-- What holds of a graph, and of the result if there is one, holds whether the operation is refused or
not. -/
theorem orSame_cases {P : Graph → Prop} {β : Type} {x : Except Fault (Graph × β)} (same : P g)
    (done : ∀ r, x = .ok r → P r.1) : P (g.orSame x) := by
  cases x with
  | ok r => exact done r rfl
  | error cause => exact same

/-- An update is written, whether it is accepted or not. -/
theorem setSettings_eq (g : Graph) (n : Ref .node) (v : Value) :
    (g.setSettings n v).1 =
      g.modifyNode n fun node => { node with settings := ((g.node n).settings.merge v).1 } := by
  unfold setSettings
  dsimp only
  split
  · rfl
  · split <;> rfl

/-! ## What is noted -/

/-- The row of a new node, whose ports are still to be declared. -/
def newNode (g : Graph) (p : Ref .pipeline) (kind : NodeKind) (settings : Entries) : Node where
  kind := kind
  pipeline := p
  id := (g.pipeline p).nextId
  settings := settings
  shelf := { root := "/node/" ++ toString (g.pipeline p).nextId ++ "/" }

/-- A created node is new. It gets the ports of its kind, then it is entered in the pipeline. -/
theorem create_eq_ok {p : Ref .pipeline} {kind : NodeKind} {given : Value} {n : Ref .node} :
    g.create p kind given = .ok (g', n) ↔ ∃ settings g₁,
      g.newSettings kind (g.pipeline p).nextId given = .ok settings ∧ n = ⟨g.nodes.size⟩ ∧
      ({ g with nodes := (g.nodes.push (g.newNode p kind settings)).1 } : Graph).declarePorts n
        kind.declarations = .ok g₁ ∧
      g' = g₁.modifyPipeline p fun pipeline =>
        { pipeline with
          nodes := pipeline.nodes ++ [((g.pipeline p).nextId, n)]
          nextId := (g.pipeline p).nextId + 1 } := by
  constructor
  · intro h
    obtain ⟨settings, hsettings, h⟩ := bind_eq_ok.mp h
    obtain ⟨g₁, hports, h⟩ := bind_eq_ok.mp h
    cases h
    exact ⟨settings, g₁, hsettings, rfl, hports, rfl⟩
  · rintro ⟨settings, g₁, hsettings, rfl, hports, rfl⟩
    exact bind_eq_ok.mpr ⟨settings, hsettings, bind_eq_ok.mpr ⟨g₁, hports, rfl⟩⟩

theorem create_noted {p : Ref .pipeline} (hp : g.pipelines.Has p) {kind : NodeKind} {given : Value}
    {n : Ref .node} (h : g.create p kind given = .ok (g', n)) :
    ∃ g₁, g.Moves g₁ ∧ g₁.Noted p (.created n) g' := by
  obtain ⟨settings, g₁, -, rfl, hports, rfl⟩ := create_eq_ok.mp h
  set row := g.newNode p kind settings
  have hnode : g.Move { g with nodes := (g.nodes.push row).1 } := .node row rfl rfl
  have hmoves := (declarePorts_declares hports).moves
  have hkept := hnode.kept.trans hmoves.kept
  obtain ⟨hn, hid, hhome⟩ := hmoves.kept.nodes _ (Table.has_push_self g.nodes row)
  refine ⟨g₁, hnode.single.trans hmoves, ?_⟩
  rw [← (hkept.books p).nextId]
  refine .created _ (hkept.pipelines p hp) hn ?_ ?_
  · rw [(hkept.books p).nextId]
    exact hid.trans (congrArg Node.id (Table.get_push_self g.nodes row))
  · exact hhome.trans (congrArg Node.pipeline (Table.get_push_self g.nodes row))

theorem connectionOf_eq_ok {o i : Ref .port} {c : Connection} (h : g.connectionOf o i = .ok c) :
    c = ⟨(g.node (g.port o).node).id, (g.port o).label, (g.node (g.port i).node).id,
      (g.port i).label⟩ := by
  obtain ⟨out, hout, h⟩ := bind_eq_ok.mp h
  obtain ⟨into, hinto, h⟩ := bind_eq_ok.mp h
  cases h
  rw [owner_eq_ok hout, owner_eq_ok hinto]

theorem checkRegistered_eq_ok {p : Ref .pipeline} {q : Ref .port} {u : Unit} :
    g.checkRegistered p q = .ok u ↔ g.isMember p (g.port q).node = true ∧
      g.port? (g.port q).node (g.port q).direction (g.port q).label = some q := by
  unfold checkRegistered
  dsimp only
  constructor
  · intro h
    split at h
    · obtain ⟨_, -, h⟩ := bind_eq_ok.mp h
      cases h
    · next hmember =>
      split at h
      · cases h
      · next hport => exact ⟨by simpa using hmember, not_not.mp hport⟩
  · rintro ⟨hmember, hport⟩
    rw [if_neg (by simp [hmember]), if_neg (not_not.mpr hport)]

theorem canConnect_roles {o i : Ref .port} (h : g.canConnect o i = true) :
    (g.port o).direction = .output ∧ (g.port i).direction = .input ∧
      (g.port i).input?.isSome = true := by
  unfold canConnect kindsMatch at h
  rw [Bool.and_eq_true, Bool.and_eq_true] at h
  obtain ⟨⟨-, hkinds⟩, -⟩ := h
  split at hkinds
  · next ho hi =>
    refine ⟨by rw [Port.direction, ho]; rfl, by rw [Port.direction, hi]; rfl, ?_⟩
    rw [Port.input?, hi]
    rfl
  · cases hkinds

/-- Linking passes all checks in their order, and then the record is added. -/
theorem connect_eq_ok {p : Ref .pipeline} {o i : Ref .port} {c : Connection} :
    g.connect p o i = .ok (g', c) ↔
      g.pipelineOf? o = some p ∧ g.canConnect o i = true ∧ g.connectionOf o i = .ok c ∧
        g.checkRegistered p o = .ok () ∧ g.checkRegistered p i = .ok () ∧
        c ∉ (g.pipeline p).connections ∧
        g' = g.modifyPipeline p fun pipeline =>
          { pipeline with connections := pipeline.connections ++ [c] } := by
  unfold connect
  dsimp only
  constructor
  · intro h
    split at h
    · obtain ⟨_, -, h⟩ := bind_eq_ok.mp h
      cases h
    · next hpipeline =>
      split at h
      · cases h
      · next hconnect =>
        obtain ⟨c, hc, h⟩ := bind_eq_ok.mp h
        obtain ⟨_, ho, h⟩ := bind_eq_ok.mp h
        obtain ⟨_, hi, h⟩ := bind_eq_ok.mp h
        split at h
        · cases h
        · next hnew =>
          cases h
          exact ⟨not_not.mp hpipeline, by simpa using hconnect, hc, ho, hi, hnew, rfl⟩
  · rintro ⟨hpipeline, hconnect, hc, ho, hi, hnew, rfl⟩
    rw [if_neg (not_not.mpr hpipeline), if_neg (by simp [hconnect]), hc, ho, hi]
    exact if_neg hnew

theorem connect_noted {p : Ref .pipeline} (hp : g.pipelines.Has p) {o i : Ref .port}
    {c : Connection} (h : g.connect p o i = .ok (g', c)) : g.Noted p (.linked o i c) g' := by
  obtain ⟨-, hconnect, hc, ho, hi, hnew, rfl⟩ := connect_eq_ok.mp h
  obtain ⟨hout, hin, hinput⟩ := canConnect_roles hconnect
  obtain ⟨homember, hoport⟩ := checkRegistered_eq_ok.mp ho
  obtain ⟨himember, hiport⟩ := checkRegistered_eq_ok.mp hi
  rw [hout] at hoport
  rw [hin] at hiport
  exact .linked o i c hp (connectionOf_eq_ok hc) homember hoport himember hiport hinput hnew

theorem connect_record {p : Ref .pipeline} {o i : Ref .port} {c : Connection}
    (h : g.connect p o i = .ok (g', c)) :
    c = ⟨(g.node (g.port o).node).id, (g.port o).label, (g.node (g.port i).node).id,
      (g.port i).label⟩ := connectionOf_eq_ok (connect_eq_ok.mp h).2.2.1

theorem disconnect_eq_ok {p : Ref .pipeline} {o i : Ref .port} {r : Graph × Connection × Bool}
    (hp : g.pipelines.Has p) (h : g.disconnect p o i = .ok r) :
    (r.2.2 = true ∧ g.Noted p (.unlinked r.2.1) r.1) ∨ (r.2.2 = false ∧ r.1 = g) := by
  obtain ⟨c, -, h⟩ := bind_eq_ok.mp h
  split at h
  · next hc =>
    cases h
    exact Or.inl ⟨rfl, .unlinked c hp hc⟩
  · cases h
    exact Or.inr ⟨rfl, rfl⟩

theorem remove_noted {p : Ref .pipeline} (hp : g.pipelines.Has p) (n : Ref .node) :
    ((g.remove p n).2 = true ∧ g.Noted p (.removed n (g.node n).id) (g.remove p n).1) ∨
      ((g.remove p n).2 = false ∧ (g.remove p n).1 = g) := by
  unfold remove
  split
  · next hmember => exact Or.inl ⟨rfl, .removed n hp hmember⟩
  · exact Or.inr ⟨rfl, rfl⟩

end Graph

/-! ## Every operation -/

namespace Operation

variable {g : Graph}

/-- What an operation does if it is refused or achieves nothing on a pipeline, and if it does. -/
def Moving (g : Graph) (op : Operation) : Prop :=
  (op.event? g = none ∧ g.Moves (op.after g)) ∨
    ∃ p e g₁, op.event? g = some (p, e) ∧ g.Moves g₁ ∧ g₁.Noted p e (op.after g)

theorem create_moving {p : Ref .pipeline} (hp : g.pipelines.Has p) (kind : NodeKind)
    (given : Value) : (create p kind given).Moving g := by
  cases h : g.create p kind given with
  | error cause =>
    refine Or.inl ⟨by simp only [event?, h], ?_⟩
    simp only [after, h]
    exact .refl
  | ok r =>
    obtain ⟨g₁, hmoves, hnoted⟩ := Graph.create_noted hp h
    refine Or.inr ⟨p, .created r.2, g₁, by simp only [event?, h], hmoves, ?_⟩
    simp only [after, h]
    exact hnoted

theorem remove_moving {p : Ref .pipeline} (hp : g.pipelines.Has p) (n : Ref .node) :
    (remove p n).Moving g := by
  rcases Graph.remove_noted hp n with ⟨hdone, hnoted⟩ | ⟨hnot, hsame⟩
  · exact Or.inr ⟨p, _, g, by simp only [event?, hdone, if_true], .refl, hnoted⟩
  · refine Or.inl ⟨by simp only [event?, hnot, Bool.false_eq_true, if_false], ?_⟩
    simp only [after, hsame]
    exact .refl

theorem link_moving {p : Ref .pipeline} (hp : g.pipelines.Has p) (o i : Ref .port) :
    (link p o i).Moving g := by
  cases h : g.connect p o i with
  | error cause =>
    refine Or.inl ⟨by simp only [event?, h], ?_⟩
    simp only [after, h]
    exact .refl
  | ok r =>
    refine Or.inr ⟨p, .linked o i r.2, g, by simp only [event?, h], .refl, ?_⟩
    simp only [after, h]
    exact Graph.connect_noted hp h

theorem unlink_moving {p : Ref .pipeline} (hp : g.pipelines.Has p) (o i : Ref .port) :
    (unlink p o i).Moving g := by
  cases h : g.disconnect p o i with
  | error cause =>
    refine Or.inl ⟨by simp only [event?, h], ?_⟩
    simp only [after, h]
    exact .refl
  | ok r =>
    obtain ⟨g₁, c, done⟩ := r
    rcases Graph.disconnect_eq_ok hp h with ⟨hdone, hnoted⟩ | ⟨hnot, hsame⟩
    · cases hdone
      refine Or.inr ⟨p, .unlinked c, g, by simp only [event?, h], .refl, ?_⟩
      simp only [after, h]
      exact hnoted
    · cases hnot
      refine Or.inl ⟨by simp only [event?, h], ?_⟩
      simp only [after, h]
      rw [show g₁ = g from hsame] at h ⊢
      exact .refl

theorem changedPort_eq_some {port port' : Port} {change : PortChange}
    (h : Session.changedPort port change = some port') :
    port'.input?.map Input.queue = port.input?.map Input.queue ∧ port'.node = port.node ∧
      (change.name = none ∧ change.group = none → port'.label = port.label) := by
  unfold Session.changedPort at h
  dsimp only at h
  refine ⟨?_, ?_, ?_⟩
  · unfold Port.input?
    split at h
    · cases h
      rfl
    · next hrole _ _ =>
      cases h
      rw [hrole]
    · next hrole _ _ =>
      cases h
      rw [hrole]
      rfl
    · cases h
  · split at h <;> cases h <;> rfl
  · rintro ⟨hname, hgroup⟩
    rw [hname, hgroup] at h
    split at h <;> cases h <;> rfl

theorem changePort_moves {p : Ref .port} {change : PortChange}
    (h : g.Unlisted p ∨ (change.name = none ∧ change.group = none)) :
    g.Moves ((changePort p change).after g) := by
  simp only [after]
  split
  · next port hport =>
    obtain ⟨hqueue, hnode, hlabel⟩ := changedPort_eq_some hport
    exact (Graph.Move.changePort p _ hqueue hnode (h.imp_right hlabel)).single
  · exact .refl

theorem registerPorts_moves (n : Ref .node) (d : Direction) {ports : List (Ref .port)}
    (h : ∀ p ∈ ports, g.ports.Has p) : g.Moves ((registerPorts n d ports).after g) := by
  refine Graph.registerEach_moves (P := fun g p => g.ports.Has p) (fun g g' p hp hr => ?_) ports h
  refine ⟨Graph.registerPort_move hp hr, ?_⟩
  obtain ⟨r, -, hr⟩ := bind_eq_ok.mp hr
  cases hr
  exact fun _ hs => hs

theorem registerMaps_moves (n : Ref .node) (d : Direction) {maps : List (Ref .portMap)}
    (h : ∀ m ∈ maps, g.portMaps.Has m) : g.Moves ((registerMaps n d maps).after g) := by
  refine Graph.registerEach_moves (P := fun g m => g.portMaps.Has m) (fun g g' m hm hr => ?_) maps h
  refine ⟨Graph.registerMap_move hm hr, ?_⟩
  obtain ⟨r, -, hr⟩ := bind_eq_ok.mp hr
  cases hr
  exact fun _ hs => hs

theorem copyPort_moves {p : Ref .port} (hp : g.ports.Has p) :
    g.Moves ((copyPort p).after g) := by
  refine (Graph.Move.port (g.port p) fun i hi => ⟨p, hp, ?_, rfl⟩).single
  rw [Graph.queueOf?, hi]
  rfl

theorem setSettings_move (n : Ref .node) (v : Value) : g.Move ((setSettings n v).after g) := by
  rw [after, Graph.setSettings_eq]
  exact .changeNode n _ fun _ => ⟨rfl, rfl, fun d => by cases d <;> rfl⟩

theorem setShelf_move (owner : ShelfOwner) (shelf : Shelf) : g.Move (g.setShelf owner shelf) := by
  cases owner with
  | pipeline p => exact .changePipeline p _ fun _ => ⟨rfl, rfl, rfl⟩
  | node n => exact .changeNode n _ fun _ => ⟨rfl, rfl, fun d => by cases d <;> rfl⟩
  | shelf s => exact .aside _ _

/-- Whether an operation hands on messages, at once or after it waited. -/
def delivers : Operation → Bool
  | .send _ _ => true
  | .resume _ => true
  | .trySend _ _ => true
  | _ => false

theorem after_fills {op : Operation} (hop : op.delivers = true) : g.Fills (op.after g) := by
  cases op with
  | send o m =>
    simp only [after]
    split
    · next hdeliver =>
      obtain ⟨p, -, hdeliver⟩ := bind_eq_ok.mp hdeliver
      cases hdeliver
      exact Graph.serveAll_fills _ _ _ _
    · exact .refl
  | resume d => exact g.resume_fills d
  | trySend o m =>
    refine Graph.orSame_cases .refl fun r hr => ?_
    obtain ⟨p, -, hr⟩ := bind_eq_ok.mp hr
    cases hr
    exact Graph.tryServeAll_fills _ _ _ _
  | _ => cases hop

/-- Every operation that fits a graph consists of moves, followed by what is noted for it. -/
theorem moving (op : Operation) (h : op.Fits g) : op.Moving g := by
  cases op with
  | create p kind given => exact create_moving h kind given
  | remove p n => exact remove_moving h.1 n
  | link p o i => exact link_moving h.1 o i
  | unlink p o i => exact unlink_moving h.1 o i
  | newPipeline name =>
    refine Or.inl ⟨rfl, Graph.orSame_cases .refl fun r hr => ?_⟩
    obtain ⟨logName, -, hr⟩ := bind_eq_ok.mp hr
    cases hr
    exact (Graph.Move.pipeline name logName).single
  | newOutput n l kind accepts => exact Or.inl ⟨rfl, (g.newOutput_made n l kind accepts).moves⟩
  | newInput n l kind accepts blocking size wait =>
    exact Or.inl ⟨rfl, Graph.orSame_cases .refl fun _ hr => (Graph.newInput_made hr).moves⟩
  | newPortMap name d template => exact Or.inl ⟨rfl, (g.newPortMap_move name d template).single⟩
  | copyPort p => exact Or.inl ⟨rfl, copyPort_moves h⟩
  | registerPorts n d ports => exact Or.inl ⟨rfl, registerPorts_moves n d h.2⟩
  | registerMaps n d maps => exact Or.inl ⟨rfl, registerMaps_moves n d h.2⟩
  | getOrCreate m key => exact Or.inl ⟨rfl, Graph.orSame_cases .refl fun _ hr => Graph.getOrCreate_moves h hr⟩
  | changePort p change => exact Or.inl ⟨rfl, changePort_moves h.2⟩
  | setBlocking p v => exact Or.inl ⟨rfl, (g.setBlocking_tuned p v).moves⟩
  | setQueueSize p v =>
    refine Or.inl ⟨rfl, ?_⟩
    simp only [after]
    split
    · next hsize => exact (Graph.setQueueSize_tuned hsize).moves
    · exact .refl
  | setWait p v => exact Or.inl ⟨rfl, (g.setWait_tuned p v).moves⟩
  | setReuse p v => exact Or.inl ⟨rfl, (g.setWait_tuned p _).moves⟩
  | newQueue name size blocking =>
    refine Or.inl ⟨rfl, Graph.orSame_cases .refl fun r hr => ?_⟩
    obtain ⟨queue, hqueue, hr⟩ := bind_eq_ok.mp hr
    cases hr
    exact (Graph.Move.queue queue (Queue.roomy_of_make hqueue)).single
  | call q c =>
    refine Or.inl ⟨rfl, (Graph.Move.setQueue q _ fun hq => ?_).single⟩
    exact (Queue.attempt_rule hq c).roomy hq
  | send | resume | trySend => exact Or.inl ⟨rfl, (after_fills rfl).moves⟩
  | setSettings n v => exact Or.inl ⟨rfl, (setSettings_move n v).single⟩
  | setShelf owner shelf => exact Or.inl ⟨rfl, (setShelf_move owner shelf).single⟩
  | newShelf root => exact Or.inl ⟨rfl, (Graph.Move.aside _ _).single⟩
  | setMessages messages => exact Or.inl ⟨rfl, (Graph.Move.aside _ _).single⟩
  | forgetPipeline p =>
    refine Or.inl ⟨rfl, Graph.Move.single ?_⟩
    exact .changePipeline p _ fun _ => ⟨rfl, rfl, rfl⟩
  | forgetNode n =>
    refine Or.inl ⟨rfl, Graph.Move.single ?_⟩
    exact .changeNode n _ fun _ => ⟨rfl, rfl, fun d => by cases d <;> rfl⟩

end Operation

/-! ## Runs -/

/-- What the empty graph has, moves keep and noted changes keep with their events, holds along every
run. -/
theorem Graph.Run.induct {P : Graph → History → Prop} (start : P {} [])
    (move : ∀ {g g' h}, P g h → g.Move g' → P g' h)
    (noted : ∀ {g p e g' h}, P g h → g.Noted p e g' → P g' (h ++ [(p, e)]))
    {g : Graph} {h : History} (hrun : Run g h) : P g h := by
  -- The history does not change along moves, so their induction is inside that of the run.
  have moves : ∀ {g g' h}, P g h → g.Moves g' → P g' h := by
    intro g g' h hP hmoves
    induction hmoves with
    | refl => exact hP
    | tail _ hmove ih => exact move ih hmove
  induction hrun with
  | start => exact start
  | @next g h op _ hfits ih =>
    rcases op.moving hfits with ⟨hnone, hmoves⟩ | ⟨p, e, g₁, hsome, hmoves, hnoted⟩
    · rw [hnone]
      simpa using moves ih hmoves
    · rw [hsome]
      exact noted (moves ih hmoves) hnoted

end FrameGraph
