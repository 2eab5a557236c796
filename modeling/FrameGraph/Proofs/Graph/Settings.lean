import FrameGraph.Proofs.Graph.Steady

/-!
# What inputs report of their queues

An input reports the capacity and the policy of its queue from its own settings, and deliveries go by
those of the queue. The two can come apart only if the queue is set up behind the back of the input:
through a copy that shares the queue, or by a call on the queue itself.

* `Operation.steady`: operations that set up no input and no queue are steady.
* `Graph.DirectRun`: the runs in which nothing but a port itself sets up its queue.
* `directRun_reports`: the port reports its queue as it is along all such runs, and a size that is
  refused changes nothing.
-/

namespace FrameGraph

/-! ## Operations -/

namespace Operation

open FrameGraph.Graph

variable {g : Graph}

/-- Whether an operation sets up an input or a queue that is there, or copies a port with its
settings. -/
def setsUp : Operation → Bool
  | .copyPort _ => true
  | .setBlocking _ _ => true
  | .setQueueSize _ _ => true
  | .call _ c => c.setsUp
  | _ => false

theorem steady (op : Operation) (hplain : g.Plain) (hfits : op.Fits g) (hop : op.setsUp = false) :
    Steady g (op.after g) := by
  have hframed := op.framed hfits
  by_cases hsame : op.writes .ports = false ∧ op.writes .queues = false
  · exact .of_tables (hframed .ports hsame.1) (hframed .queues hsame.2)
  cases op with
  | create p kind given => exact orSame_cases (.refl g) fun _ hr => create_steady hr
  | newOutput n l kind accepts =>
    exact .of_made (g.newOutput_made n l kind accepts) (g.newOutput_settled n l kind accepts)
  | newInput n l kind accepts blocking size wait =>
    exact orSame_cases (.refl g) fun _ hr => .of_made (newInput_made hr) (newInput_settled hr)
  | getOrCreate m key => exact orSame_cases (.refl g) fun _ hr => getOrCreate_steady hplain hr
  | changePort p change =>
    simp only [after]
    split
    · next row hrow => exact .modifyPort p (changedPort_queueing hrow)
    · exact .refl g
  | setWait p v => exact g.setWait_steady p v
  | setReuse p v => exact g.setWait_steady p _
  | newQueue name size blocking =>
    refine orSame_cases (.refl g) fun r hr => ?_
    obtain ⟨queue, -, hr⟩ := bind_eq_ok.mp hr
    cases hr
    refine ⟨fun _ hp => ⟨hp, rfl⟩, fun q hq => ⟨Table.has_push hq, ?_⟩,
      fun _ hp => settled_of_not_has hp⟩
    have hrow : (g.queues.push queue).1.get q = g.queue q := Table.get_push_of_lt _ _ hq
    exact ⟨congrArg Queue.capacity hrow, congrArg Queue.blocking hrow⟩
  | call q c =>
    obtain ⟨hcapacity, hblocking⟩ := (g.queue q).attempt_keeps hop
    exact .setQueue q hcapacity hblocking
  | send | resume | trySend => exact .of_fills (after_fills rfl)
  | copyPort | setBlocking | setQueueSize => cases hop
  | _ => exact absurd ⟨rfl, rfl⟩ hsame

/-- An operation sets up the queue of a port through this port only, and does not make the port as a
copy. -/
def Direct (g : Graph) (p : Ref .port) : Operation → Prop
  | .copyPort _ => p ≠ ⟨g.ports.size⟩
  | .setBlocking r v => g.Shares r p → r = p ∧ v ≠ .null
  | .setQueueSize r _ => g.Shares r p → r = p
  | .call q c => g.queueOf? p = some q → c.setsUp = false
  | _ => True

theorem plain (op : Operation) (hplain : g.Plain) (hfits : op.Fits g) : (op.after g).Plain := by
  cases hop : op.setsUp with
  | false => exact (op.steady hplain hfits hop).plain hplain
  | true =>
    cases op with
    | copyPort r =>
      intro q i hi
      change (((g.ports.push (g.port r)).1.get q).input? = some i) at hi
      rw [Table.get_push] at hi
      split at hi
      · exact hplain r i hi
      · exact hplain q i hi
    | setBlocking r v => exact hplain.setBlocking r v
    | setQueueSize r v =>
      simp only [after]
      split
      · next hsize => exact hplain.setQueueSize hsize
      · exact hplain
    | call q c => exact hplain
    | _ => cases hop

theorem settled (op : Operation) (hplain : g.Plain) {p : Ref .port} (hs : g.Settled p)
    (hfits : op.Fits g) (hdirect : op.Direct g p) : (op.after g).Settled p := by
  cases hop : op.setsUp with
  | false => exact (op.steady hplain hfits hop).settled hs
  | true =>
    cases op with
    | copyPort r =>
      refine hs.keep ?_ fun q _ hhas => ⟨hhas, rfl, rfl⟩
      have hne : p.index ≠ g.ports.size := fun heq => hdirect (congrArg Ref.mk heq)
      have hrow : (g.ports.push (g.port r)).1.get p = g.port p := by
        rw [Table.get_push, if_neg hne]
        rfl
      exact congrArg (fun row : Port => row.input?.map Input.queueing) hrow
    | setBlocking r v =>
      by_cases hshares : g.Shares r p
      · obtain ⟨rfl, hv⟩ := hdirect hshares
        exact setBlocking_settled hs hv
      · exact hs.tuned (g.setBlocking_tuned r v) hshares
    | setQueueSize r v =>
      simp only [after]
      split
      · next hsize =>
        by_cases hshares : g.Shares r p
        · obtain rfl := hdirect hshares
          exact setQueueSize_settled hs hsize
        · exact hs.tuned (setQueueSize_tuned hsize) hshares
      · exact hs
    | call r c =>
      refine hs.keep rfl fun q hq hhas => ⟨Table.has_modify.mpr hhas, ?_⟩
      have hne : q ≠ r := by
        rintro rfl
        cases hop.symm.trans (hdirect hq)
      simp only [after]
      rw [queue_setQueue, if_neg fun hc => hne hc.1]
      exact ⟨rfl, rfl⟩
    | _ => cases hop

end Operation

/-! ## Runs -/

namespace Graph

variable {g : Graph} {p : Ref .port}

/-- The graphs of the runs in which the queue of a port is set up through this port only. Anything else
may happen to the port, its queue and the rest of the graph. -/
inductive DirectRun (p : Ref .port) : Graph → Prop where
  | start : DirectRun p {}
  | next {g : Graph} (op : Operation) :
      DirectRun p g → op.Fits g → op.Direct g p → DirectRun p (op.after g)

theorem DirectRun.plain (hrun : DirectRun p g) : g.Plain := by
  induction hrun with
  | start => exact fun q i hi => by cases hi
  | next op _ hfits _ ih => exact op.plain ih hfits

theorem DirectRun.settled (hrun : DirectRun p g) : g.Settled p := by
  induction hrun with
  | start => exact settled_of_not_has (Nat.not_lt_zero _)
  | next op hrun hfits hdirect ih => exact op.settled hrun.plain ih hfits hdirect

/-- Operations that all fit and set up the queue of the port through this port only. -/
def AllDirect (p : Ref .port) : Graph → List Operation → Prop
  | _, [] => True
  | g, op :: ops => (op.Fits g ∧ op.Direct g p) ∧ AllDirect p (op.after g) ops

theorem DirectRun.all (hrun : DirectRun p g) (h : History) {ops : List Operation}
    (hops : AllDirect p g ops) : DirectRun p (Operation.afterAll (g, h) ops).1 := by
  induction ops generalizing g h with
  | nil => exact hrun
  | cons op ops ih => exact ih (.next op hrun hops.1.1 hops.1.2) _ hops.2

/-! ## What an input reports -/

theorem capacityOf_tooSmall {k : Int} (hk : k < 1) :
    ∃ fault, Queue.capacityOf (.int k) = .error fault ∧ fault.isBadValue = true := by
  rcases Queue.capacityOf_int k with ⟨hpos, -⟩ | ⟨-, hrefused⟩
  · omega
  · exact hrefused

theorem setQueueSize_error {i : Input} (hi : (g.port p).input? = some i) {v : Value} {fault : Fault}
    (h : Queue.capacityOf v = .error fault) : g.setQueueSize p v = .error fault := by
  have hqueue : g.queueOf? p = some i.queue := queueOf?_eq_some_iff.mpr ⟨i, hi, rfl⟩
  rw [setQueueSize, hqueue]
  dsimp only
  rw [Queue.resize_error h]
  rfl

/-- A size that is accepted stands in the settings of the input and in its queue, which keeps the newest
messages that fit. -/
theorem setQueueSize_ok {i : Input} (hi : (g.port p).input? = some i) (hq : g.queues.Has i.queue)
    {k : Int} (hk : 1 ≤ k) : ∃ g' old new, g.setQueueSize p (.int k) = .ok g' ∧
      (g.queue i.queue).items = old ++ new ∧
      (old.length : Int) = max 0 ((g.queue i.queue).items.length - k) ∧
      g'.queue i.queue = { g.queue i.queue with capacity := .int k, items := new } ∧
      (g'.port p).input? = some { i with queueSize? := some (.int k) } := by
  have hqueue : g.queueOf? p = some i.queue := queueOf?_eq_some_iff.mpr ⟨i, hi, rfl⟩
  have hcapacity := Queue.capacityOf_of_pos hk
  obtain ⟨old, hitems⟩ := Queue.dropExcess_suffix (.int k) (g.queue i.queue).items
  have hkept := Queue.length_dropExcess_int (by omega : 0 ≤ k) (g.queue i.queue).items
  have hlength := congrArg List.length hitems
  rw [List.length_append] at hlength
  have hlost : (old.length : Int) = max 0 ((g.queue i.queue).items.length - k) := by omega
  have hdone : g.setQueueSize p (.int k) = .ok ((g.modifyPort p fun port =>
      port.updateInput fun i => { i with queueSize? := some (.int k) }).setQueue i.queue
        { g.queue i.queue with
          capacity := .int k
          items := Queue.dropExcess (.int k) (g.queue i.queue).items }) := by
    rw [setQueueSize, hqueue]
    dsimp only
    rw [Queue.resize_ok hcapacity]
    rfl
  refine ⟨_, old, _, hdone, hitems, hlost, ?_, ?_⟩
  · rw [queue_setQueue, if_pos ⟨rfl, hq⟩]
  · change ((g.modifyPort p _).port p).input? = _
    rw [port_modifyPort, if_pos ⟨rfl, has_of_input? hi⟩, Port.updateInput_input?, hi]
    rfl

/-- What an input reports of its queue is so. A size that is refused changes nothing, and integers are
refused as bad values exactly if they are below one. Whether the node waits for messages has nothing to
do with queues. -/
structure Reports (g : Graph) (p : Ref .port) (i : Input) : Prop where
  capacity : (g.queue i.queue).capacity = i.queueSize
  blocking : (g.queue i.queue).blocking = i.blocking
  view : g.inputView? p = some ⟨(g.port p).label, (g.port p).kindName,
    (g.queue i.queue).blocking, (g.queue i.queue).capacity, i.wait⟩
  refused : ∀ v fault, g.setQueueSize p v = .error fault →
    (Operation.setQueueSize p v).after g = g
  tooSmall : ∀ k : Int, k < 1 →
    ∃ fault, g.setQueueSize p (.int k) = .error fault ∧ fault.isBadValue = true
  resized : ∀ k : Int, 1 ≤ k → ∃ g' old new, g.setQueueSize p (.int k) = .ok g' ∧
    (g.queue i.queue).items = old ++ new ∧
    (old.length : Int) = max 0 ((g.queue i.queue).items.length - k) ∧
    g'.queue i.queue = { g.queue i.queue with capacity := .int k, items := new } ∧
    (g'.port p).input? = some { i with queueSize? := some (.int k) }
  waiting : ∀ v, (g.setWait p v).queues = g.queues ∧ (g.setReuse p v).queues = g.queues

/-- In every graph that is reached while nothing but the port itself sets up its queue, the port
reports its queue as it is: after it was made with a node or by a port map, after its settings were
changed or refused, and whatever was sent and read in between. -/
theorem directRun_reports (hrun : DirectRun p g) {i : Input} (hi : (g.port p).input? = some i) :
    g.Reports p i := by
  have hagrees := hrun.settled i hi
  refine ⟨hagrees.capacity, hagrees.blocking, ?_, fun v fault hv => ?_, fun k hk => ?_,
    fun k hk => setQueueSize_ok hi hagrees.has hk, fun v => ⟨rfl, rfl⟩⟩
  · rw [inputView?, hi, hagrees.capacity, hagrees.blocking]
    rfl
  · simp only [Operation.after, hv]
  · obtain ⟨fault, hfault, hbad⟩ := capacityOf_tooSmall hk
    exact ⟨fault, setQueueSize_error hi hfault, hbad⟩

/-- The template of a map is set up and a port made after it. This one is set up in its turn, and
refuses a size. A copy of the template shares the queue of the template only. -/
def mapSetUp : List Operation :=
  [.newPipeline (.text "p"), .create ⟨0⟩ .frameSync .null, .setBlocking ⟨1⟩ (.bool true),
    .setQueueSize ⟨1⟩ (.int 3), .getOrCreate ⟨0⟩ "left", .call ⟨1⟩ (.trySend (.int 1)),
    .setQueueSize ⟨2⟩ (.int 0), .setReuse ⟨2⟩ (.bool true), .copyPort ⟨1⟩,
    .setBlocking ⟨3⟩ (.bool false)]

theorem directRun_mapSetUp : DirectRun ⟨2⟩ (Operation.afterAll ({}, []) mapSetUp).1 := by
  refine DirectRun.start.all [] ⟨⟨trivial, trivial⟩, ⟨?_, trivial⟩, ⟨trivial, fun h => ?_⟩,
    ⟨trivial, fun h => ?_⟩, ⟨?_, trivial⟩, ⟨trivial, fun _ => rfl⟩, ⟨trivial, fun _ => rfl⟩,
    ⟨trivial, trivial⟩, ⟨?_, ?_⟩, ⟨trivial, fun h => ?_⟩, trivial⟩
  case refine_2 | refine_3 | refine_7 => exact absurd h (by decide +kernel)
  all_goals
    simp only [Operation.Fits, Operation.Direct]
    decide +kernel

/-- The port has the settings of the template, and the template does not agree with its queue. -/
theorem mapSetUp_reports :
    (let g := (Operation.afterAll ({}, []) mapSetUp).1
     ∃ i, (g.port ⟨2⟩).input? = some i ∧ g.Reports ⟨2⟩ i ∧ i.queueSize.equal (.int 3) = true ∧
      i.blocking.equal (.bool true) = true ∧ ¬g.Settled ⟨1⟩) := by
  intro g
  have hsome : (g.port ⟨2⟩).input?.isSome = true := by decide +kernel
  obtain ⟨i, hi⟩ := Option.isSome_iff_exists.mp hsome
  have hsize : (g.port ⟨2⟩).input?.map (fun i => i.queueSize.equal (.int 3)) = some true := by
    decide +kernel
  have hpolicy : (g.port ⟨2⟩).input?.map (fun i => i.blocking.equal (.bool true)) = some true := by
    decide +kernel
  rw [hi] at hsize hpolicy
  refine ⟨i, hi, directRun_reports directRun_mapSetUp hi, Option.some.inj hsize,
    Option.some.inj hpolicy, fun hs => ?_⟩
  -- The copy has changed the policy of the queue, but not what the template says of it.
  have hdiffer : (g.port ⟨1⟩).input?.map
      (fun i => (g.queue i.queue).blocking.truthy == i.blocking.truthy) = some false := by
    decide +kernel
  obtain ⟨j, hj, hpolicies⟩ := Option.map_eq_some_iff.mp hdiffer
  rw [(hs j hj).blocking, beq_self_eq_true] at hpolicies
  cases hpolicies

end Graph

end FrameGraph
