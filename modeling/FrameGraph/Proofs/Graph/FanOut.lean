import FrameGraph.Proofs.Graph.Validity

/-!
# What a delivery does

A delivery serves the connections of its output in order, and each of them once. It takes the
connections when it begins, but looks each target up when its turn comes, and it may have to wait in
front of a full queue while anything else happens to the graph.

* `Graph.Proceeds`: a delivery and what others do while it waits, turn by turn.
* `Graph.FanOut`: what each connection gets, said without the ports and queues that the delivery goes
  through to find its targets.
* `run_delivery_fanOut`: a delivery does this in every graph a run reaches, whatever others do.
-/

namespace FrameGraph

/-- What happens while a delivery waits. -/
inductive Turn where
  | other (op : Operation)
  /-- The sender tries again. -/
  | again

namespace Graph

variable {g g' : Graph}

/-- A delivery goes through turns until it has come to its end. -/
inductive Proceeds : Graph → Option Delivery → List Turn → Graph → Option Delivery → Prop where
  | stop (g : Graph) (d : Option Delivery) : Proceeds g d [] g d
  | other {g g' : Graph} {d : Delivery} {d' : Option Delivery} {ts : List Turn} (op : Operation) :
      op.Fits g → Proceeds (op.after g) (some d) ts g' d' →
      Proceeds g (some d) (.other op :: ts) g' d'
  | again {g g' : Graph} {d : Delivery} {d' : Option Delivery} {ts : List Turn} :
      Proceeds (g.resume d).graph (g.resume d).suspended ts g' d' →
      Proceeds g (some d) (.again :: ts) g' d'

/-! ## The rule of a delivery -/

/-- A sender has to wait in front of the queue. -/
def Stuck (g : Graph) (q : Ref .queue) : Prop :=
  (g.queue q).isFull = true ∧ (g.queue q).isBlocking = true

/-- Exactly one input of the node has the label, and this is its queue. -/
def Target (g : Graph) (n : Ref .node) (l : PortLabel) (q : Ref .queue) : Prop :=
  ∃ i, ((g.portsOf n .input).filter fun p => (g.port p).label = l) = [i] ∧ g.queueOf? i = some q

/-- The queue gets the message as its newest one, and loses its oldest one if it is full and does not
block. Nothing else changes. -/
structure Receives (g : Graph) (q : Ref .queue) (m : Value) (g' : Graph) : Prop where
  pipelines : g'.pipelines = g.pipelines
  nodes : g'.nodes = g.nodes
  ports : g'.ports = g.ports
  portMaps : g'.portMaps = g.portMaps
  messages : g'.messages = g.messages
  shelves : g'.shelves = g.shelves
  others : ∀ r, r ≠ q → g'.queue r = g.queue r
  stored :
    ((g.queue q).isFull = false ∧
      g'.queue q = { g.queue q with items := (g.queue q).items ++ [m] }) ∨
    ((g.queue q).isFull = true ∧ (g.queue q).isBlocking = false ∧
      ∃ oldest rest, (g.queue q).items = oldest :: rest ∧
        g'.queue q = { g.queue q with items := rest ++ [m] })

/-- What a sender has still to do. -/
inductive Sender where
  | serving (cs : List Connection)
  | waiting (q : Ref .queue) (rest : List Connection)

/-- The connections are served one after the other. A connection whose node is gone when its turn
comes gets nothing, any other has the message stored in the queue of its input, once the sender does
not have to wait there any more. The rule ends with the queue in front of which the sender waits. -/
inductive FanOut (m : Value) (p : Ref .pipeline) :
    Graph → Sender → List Turn → Graph → Option (Ref .queue) → Prop where
  | done (g : Graph) : FanOut m p g (.serving []) [] g none
  | absent {g g' : Graph} {c : Connection} {cs : List Connection} {ts : List Turn}
      {w : Option (Ref .queue)} : (g.pipeline p).node? c.inputId = none →
      FanOut m p g (.serving cs) ts g' w → FanOut m p g (.serving (c :: cs)) ts g' w
  | stored {g g₁ g' : Graph} {c : Connection} {cs : List Connection} {ts : List Turn}
      {w : Option (Ref .queue)} {n : Ref .node} {q : Ref .queue} :
      (g.pipeline p).node? c.inputId = some n → g.Target n c.input q → g.Receives q m g₁ →
      FanOut m p g₁ (.serving cs) ts g' w → FanOut m p g (.serving (c :: cs)) ts g' w
  | waits {g g' : Graph} {c : Connection} {cs : List Connection} {ts : List Turn}
      {w : Option (Ref .queue)} {n : Ref .node} {q : Ref .queue} :
      (g.pipeline p).node? c.inputId = some n → g.Target n c.input q → g.Stuck q →
      FanOut m p g (.waiting q cs) ts g' w → FanOut m p g (.serving (c :: cs)) ts g' w
  | still (g : Graph) (q : Ref .queue) (cs : List Connection) :
      FanOut m p g (.waiting q cs) [] g (some q)
  | other {g g' : Graph} {q : Ref .queue} {cs : List Connection} {ts : List Turn}
      {w : Option (Ref .queue)} (op : Operation) : op.Fits g →
      FanOut m p (op.after g) (.waiting q cs) ts g' w →
      FanOut m p g (.waiting q cs) (.other op :: ts) g' w
  | full {g g' : Graph} {q : Ref .queue} {cs : List Connection} {ts : List Turn}
      {w : Option (Ref .queue)} : g.Stuck q → FanOut m p g (.waiting q cs) ts g' w →
      FanOut m p g (.waiting q cs) (.again :: ts) g' w
  | released {g g₁ g' : Graph} {q : Ref .queue} {cs : List Connection} {ts : List Turn}
      {w : Option (Ref .queue)} : g.Receives q m g₁ → FanOut m p g₁ (.serving cs) ts g' w →
      FanOut m p g (.waiting q cs) (.again :: ts) g' w

/-! ## One attempt at a queue -/

theorem push_cases {q : Ref .queue} (hq : g.queues.Has q) (hroomy : (g.queue q).Roomy) (m : Value) :
    (g.Stuck q ∧ g.push q m = none) ∨ ∃ g₁ records, g.push q m = some (g₁, records) ∧
      g.Receives q m g₁ := by
  have hself : ∀ queue, (g.setQueue q queue).queue q = queue := fun queue => by
    rw [queue_setQueue, if_pos ⟨rfl, hq⟩]
  have hother : ∀ queue r, r ≠ q → (g.setQueue q queue).queue r = g.queue r := fun queue r hr => by
    rw [queue_setQueue, if_neg fun hc => hr hc.1]
  unfold push Queue.send
  cases hfull : (g.queue q).isFull with
  | false =>
    refine Or.inr ⟨_, _, rfl, rfl, rfl, rfl, rfl, rfl, rfl, hother _, Or.inl ⟨hfull, hself _⟩⟩
  | true =>
    cases hblock : (g.queue q).isBlocking with
    | true => exact Or.inl ⟨⟨hfull, hblock⟩, rfl⟩
    | false =>
      cases hitems : (g.queue q).items with
      | nil =>
        rw [Queue.isFull_of_items_nil hroomy hitems] at hfull
        cases hfull
      | cons oldest rest =>
        exact Or.inr ⟨_, _, rfl, rfl, rfl, rfl, rfl, rfl, rfl, hother _,
          Or.inr ⟨hfull, hblock, oldest, rest, hitems, hself _⟩⟩

/-! ## The ports of a node -/

theorem target?_of_ne {l : PortLabel} {p : Ref .port} (h : (g.port p).label ≠ l) :
    g.target? l p = none := if_neg h

theorem serve_append (m : Value) {l : PortLabel} {ports : List (Ref .port)}
    (h : ∀ p ∈ ports, (g.port p).label ≠ l) (later : List (Ref .port)) :
    g.serve m l (ports ++ later) = g.serve m l later := by
  induction ports with
  | nil => rfl
  | cons p ports ih =>
    rw [List.cons_append, serve, target?_of_ne (h p List.mem_cons_self)]
    exact ih fun r hr => h r (List.mem_cons_of_mem p hr)

theorem serve_of_ne (m : Value) {l : PortLabel} {ports : List (Ref .port)}
    (h : ∀ p ∈ ports, (g.port p).label ≠ l) : g.serve m l ports = (g, [], none) := by
  have hserve := serve_append m h []
  rw [List.append_nil] at hserve
  exact hserve

/-- The target of a linked connection among the inputs of its node: all others have other labels. -/
theorem Valid.target {h : History} (hv : Valid g h) {p : Ref .pipeline} {c : Connection}
    (hc : ∃ o i, .linked o i c ∈ h.of p) {n : Ref .node}
    (hn : (g.pipeline p).node? c.inputId = some n) :
    ∃ before i later q, g.portsOf n .input = before ++ i :: later ∧
      (∀ r ∈ before ++ later, (g.port r).label ≠ c.input) ∧ g.target? c.input i = some q ∧
      g.queues.Has q ∧ g.Target n c.input q := by
  obtain ⟨o, i, hlink⟩ := hc
  obtain ⟨n', q, hcreated, hmem, hlabel, hqueue⟩ := (hv.spells p o i c hlink).input
  rw [(hv.recorded p).created_of_node? hn] at hcreated
  cases hcreated
  obtain ⟨before, later, hports⟩ := List.append_of_mem hmem
  refine ⟨before, i, later, q, hports, fun r hr heq => ?_, ?_, ?_, i, ?_, hqueue⟩
  · have hnodup := hv.sound.labels_nodup n .input
    rw [hports, List.map_append, List.map_cons, List.nodup_middle, ← List.map_append,
      List.nodup_cons] at hnodup
    exact hnodup.1 (List.mem_map.mpr ⟨r, hr, heq.trans hlabel.symm⟩)
  · rw [target?, if_pos hlabel]
    exact hqueue
  · exact hv.sound.input i (hv.sound.has_of_mem hmem) q hqueue
  · rw [← hlabel]
    exact hv.sound.filter_label hmem

/-- Serving a node either stops in front of the queue of the target or stores the message there, and
the inputs behind the target get nothing. -/
theorem Valid.serve_cases {h : History} (hv : Valid g h) {p : Ref .pipeline} {c : Connection}
    (hc : ∃ o i, .linked o i c ∈ h.of p) {n : Ref .node}
    (hn : (g.pipeline p).node? c.inputId = some n) (m : Value) :
    ∃ q, g.Target n c.input q ∧ g.queues.Has q ∧
      ((g.Stuck q ∧ ∃ later, g.serve m c.input (g.portsOf n .input) = (g, [], some (q, later)) ∧
          ∀ r ∈ later, r ∈ g.portsOf n .input ∧ (g.port r).label ≠ c.input) ∨
        ∃ g₁ records, g.serve m c.input (g.portsOf n .input) = (g₁, records, none) ∧ g.Move g₁ ∧
          g.Receives q m g₁) := by
  obtain ⟨before, i, later, q, hports, hne, htarget, hq, hspec⟩ := hv.target hc hn
  have hserve : g.serve m c.input (g.portsOf n .input) = g.serve m c.input (i :: later) := by
    rw [hports]
    exact serve_append m (fun r hr => hne r (List.mem_append_left _ hr)) _
  refine ⟨q, hspec, hq, ?_⟩
  rcases push_cases hq (hv.sound.queue q hq) m with ⟨hstuck, hpush⟩ | ⟨g₁, records, hpush, hreceives⟩
  · refine Or.inl ⟨hstuck, later, ?_, fun r hr => ⟨?_, hne r (List.mem_append_right _ hr)⟩⟩
    · rw [hserve]
      simp only [serve, htarget, hpush]
    · rw [hports]
      exact List.mem_append_right _ (List.mem_cons_of_mem i hr)
  · have hrest : g₁.serve m c.input later = (g₁, [], none) := by
      refine serve_of_ne m fun r hr => ?_
      rw [Graph.port, hreceives.ports]
      exact hne r (List.mem_append_right _ hr)
    refine Or.inr ⟨g₁, records ++ [], ?_, (push_fill hpush).move, hreceives⟩
    rw [hserve]
    simp only [serve, htarget, hpush, hrest]

/-! ## Waiting -/

/-- What is known of a delivery that waits: its queue is there, the ports behind the one it waits for
have other labels, and the connections it has still to serve were linked. -/
structure Held (g : Graph) (h : History) (m : Value) (p : Ref .pipeline) (d : Delivery) : Prop where
  message : d.message = m
  pipeline : d.pipeline = p
  queue : g.queues.Has d.waiting
  later : ∀ r ∈ d.later, r ∈ g.portsOf d.node .input ∧ (g.port r).label ≠ d.connection.input
  rest : ∀ c ∈ d.rest, ∃ o i, .linked o i c ∈ h.of p

theorem Held.preserved {h new : History} {m : Value} {p : Ref .pipeline} {d : Delivery}
    (hd : g.Held h m p d) (hg : g.Preserved g') : g'.Held (h ++ new) m p d where
  message := hd.message
  pipeline := hd.pipeline
  queue := hg.queues _ hd.queue
  later r hr := by
    obtain ⟨hmem, hne⟩ := hd.later r hr
    obtain ⟨hmem', hlabel, -⟩ := hg.listed _ _ r hmem
    exact ⟨hmem', by rw [hlabel]; exact hne⟩
  rest c hc := by
    obtain ⟨o, i, hlink⟩ := hd.rest c hc
    refine ⟨o, i, ?_⟩
    rw [History.of, List.filterMap_append]
    exact List.mem_append_left _ hlink

/-- If waiting deliveries keep the rule through some turns, so does one that begins to serve. -/
theorem Valid.serveAll_fanOut {m : Value} {p : Ref .pipeline} {ts : List Turn}
    (hwait : ∀ {g g' : Graph} {h : History} {d : Delivery} {d' : Option Delivery}, Valid g h →
      g.Held h m p d → Proceeds g (some d) ts g' d' →
      FanOut m p g (.waiting d.waiting d.rest) ts g' (d'.map Delivery.waiting))
    {h : History} (hv : Valid g h) {cs : List Connection}
    (hcs : ∀ c ∈ cs, ∃ o i, .linked o i c ∈ h.of p) {d' : Option Delivery}
    (hp : Proceeds (g.serveAll m p cs).graph (g.serveAll m p cs).suspended ts g' d') :
    FanOut m p g (.serving cs) ts g' (d'.map Delivery.waiting) := by
  induction cs generalizing g with
  | nil =>
    cases hp
    exact .done g
  | cons c cs ih =>
    have hrest : ∀ c ∈ cs, ∃ o i, .linked o i c ∈ h.of p := fun d hd =>
      hcs d (List.mem_cons_of_mem c hd)
    cases hn : (g.pipeline p).node? c.inputId with
    | none =>
      simp only [serveAll, hn] at hp
      exact .absent hn (ih hv hrest hp)
    | some n =>
      obtain ⟨q, htarget, hq, hcases⟩ := hv.serve_cases (hcs c List.mem_cons_self) hn m
      rcases hcases with ⟨hstuck, later, hserve, hlater⟩ | ⟨g₁, records, hserve, hmove, hreceives⟩
      · simp only [serveAll, hn, hserve] at hp
        exact .waits hn htarget hstuck (hwait hv ⟨rfl, rfl, hq, hlater, hrest⟩ hp)
      · simp only [serveAll, hn, hserve] at hp
        exact .stored hn htarget hreceives (ih (hv.move hmove) hrest hp)

/-- A waiting delivery keeps the rule, by induction on the turns: others keep what is known of it, and
an attempt leaves it waiting or lets it serve the rest. -/
theorem Valid.held_fanOut {m : Value} {p : Ref .pipeline} {ts : List Turn} {h : History}
    {d : Delivery} {d' : Option Delivery} (hv : Valid g h) (hd : g.Held h m p d)
    (hp : Proceeds g (some d) ts g' d') :
    FanOut m p g (.waiting d.waiting d.rest) ts g' (d'.map Delivery.waiting) := by
  induction ts generalizing g g' h d d' with
  | nil =>
    cases hp
    exact .still g _ _
  | cons t ts ih =>
    cases hp with
    | other op hfits hp =>
      obtain ⟨hv', hpreserved⟩ := hv.after hfits
      exact .other op hfits (ih hv' (hd.preserved hpreserved) hp)
    | again hp =>
      obtain ⟨rfl, rfl, hq, hlater, hrest⟩ := hd
      rcases push_cases hq (hv.sound.queue _ hq) d.message with
        ⟨hstuck, hpush⟩ | ⟨g₁, records, hpush, hreceives⟩
      · simp only [resume, hpush] at hp
        exact .full hstuck (ih hv ⟨rfl, rfl, hq, hlater, hrest⟩ hp)
      · have hserve : g₁.serve d.message d.connection.input d.later = (g₁, [], none) := by
          refine serve_of_ne _ fun r hr => ?_
          rw [Graph.port, hreceives.ports]
          exact (hlater r hr).2
        simp only [resume, hpush, hserve] at hp
        exact .released hreceives (serveAll_fanOut ih (hv.move (push_fill hpush).move) hrest hp)

/-! ## Runs -/

theorem connectionsOf_eq_ok {o : Ref .port} {p : Ref .pipeline} (ho : g.pipelineOf? o = some p) :
    g.connectionsOf o = .ok (g.connectionsFrom p o) := by
  rw [connectionsOf, pipelineOf_eq_ok ho]
  rfl

theorem deliver_eq_ok {o : Ref .port} {p : Ref .pipeline} (ho : g.pipelineOf? o = some p)
    (m : Value) : g.deliver o m = .ok (g.serveAll m p (g.connectionsFrom p o)) := by
  rw [deliver, pipelineOf_eq_ok ho]
  rfl

/-- An output whose node and pipeline still exist can send in every graph that a run reaches, and the
delivery keeps the rule through all turns, for the connections the output had when it began. -/
theorem run_delivery_fanOut {h : History} (hrun : Run g h) {o : Ref .port} {p : Ref .pipeline}
    (ho : g.pipelineOf? o = some p) (m : Value) :
    ∃ cs outcome, g.connectionsOf o = .ok cs ∧ g.deliver o m = .ok outcome ∧
      ∀ ts g' d, Proceeds outcome.graph outcome.suspended ts g' d →
        FanOut m p g (.serving cs) ts g' (d.map Delivery.waiting) := by
  have hv := hrun.valid
  refine ⟨_, _, connectionsOf_eq_ok ho, deliver_eq_ok ho m, ?_⟩
  intro ts g' d hp
  refine hv.serveAll_fanOut (fun hv hd => hv.held_fanOut hd) (fun c hc => ?_) hp
  exact hv.link_of_mem (List.mem_of_mem_filter hc)

/-- An output with two connections has sent a message. The first queue has room for one message only,
so the next delivery waits there. -/
def fullTarget : List Operation :=
  [.newPipeline (.text "p"), .create ⟨0⟩ .processingNode .null, .create ⟨0⟩ .processingNode .null,
    .create ⟨0⟩ .processingNode .null, .link ⟨0⟩ ⟨1⟩ ⟨2⟩, .link ⟨0⟩ ⟨1⟩ ⟨4⟩, .setQueueSize ⟨2⟩ (.int 1),
    .send ⟨1⟩ (.int 1)]

theorem run_fullTarget :
    Run (Operation.afterAll ({}, []) fullTarget).1 (Operation.afterAll ({}, []) fullTarget).2 := by
  refine Run.start.all ⟨trivial, ?_, ?_, ?_, ?_, ?_, trivial, trivial, trivial⟩
  all_goals
    simp only [Operation.Fits]
    decide +kernel

/-- While the delivery waits, its connection is unlinked, the node of the second connection is removed
and the queue stops blocking. Then the first queue gets the message and nothing else happens. -/
theorem fullTarget_fanOut :
    ∃ g', FanOut (.int 2) ⟨0⟩ (Operation.afterAll ({}, []) fullTarget).1
        (.serving [⟨0, ⟨"", "output"⟩, 1, ⟨"", "input"⟩⟩, ⟨0, ⟨"", "output"⟩, 2, ⟨"", "input"⟩⟩])
        [.other (.unlink ⟨0⟩ ⟨1⟩ ⟨2⟩), .other (.remove ⟨0⟩ ⟨2⟩),
          .other (.setBlocking ⟨2⟩ (.bool false)), .again] g' none ∧
      ((g'.queue ⟨1⟩).items.map fun v => v.equal (.int 2)) = [true] ∧
      ((g'.queue ⟨2⟩).items.map fun v => v.equal (.int 1)) = [true] := by
  have hpipeline : (Operation.afterAll ({}, []) fullTarget).1.pipelineOf? ⟨1⟩ = some ⟨0⟩ := by
    decide +kernel
  obtain ⟨cs, outcome, hcs, hdeliver, hrule⟩ :=
    run_delivery_fanOut run_fullTarget hpipeline (.int 2)
  rw [connectionsOf_eq_ok hpipeline, Except.ok.injEq] at hcs
  rw [deliver_eq_ok hpipeline, Except.ok.injEq] at hdeliver
  subst hcs hdeliver
  have hconnections : (Operation.afterAll ({}, []) fullTarget).1.connectionsFrom ⟨0⟩ ⟨1⟩ =
      [⟨0, ⟨"", "output"⟩, 1, ⟨"", "input"⟩⟩, ⟨0, ⟨"", "output"⟩, 2, ⟨"", "input"⟩⟩] := by
    decide +kernel
  rw [hconnections] at hrule
  have hsome : ((Operation.afterAll ({}, []) fullTarget).1.serveAll (.int 2) ⟨0⟩
      [⟨0, ⟨"", "output"⟩, 1, ⟨"", "input"⟩⟩,
        ⟨0, ⟨"", "output"⟩, 2, ⟨"", "input"⟩⟩]).suspended.isSome = true := by
    decide +kernel
  rw [← Option.some_get! _ hsome] at hrule
  have hfan := hrule _ _ _ (.other (.unlink ⟨0⟩ ⟨1⟩ ⟨2⟩) (by simp only [Operation.Fits]; decide +kernel)
    (.other (.remove ⟨0⟩ ⟨2⟩) (by simp only [Operation.Fits]; decide +kernel)
      (.other (.setBlocking ⟨2⟩ (.bool false)) trivial (.again (.stop _ _)))))
  generalize hend : Option.map Delivery.waiting _ = w at hfan
  have hnone : w = none := by
    rw [← hend]
    decide +kernel
  rw [hnone] at hfan
  refine ⟨_, hfan, ?_, ?_⟩
  all_goals decide +kernel

end Graph

end FrameGraph
