import FrameGraph.Proofs.Graph.Footprint
import FrameGraph.Proofs.Graph.Linking

/-!
# Removed nodes

A node that was removed from its pipeline is still an object with ports and queues, but the graph
never comes back to it. Ids count up, so no later node gets the id of a removed one, and connections
find their nodes by id. Linking goes by the table of the pipeline, in which the node does not come up
again either.

* `Departed`: what is known along a run of the nodes that were removed.
* `Gone`: what a removed node and the rest of the graph have still to do with each other, nothing.
* `run_removed_gone`: it is gone in every later state of the run, and deliveries that begin then
  leave its queues alone up to their ends.
-/

namespace FrameGraph.Graph

variable {g g' : Graph} {n : Ref .node}

/-! ## Free ids -/

/-- A node that was removed had been created with its id, which is free now. -/
def Departed (g : Graph) (h : History) : Prop :=
  ∀ p n id, .removed n id ∈ h.of p →
    (created (h.of p))[id]? = some n ∧ (g.pipeline p).node? id = none

theorem Departed.noted {h : History} (hd : Departed g h) (hv : Valid g h) {q : Ref .pipeline}
    {e : Event} (hn : g.Noted q e g') : Departed g' (h ++ [(q, e)]) := by
  intro p n id hmem
  rw [History.of_append] at hmem ⊢
  by_cases hqp : q = p
  · subst hqp
    rw [if_pos rfl] at hmem ⊢
    have hr := hv.recorded q
    have hold : .removed n id ∈ h.of q →
        (created (h.of q ++ [e]))[id]? = some n ∧ (g'.pipeline q).node? id = none := by
      intro hold
      obtain ⟨hcreated, hnone⟩ := hd q n id hold
      refine ⟨getElem?_created_append hcreated _, ?_⟩
      cases hn with
      | created n' hq _ _ _ =>
        -- The next id counts all nodes created so far, and so lies above the id of any of them.
        obtain ⟨hlt, -⟩ := List.getElem?_eq_some_iff.mp hcreated
        rw [← hr.nextId] at hlt
        rw [pipeline_modifyPipeline_self hq, Pipeline.node?, List.lookup_append,
          show List.lookup id _ = none from hnone]
        simp [Nat.ne_of_lt hlt]
      | removed n' hq _ =>
        rw [pipeline_modifyPipeline_self hq]
        refine List.lookup_eq_none_iff.mpr fun e he => ?_
        exact List.lookup_eq_none_iff.mp hnone e (List.mem_of_mem_filter he)
      | linked _ _ _ hq | unlinked _ hq =>
        rw [pipeline_modifyPipeline_self hq]
        exact hnone
    rcases List.mem_append.mp hmem with hmem | hlast
    · exact hold hmem
    · obtain rfl := List.mem_singleton.mp hlast
      cases hn with
      | removed _ hq hmember =>
        rw [isMember, decide_eq_true_eq] at hmember
        refine ⟨getElem?_created_append (hr.created_of_node? hmember) _, ?_⟩
        rw [pipeline_modifyPipeline_self hq]
        refine List.lookup_eq_none_iff.mpr fun e he => ?_
        have hne : e.1 ≠ (g.node n).id := of_decide_eq_true (List.mem_filter.mp he).2
        exact bne_iff_ne.mpr hne.symm
  · rw [if_neg hqp, List.append_nil] at hmem ⊢
    rw [hn.pipeline_of_ne hqp]
    exact hd p n id hmem

theorem Run.departed {h : History} (hrun : Run g h) : Departed g h := by
  have hboth := hrun.induct (P := fun g h => Valid g h ∧ Departed g h) ⟨.empty, nofun⟩ ?_ ?_
  · exact hboth.2
  · rintro g g' h ⟨hv, hd⟩ hm
    refine ⟨hv.move hm, fun p n id hmem => ?_⟩
    obtain ⟨hcreated, hnone⟩ := hd p n id hmem
    refine ⟨hcreated, ?_⟩
    rw [Pipeline.node?, (hm.kept.books p).nodes]
    exact hnone
  · rintro g p e g' h ⟨hv, hd⟩ hn
    exact ⟨hv.noted hn, hd.noted hv hn⟩

/-! ## Nodes that no id names -/

/-- The node is in the table of no pipeline. -/
def Absent (g : Graph) (n : Ref .node) : Prop := ∀ p id, (g.pipeline p).node? id ≠ some n

theorem Absent.moves (h : g.Absent n) (hm : g.Moves g') : g'.Absent n := by
  intro p id
  rw [Pipeline.node?, (hm.kept.books p).nodes]
  exact h p id

theorem Absent.isMember (h : g.Absent n) (p : Ref .pipeline) : g.isMember p n = false :=
  decide_eq_false (h p _)

/-- A removed node is in no table: not in that of its own pipeline, since its id is free, and not in
another, since it was created in its own. -/
theorem absent_of_removed {h : History} (hrun : Run g h) {p : Ref .pipeline} {id : Nat}
    (hmem : .removed n id ∈ h.of p) : g.Absent n := by
  obtain ⟨hcreated, hnone⟩ := hrun.departed p n id hmem
  intro r k hr
  have hhome := hrun.homed.node r n (List.mem_of_getElem? ((hrun.recorded r).created_of_node? hr))
  rw [hrun.homed.node p n (List.mem_of_getElem? hcreated)] at hhome
  subst hhome
  have hid := ((hrun.recorded p).ids id n hcreated).2
  rw [hrun.valid.id_of_node? hr] at hid
  rw [hid, hnone] at hr
  cases hr

/-- A link is refused if the node of one of the two ports is in no pipeline. -/
theorem Absent.connect (h : g.Absent n) (p : Ref .pipeline) {o i : Ref .port}
    (hport : (g.port o).node = n ∨ (g.port i).node = n) :
    ∃ fault, g.connect p o i = .error fault ∧
      ∀ text, g.shown (g.pipeline p).name = .ok text → ∃ rule, fault = .refused rule := by
  cases hresult : g.connect p o i with
  | ok r =>
    obtain ⟨-, -, -, ho, hi, -⟩ := connect_eq_ok.mp hresult
    rcases hport with hport | hport
    · have hmember := (checkRegistered_eq_ok.mp ho).1
      rw [hport, h.isMember] at hmember
      cases hmember
    · have hmember := (checkRegistered_eq_ok.mp hi).1
      rw [hport, h.isMember] at hmember
      cases hmember
  | error fault =>
    refine ⟨fault, rfl, fun text hname => (connect_refused hresult).resolve_right ?_⟩
    rw [hname]
    exact nofun

/-! ## Deliveries -/

/-- A delivery that waits does so in the queue of some other node. -/
def Elsewhere (g : Graph) (n : Ref .node) (d : Delivery) : Prop :=
  ∃ m, m ≠ n ∧ g.InputQueue m d.waiting

/-- The queues of a node are left alone, and what remains to be delivered waits elsewhere. -/
structure Spares (g : Graph) (h : History) (m : Value) (p : Ref .pipeline) (n : Ref .node)
    (r : Delivery.Outcome) : Prop where
  queue : ∀ q, g.InputQueue n q → r.graph.queue q = g.queue q
  waiting : ∀ d, r.suspended = some d → r.graph.Held h m p d ∧ r.graph.Elsewhere n d

theorem Placed.serveAll_spares {h : History} (hp : Placed g h) (hn : g.Absent n) (m : Value)
    {p : Ref .pipeline} {cs : List Connection} (hcs : ∀ c ∈ cs, ∃ o i, .linked o i c ∈ h.of p) :
    g.Spares h m p n (g.serveAll m p cs) := by
  induction cs generalizing g with
  | nil => exact ⟨fun _ _ => rfl, nofun⟩
  | cons c cs ih =>
    have hc := hcs c List.mem_cons_self
    have hrest : ∀ c ∈ cs, ∃ o i, .linked o i c ∈ h.of p := fun d hd =>
      hcs d (List.mem_cons_of_mem c hd)
    cases htable : (g.pipeline p).node? c.inputId with
    | none =>
      have hspares := ih hp hn hrest
      simp only [serveAll, htable]
      exact ⟨hspares.queue, hspares.waiting⟩
    | some k =>
      have hkn : k ≠ n := by
        rintro rfl
        exact hn p _ htable
      obtain ⟨q, htarget, hq, hcases⟩ := hp.valid.serve_cases hc htable m
      have hqueue := hp.inputQueue_of_target hc htable htarget
      rcases hcases with ⟨-, later, hserve, hlater⟩ | ⟨g₁, records, hserve, hmove, hreceives⟩
      · simp only [serveAll, htable, hserve]
        refine ⟨fun _ _ => rfl, fun d hd => ?_⟩
        cases hd
        exact ⟨⟨rfl, rfl, hq, hlater, hrest⟩, k, hkn, hqueue⟩
      · have hspares := ih (hp.move hmove) (hn.moves hmove.single) hrest
        simp only [serveAll, htable, hserve]
        refine ⟨fun r hr => ?_, hspares.waiting⟩
        rw [hspares.queue r (hr.move hmove)]
        refine hreceives.others r ?_
        rintro rfl
        exact hkn (hp.apart k n r hqueue hr)

theorem Placed.resume_spares {h : History} (hp : Placed g h) (hn : g.Absent n) {m : Value}
    {p : Ref .pipeline} {d : Delivery} (hd : g.Held h m p d) (hw : g.Elsewhere n d) :
    g.Spares h m p n (g.resume d) := by
  obtain ⟨rfl, rfl, hq, hlater, hrest⟩ := hd
  obtain ⟨k, hkn, hqueue⟩ := hw
  rcases push_cases hq (hp.valid.sound.queue _ hq) d.message with
    ⟨-, hpush⟩ | ⟨g₁, records, hpush, hreceives⟩
  · simp only [resume, hpush]
    refine ⟨fun _ _ => rfl, fun d' hd' => ?_⟩
    cases hd'
    exact ⟨⟨rfl, rfl, hq, hlater, hrest⟩, k, hkn, hqueue⟩
  · have hserve : g₁.serve d.message d.connection.input d.later = (g₁, [], none) := by
      refine serve_of_ne _ fun r hr => ?_
      rw [Graph.port, hreceives.ports]
      exact (hlater r hr).2
    have hmove := (push_fill hpush).move
    have hspares := (hp.move hmove).serveAll_spares (hn.moves hmove.single) d.message hrest
    simp only [resume, hpush, hserve]
    refine ⟨fun r hr => ?_, hspares.waiting⟩
    rw [hspares.queue r (hr.move hmove)]
    refine hreceives.others r ?_
    rintro rfl
    exact hkn (hp.apart k n _ hqueue hr)

/-! ## Deliveries without waiting -/

theorem Placed.tryServeAll_spares {h : History} (hp : Placed g h) (hn : g.Absent n) (m : Value)
    {p : Ref .pipeline} {cs : List Connection} (hcs : ∀ c ∈ cs, ∃ o i, .linked o i c ∈ h.of p)
    {q : Ref .queue} (hq : g.InputQueue n q) : (g.tryServeAll m p cs).1.queue q = g.queue q := by
  induction cs generalizing g with
  | nil => rfl
  | cons c cs ih =>
    have hc := hcs c List.mem_cons_self
    have hrest : ∀ c ∈ cs, ∃ o i, .linked o i c ∈ h.of p := fun d hd =>
      hcs d (List.mem_cons_of_mem c hd)
    unfold tryServeAll
    split
    · exact ih hp hn hrest hq
    · next k htable =>
      have hmoves := (g.tryServe_fills m c.input (g.portsOf k .input)).moves
      have hq' : (g.tryServe m c.input (g.portsOf k .input)).1.InputQueue n q := hq.moves hmoves
      refine (ih (hp.moves hmoves) (hn.moves hmoves) hrest hq').trans (tryServe_untouched m ?_)
      rintro ⟨i, hi, htarget⟩
      unfold target? at htarget
      split at htarget
      · next hlabel =>
        have hfilter := hp.valid.sound.filter_label hi
        rw [hlabel] at hfilter
        have hqueue := hp.inputQueue_of_target hc htable ⟨i, hfilter, htarget⟩
        rw [hp.apart k n q hqueue hq] at htable
        exact hn p _ htable
      · cases htarget

/-! ## Gone for good -/

/-- What is left of a node that was removed from a pipeline: no connection has its id and the
pipeline does not know it. Its ports cannot be linked anywhere, which is a bad value wherever the
name of the pipeline has a text. It cannot be removed again, its outputs deliver nothing, and no
delivery that begins now changes the queue of one of its inputs: neither at once, nor when it goes
on after it had to wait, whatever happened in the meantime. -/
structure Gone (g : Graph) (p : Ref .pipeline) (n : Ref .node) : Prop where
  untouched : ∀ c ∈ (g.pipeline p).connections, c.touches (g.node n).id = false
  unknown : (g.pipeline p).node? (g.node n).id = none
  unlinkable : ∀ r o i, (g.port o).node = n ∨ (g.port i).node = n →
    ∃ fault, g.connect r o i = .error fault ∧
      ∀ text, g.shown (g.pipeline r).name = .ok text → ∃ rule, fault = .refused rule
  removed : ∀ r, g.remove r n = (g, false)
  silent : ∀ o m, (g.port o).node = n →
    g.deliver o m = (g.pipelineOf o).map (fun _ => { graph := g }) ∧
      g.tryDeliver o m = (g.pipelineOf o).map fun _ => (g, [], true)
  spared : ∀ o m outcome, g.deliver o m = .ok outcome →
    ∀ q, g.InputQueue n q → outcome.graph.queue q = g.queue q
  passed : ∀ o m outcome, g.deliver o m = .ok outcome →
    ∀ ts g' d, Proceeds outcome.graph outcome.suspended ts g' (some d) →
      ∀ q, g'.InputQueue n q → (g'.resume d).graph.queue q = g'.queue q
  untried : ∀ o m r, g.tryDeliver o m = .ok r →
    ∀ q, g.InputQueue n q → r.1.queue q = g.queue q

/-- A delivery that waits for some other node goes on waiting for others only. -/
theorem Proceeds.elsewhere {r p : Ref .pipeline} {id : Nat} {m : Value} {s s' : Option Delivery}
    {ts : List Turn} {h : History} (hproceeds : Proceeds g s ts g' s') (hrun : Run g h)
    (hmem : .removed n id ∈ h.of r)
    (hs : ∀ d, s = some d → g.Held h m p d ∧ g.Elsewhere n d) :
    ∃ h', Run g' h' ∧ .removed n id ∈ h'.of r ∧
      ∀ d, s' = some d → g'.Held h' m p d ∧ g'.Elsewhere n d := by
  induction hproceeds generalizing h with
  | stop => exact ⟨h, hrun, hmem, hs⟩
  | @other g _ d _ _ op hfits _ ih =>
    obtain ⟨hheld, k, hkn, hqueue⟩ := hs d rfl
    refine ih (hrun.next op hfits) ?_ fun d' hd' => ?_
    · rw [History.of, List.filterMap_append]
      exact List.mem_append_left _ hmem
    · cases hd'
      exact ⟨hheld.preserved (hrun.valid.after hfits).2, k, hkn, hqueue.after hfits⟩
  | @again g _ d _ _ _ ih =>
    obtain ⟨hheld, helsewhere⟩ := hs d rfl
    have hnext := hrun.next (.resume d) trivial
    rw [show (Operation.resume d).event? g = none from rfl, Option.toList_none,
      List.append_nil] at hnext
    refine ih hnext hmem fun d' hd' => ?_
    exact (hrun.placed.resume_spares (absent_of_removed hrun hmem) hheld helsewhere).waiting d' hd'

theorem gone_of_removed {h : History} (hrun : Run g h) {p : Ref .pipeline} {id : Nat}
    (hmem : .removed n id ∈ h.of p) : g.Gone p n := by
  obtain ⟨hcreated, hnone⟩ := hrun.departed p n id hmem
  have habsent := absent_of_removed hrun hmem
  have hid : (g.node n).id = id := ((hrun.recorded p).ids id n hcreated).2
  have huntouched : ∀ c ∈ (g.pipeline p).connections, c.touches (g.node n).id = false := by
    intro c hc
    obtain ⟨no, ni, ho, hi⟩ := hrun.valid.attached p c hc
    rw [hid, Connection.touches, Bool.or_eq_false_iff, decide_eq_false_iff_not,
      decide_eq_false_iff_not]
    refine ⟨?_, ?_⟩
    · rintro rfl
      rw [hnone] at ho
      cases ho
    · rintro rfl
      rw [hnone] at hi
      cases hi
  have hlinked : ∀ r o, ∀ c ∈ g.connectionsFrom r o, ∃ o i, .linked o i c ∈ h.of r := fun r o c hc =>
    hrun.valid.link_of_mem (List.mem_of_mem_filter hc)
  refine ⟨huntouched, hid ▸ hnone, fun r o i => habsent.connect r, fun r => ?_, fun o m ho => ?_,
    fun o m outcome hdeliver => ?_, fun o m outcome hdeliver ts g' d hproceeds => ?_,
    fun o m r htry q hq => ?_⟩
  · rw [remove, habsent.isMember, if_neg Bool.false_ne_true]
  · rw [deliver, tryDeliver]
    cases hhome : g.pipelineOf o with
    | error fault => exact ⟨rfl, rfl⟩
    | ok r =>
      have hr : r = p := by
        rw [pipelineOf_eq_home hhome, ho]
        exact hrun.homed.node p n (List.mem_of_getElem? hcreated)
      have hnothing : g.connectionsFrom r o = [] := by
        subst hr
        refine List.filter_eq_nil_iff.mpr fun c hc => ?_
        have hids := huntouched c hc
        rw [Connection.touches, Bool.or_eq_false_iff, decide_eq_false_iff_not] at hids
        simp [ho, hids.1]
      refine ⟨?_, ?_⟩
      · change Except.ok (g.serveAll m r (g.connectionsFrom r o)) = _
        rw [hnothing]
        rfl
      · change Except.ok (g.tryServeAll m r (g.connectionsFrom r o)) = _
        rw [hnothing]
        rfl
  · obtain ⟨r, -, hr⟩ := bind_eq_ok.mp hdeliver
    cases hr
    exact (hrun.placed.serveAll_spares habsent m (hlinked r o)).queue
  · have hnext := hrun.next (.send o m) trivial
    rw [show (Operation.send o m).event? g = none from rfl, Option.toList_none, List.append_nil,
      show (Operation.send o m).after g = outcome.graph by simp only [Operation.after, hdeliver]]
      at hnext
    obtain ⟨r, -, hr⟩ := bind_eq_ok.mp hdeliver
    cases hr
    have hspares := hrun.placed.serveAll_spares habsent m (hlinked r o)
    obtain ⟨h', hrun', hmem', hwaits⟩ := hproceeds.elsewhere hnext hmem hspares.waiting
    obtain ⟨hheld, helsewhere⟩ := hwaits d rfl
    exact (hrun'.placed.resume_spares (absent_of_removed hrun' hmem') hheld helsewhere).queue
  · obtain ⟨p', -, hr⟩ := bind_eq_ok.mp htry
    cases hr
    exact hrun.placed.tryServeAll_spares habsent m (hlinked p' o) hq

/-! ## Runs -/

/-- Once a node was removed from a pipeline it is gone, under the id it had, in every state that the
run reaches from there. -/
theorem run_removed_gone {h : History} (hrun : Run g h) {p : Ref .pipeline} {ops : List Operation}
    (hfits : Operation.AllFit g (.remove p n :: ops)) (hremoved : (g.remove p n).2 = true) :
    (Operation.afterAll (g, h) (.remove p n :: ops)).1.Gone p n ∧
      ((Operation.afterAll (g, h) (.remove p n :: ops)).1.node n).id = (g.node n).id := by
  have hrun' := hrun.all hfits
  have hmem : .removed n (g.node n).id ∈
      (Operation.afterAll (g, h) (.remove p n :: ops)).2.of p := by
    obtain ⟨new, hnew⟩ := Operation.exists_history
      ((Operation.remove p n).after g, h ++ ((Operation.remove p n).event? g).toList) ops
    rw [Operation.afterAll, hnew, Operation.event?, if_pos hremoved, History.of,
      List.filterMap_append, List.filterMap_append]
    simp
  exact ⟨gone_of_removed hrun' hmem,
    ((hrun'.recorded p).ids _ n (hrun'.departed p n _ hmem).1).2⟩

/-- The node with the full queue is removed. Another one is created and linked in its place, one is
refused, and so is a link to the node that was removed. -/
def replaced : List Operation :=
  [.create ⟨0⟩ .processingNode .null, .create ⟨0⟩ .demosaic (.int 5), .link ⟨0⟩ ⟨1⟩ ⟨6⟩,
    .link ⟨0⟩ ⟨1⟩ ⟨2⟩]

/-- The output has two connections again, and a delivery does not wait in front of the full queue. -/
theorem fullTarget_gone :
    (let g := (Operation.afterAll (Operation.afterAll ({}, []) fullTarget)
        (.remove ⟨0⟩ ⟨1⟩ :: replaced)).1
     g.Gone ⟨0⟩ ⟨1⟩ ∧ (g.node ⟨1⟩).id = 1 ∧
      (g.pipeline ⟨0⟩).connections.map Connection.inputId = [2, 3] ∧ g.InputQueue ⟨1⟩ ⟨1⟩ ∧
      g.Stuck ⟨1⟩ ∧ (g.deliver ⟨1⟩ (.int 2)).toOption.map (·.suspended.isNone) = some true) := by
  have hfits : Operation.AllFit (Operation.afterAll ({}, []) fullTarget).1
      (.remove ⟨0⟩ ⟨1⟩ :: replaced) := by
    refine ⟨?_, ?_, ?_, ?_, ?_, trivial⟩
    all_goals
      simp only [Operation.Fits]
      decide +kernel
  have hgone := run_removed_gone run_fullTarget hfits (by decide +kernel)
  rw [Prod.eta] at hgone
  refine ⟨hgone.1, hgone.2.trans ?_, ?_, ⟨⟨2⟩, ?_, ?_, ?_⟩, ⟨?_, ?_⟩, ?_⟩
  all_goals decide +kernel

end FrameGraph.Graph
