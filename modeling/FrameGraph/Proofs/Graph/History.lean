import FrameGraph.Proofs.Graph.Decomposition

/-!
# Pipelines and their histories

What a pipeline contains is determined by what was achieved on it. Its nodes are those that were
created and not removed since, under ids that count the creations. Its connections are those whose
latest link was followed neither by an unlinking nor by the removal of a node at one of the ends, in
the order of these links.

* `survivors`, `standing`: nodes and connections as the history gives them.
* `Run.recorded`: a pipeline has these along every run.
* `run_refines_history`: the same, and what is refused leaves all pipelines as they were.
-/

namespace FrameGraph

/-! ## What a history gives -/

namespace Event

/-- Whether a connection that was there is gone or no longer the latest of its kind. -/
def ends (c : Connection) : Event → Bool
  | .created _ => false
  | .removed _ id => c.touches id
  | .linked _ _ d => d = c
  | .unlinked d => d = c

def node? : Event → Option (Ref .node)
  | .created n => some n
  | _ => none

end Event

/-- The nodes that were created, in order. -/
def created (es : List Event) : List (Ref .node) := es.filterMap Event.node?

/-- The nodes that were created and not removed since, with ids that count up from `k`. -/
def survivors (k : Nat) : List Event → List (Nat × Ref .node)
  | [] => []
  | .created n :: rest =>
    if .removed n k ∈ rest then survivors (k + 1) rest else (k, n) :: survivors (k + 1) rest
  | .removed _ _ :: rest => survivors k rest
  | .linked _ _ _ :: rest => survivors k rest
  | .unlinked _ :: rest => survivors k rest

/-- The connections that were linked and have not ended since. -/
def standing : List Event → List Connection
  | [] => []
  | .linked _ _ c :: rest => if rest.any (Event.ends c) then standing rest else c :: standing rest
  | .created _ :: rest => standing rest
  | .removed _ _ :: rest => standing rest
  | .unlinked _ :: rest => standing rest

/-! ## Nodes -/

theorem created_append (es es' : List Event) : created (es ++ es') = created es ++ created es' :=
  List.filterMap_append

theorem getElem?_created_append {es : List Event} {k : Nat} {n : Ref .node}
    (h : (created es)[k]? = some n) (es' : List Event) : (created (es ++ es'))[k]? = some n := by
  obtain ⟨hlt, -⟩ := List.getElem?_eq_some_iff.mp h
  rw [created_append, List.getElem?_append_left hlt]
  exact h

theorem created_append_of_none (es : List Event) {e : Event} (he : e.node? = none) :
    created (es ++ [e]) = created es := by
  rw [created_append]
  simp [created, he]

theorem survivors_append_created (k : Nat) (es : List Event) (n : Ref .node) :
    survivors k (es ++ [.created n]) = survivors k es ++ [(k + (created es).length, n)] := by
  induction es generalizing k with
  | nil => rfl
  | cons e es ih =>
    cases e with
    | created n' =>
      have hlen : k + 1 + (created es).length = k + (created (.created n' :: es)).length := by
        simp only [created, List.filterMap_cons, Event.node?, List.length_cons]
        omega
      simp only [List.cons_append, survivors, List.mem_append, List.mem_singleton, reduceCtorEq,
        or_false, ih, hlen]
      split <;> rfl
    | removed | linked | unlinked => exact ih k

theorem survivors_append_removed (k : Nat) (es : List Event) (n : Ref .node) (id : Nat) :
    survivors k (es ++ [.removed n id]) = (survivors k es).filter fun e => e ≠ (id, n) := by
  induction es generalizing k with
  | nil => rfl
  | cons e es ih =>
    cases e with
    | created n' =>
      simp only [List.cons_append, survivors, List.mem_append, List.mem_singleton, ih]
      by_cases hes : .removed n' k ∈ es
      · rw [if_pos (Or.inl hes), if_pos hes]
      · by_cases hlast : Event.removed n' k = .removed n id
        · cases hlast
          rw [if_pos (Or.inr rfl), if_neg hes, List.filter_cons_of_neg (by simp)]
        · rw [if_neg (not_or.mpr ⟨hes, hlast⟩), if_neg hes, List.filter_cons_of_pos]
          rw [decide_eq_true_eq]
          rintro ⟨⟩
          exact hlast rfl
    | removed | linked | unlinked => exact ih k

theorem survivors_append_other (k : Nat) (es : List Event) {e : Event} (he : e.node? = none)
    (hremoved : ∀ n id, e ≠ .removed n id) : survivors k (es ++ [e]) = survivors k es := by
  induction es generalizing k with
  | nil =>
    cases e with
    | created n => cases he
    | removed | linked | unlinked => rfl
  | cons e' es ih =>
    cases e' with
    | created n =>
      have hlast : ¬Event.removed n k = e := fun heq => hremoved n k heq.symm
      simp only [List.cons_append, survivors, List.mem_append, List.mem_singleton, hlast, or_false,
        ih]
    | removed | linked | unlinked => exact ih k

theorem created_of_mem_survivors {k id : Nat} {n : Ref .node} {es : List Event}
    (h : (id, n) ∈ survivors k es) : k ≤ id ∧ (created es)[id - k]? = some n := by
  induction es generalizing k with
  | nil => cases h
  | cons e es ih =>
    cases e with
    | created n' =>
      have hrest : (id, n) ∈ survivors (k + 1) es →
          k ≤ id ∧ (created (.created n' :: es))[id - k]? = some n := by
        intro h
        obtain ⟨hle, hget⟩ := ih h
        obtain ⟨j, rfl⟩ := Nat.exists_eq_add_of_le hle
        refine ⟨by omega, ?_⟩
        rw [show k + 1 + j - k = j + 1 by omega]
        rw [show k + 1 + j - (k + 1) = j by omega] at hget
        exact hget
      rw [survivors] at h
      split at h
      · exact hrest h
      · rcases List.mem_cons.mp h with h | h
        · cases h
          exact ⟨Nat.le_refl _, by rw [Nat.sub_self]; rfl⟩
        · exact hrest h
    | removed | linked | unlinked => exact ih h

theorem survivors_ids_nodup (k : Nat) (es : List Event) :
    ((survivors k es).map Prod.fst).Nodup := by
  induction es generalizing k with
  | nil => exact List.nodup_nil
  | cons e es ih =>
    cases e with
    | created n =>
      rw [survivors]
      split
      · exact ih (k + 1)
      · refine List.nodup_cons.mpr ⟨fun hk => ?_, ih (k + 1)⟩
        obtain ⟨⟨id, n'⟩, he, rfl⟩ := List.mem_map.mp hk
        have hle := (created_of_mem_survivors he).1
        omega
    | removed | linked | unlinked => exact ih k

/-! ## Connections -/

theorem linked_of_mem_standing {c : Connection} {es : List Event} (h : c ∈ standing es) :
    ∃ o i, .linked o i c ∈ es := by
  induction es with
  | nil => cases h
  | cons e es ih =>
    have hrest : c ∈ standing es → ∃ o i, .linked o i c ∈ e :: es := by
      intro h
      obtain ⟨o, i, hes⟩ := ih h
      exact ⟨o, i, List.mem_cons_of_mem _ hes⟩
    cases e with
    | linked o i d =>
      rw [standing] at h
      split at h
      · exact hrest h
      · rcases List.mem_cons.mp h with rfl | h
        · exact ⟨o, i, List.mem_cons_self⟩
        · exact hrest h
    | created | removed | unlinked => exact hrest h

theorem standing_nodup (es : List Event) : (standing es).Nodup := by
  induction es with
  | nil => exact List.nodup_nil
  | cons e es ih =>
    cases e with
    | linked o i c =>
      rw [standing]
      split
      · exact ih
      · next hends =>
        refine List.nodup_cons.mpr ⟨fun hc => hends ?_, ih⟩
        obtain ⟨o', i', hes⟩ := linked_of_mem_standing hc
        exact List.any_eq_true.mpr ⟨_, hes, by simp [Event.ends]⟩
    | created | removed | unlinked => exact ih

/-- An event ends connections, and a link adds one at the end. -/
theorem standing_append (es : List Event) (e : Event) :
    standing (es ++ [e]) = ((standing es).filter fun c => !e.ends c) ++ standing [e] := by
  induction es with
  | nil => rfl
  | cons e' es ih =>
    cases e' with
    | linked o i c =>
      simp only [List.cons_append, standing, List.any_append, List.any_cons, List.any_nil,
        Bool.or_false, ih]
      -- The last event matters only for a connection that is still there when it comes.
      by_cases hes : es.any (Event.ends c) = true
      · rw [if_pos (by rw [hes]; rfl), if_pos hes]
      · by_cases he : e.ends c = true
        · rw [if_pos (by rw [he, Bool.or_true]), if_neg hes, List.filter_cons_of_neg (by simp [he])]
        · rw [if_neg (by simp [hes, he]), if_neg hes, List.filter_cons_of_pos (by simp [he])]
          rfl
    | created | removed | unlinked => exact ih

/-! ## Runs -/

theorem History.of_append (h : History) (p q : Ref .pipeline) (e : Event) :
    History.of (h ++ [(p, e)]) q = History.of h q ++ if p = q then [e] else [] := by
  rw [History.of, List.filterMap_append, History.of]
  split <;> simp_all

namespace Graph

/-- The pipeline is what its history gives. -/
structure Recorded (g : Graph) (p : Ref .pipeline) (es : List Event) : Prop where
  nodes : (g.pipeline p).nodes = survivors 0 es
  nextId : (g.pipeline p).nextId = (created es).length
  connections : (g.pipeline p).connections = standing es
  ids : ∀ k n, (created es)[k]? = some n → g.nodes.Has n ∧ (g.node n).id = k

variable {g g' : Graph} {p : Ref .pipeline} {es : List Event}

theorem Recorded.kept (h : g.Recorded p es) (hk : g.Kept g') : g'.Recorded p es where
  nodes := (hk.books p).nodes.trans h.nodes
  nextId := (hk.books p).nextId.trans h.nextId
  connections := (hk.books p).connections.trans h.connections
  ids k n hn := by
    obtain ⟨hhas, hid⟩ := h.ids k n hn
    obtain ⟨hhas', hid', -⟩ := hk.nodes n hhas
    exact ⟨hhas', hid'.trans hid⟩

/-- What is noted for another pipeline does not matter. -/
theorem Recorded.noted_of_ne (h : g.Recorded p es) {q : Ref .pipeline} {e : Event}
    (hn : g.Noted q e g') (hqp : q ≠ p) : g'.Recorded p es := by
  have hsame := hn.pipeline_of_ne hqp
  refine ⟨?_, ?_, ?_, fun k n hk => ?_⟩
  · rw [hsame]
    exact h.nodes
  · rw [hsame]
    exact h.nextId
  · rw [hsame]
    exact h.connections
  · rw [Graph.node, hn.nodes_eq]
    exact h.ids k n hk

theorem Recorded.ids_nodup (h : g.Recorded p es) :
    ((g.pipeline p).nodes.map Prod.fst).Nodup := by
  rw [h.nodes]
  exact survivors_ids_nodup 0 es

theorem Recorded.created_of_node? (h : g.Recorded p es) {id : Nat} {n : Ref .node}
    (hn : (g.pipeline p).node? id = some n) : (created es)[id]? = some n := by
  have hmem := mem_of_lookup_eq_some hn
  rw [h.nodes] at hmem
  exact (created_of_mem_survivors hmem).2

theorem Recorded.connections_nodup (h : g.Recorded p es) : (g.pipeline p).connections.Nodup := by
  rw [h.connections]
  exact standing_nodup es

theorem Recorded.noted_created (h : g.Recorded p es) {n : Ref .node}
    (hn : g.Noted p (.created n) g') : g'.Recorded p (es ++ [.created n]) := by
  cases hn with
  | created _ hp hhas hid _ =>
    refine ⟨?_, ?_, ?_, fun k n' hk => ?_⟩
    · rw [pipeline_modifyPipeline_self hp, survivors_append_created, ← h.nodes, ← h.nextId,
        Nat.zero_add]
    · rw [pipeline_modifyPipeline_self hp, created_append, List.length_append, ← h.nextId]
      rfl
    · rw [pipeline_modifyPipeline_self hp, standing_append, ← h.connections]
      simp [Event.ends, standing]
    · rw [created_append, List.getElem?_append] at hk
      split at hk
      · exact h.ids k n' hk
      · -- Only the new node lies behind those that were created before.
        obtain ⟨hlt, -⟩ := List.getElem?_eq_some_iff.mp hk
        have hlast : k = (created es).length := by
          have : k - (created es).length < 1 := hlt
          omega
        subst hlast
        rw [Nat.sub_self] at hk
        cases hk
        exact ⟨hhas, hid.trans h.nextId⟩

/-- An event that creates no node leaves the ids alone, so that only nodes and connections remain to
be compared. -/
theorem Recorded.noted_other (h : g.Recorded p es) {e : Event} (hn : g.Noted p e g')
    (he : e.node? = none) (hnodes : (g'.pipeline p).nodes = survivors 0 (es ++ [e]))
    (hconnections : (g'.pipeline p).connections = standing (es ++ [e])) :
    g'.Recorded p (es ++ [e]) := by
  have hcreated := created_append_of_none es he
  refine ⟨hnodes, ?_, hconnections, fun k n hk => ?_⟩
  · rw [hcreated, ← h.nextId]
    cases hn with
    | created => cases he
    | removed _ hp | linked _ _ _ hp | unlinked _ hp => rw [pipeline_modifyPipeline_self hp]
  · rw [hcreated] at hk
    rw [Graph.node, hn.nodes_eq]
    exact h.ids k n hk

theorem Recorded.noted (h : g.Recorded p es) {e : Event} (hn : g.Noted p e g') :
    g'.Recorded p (es ++ [e]) := by
  cases hn with
  | created n hp hhas hid hhome => exact h.noted_created (.created n hp hhas hid hhome)
  | removed n hp hmember =>
    have hentry : ((g.node n).id, n) ∈ (g.pipeline p).nodes := by
      rw [isMember, decide_eq_true_eq] at hmember
      exact mem_of_lookup_eq_some hmember
    refine h.noted_other (.removed n hp hmember) rfl ?_ ?_
    · rw [pipeline_modifyPipeline_self hp, survivors_append_removed, ← h.nodes]
      refine List.filter_congr fun e he => ?_
      -- No two entries share an id, so the entry of the node is the only one that goes.
      rw [decide_eq_decide, not_iff_not]
      refine ⟨fun hid => ?_, fun heq => by rw [heq]⟩
      exact List.inj_on_of_nodup_map h.ids_nodup he hentry hid
    · rw [pipeline_modifyPipeline_self hp, standing_append, ← h.connections]
      exact (List.append_nil _).symm
  | linked o i c hp hc homember ho himember hi hinput hnew =>
    refine h.noted_other (.linked o i c hp hc homember ho himember hi hinput hnew) rfl ?_ ?_
    · rw [pipeline_modifyPipeline_self hp, survivors_append_other (e := .linked o i c) 0 es rfl nofun]
      exact h.nodes
    · rw [pipeline_modifyPipeline_self hp, standing_append, ← h.connections,
        List.filter_eq_self.mpr]
      · rfl
      · intro d hd
        rw [Event.ends, Bool.not_eq_true', decide_eq_false_iff_not]
        rintro rfl
        exact hnew hd
  | unlinked c hp hc =>
    refine h.noted_other (.unlinked c hp hc) rfl ?_ ?_
    · rw [pipeline_modifyPipeline_self hp, survivors_append_other (e := .unlinked c) 0 es rfl nofun]
      exact h.nodes
    · rw [pipeline_modifyPipeline_self hp, standing_append, ← h.connections,
        h.connections_nodup.erase_eq_filter, standing, standing, List.append_nil]
      refine List.filter_congr fun d _ => ?_
      rw [Bool.eq_iff_iff, bne_iff_ne, Event.ends, Bool.not_eq_true', decide_eq_false_iff_not]
      exact ne_comm

theorem Recorded.noted_all {h : History} (hr : ∀ p, g.Recorded p (h.of p)) {q : Ref .pipeline}
    {e : Event} (hn : g.Noted q e g') (p : Ref .pipeline) :
    g'.Recorded p (History.of (h ++ [(q, e)]) p) := by
  rw [History.of_append]
  by_cases hqp : q = p
  · subst hqp
    rw [if_pos rfl]
    exact (hr q).noted hn
  · rw [if_neg hqp, List.append_nil]
    exact (hr p).noted_of_ne hn hqp

theorem Run.recorded {h : History} (hrun : Run g h) (p : Ref .pipeline) :
    g.Recorded p (h.of p) := by
  refine hrun.induct (P := fun g h => ∀ p, g.Recorded p (h.of p)) ?_ ?_ ?_ p
  · exact fun p => ⟨rfl, rfl, rfl, nofun⟩
  · exact fun ih hm p => (ih p).kept hm.kept
  · exact fun ih hn => Recorded.noted_all ih hn

/-- A pipeline refines its history: its nodes are those that were created and not removed since, the
`k`-th node that was created has the id `k`, and its connections are those that were linked and have
not ended since, in the order of their latest links. An operation that is refused or answers no
leaves the nodes, the next id and the connections as they were. -/
theorem run_refines_history {h : History} (hrun : Run g h) (p : Ref .pipeline) :
    (g.pipeline p).nodes = survivors 0 (h.of p) ∧
      (g.pipeline p).nextId = (created (h.of p)).length ∧
      (∀ k n, (created (h.of p))[k]? = some n → (g.node n).id = k) ∧
      (g.pipeline p).connections = standing (h.of p) ∧
      ∀ op : Operation, op.Fits g → op.event? g = none →
        ((op.after g).pipeline p).SameBooks (g.pipeline p) := by
  have hr := hrun.recorded p
  refine ⟨hr.nodes, hr.nextId, fun k n hk => (hr.ids k n hk).2, hr.connections, ?_⟩
  intro op hfits hnone
  rcases op.moving hfits with ⟨-, hmoves⟩ | ⟨q, e, g₁, hsome, -, -⟩
  · exact hmoves.kept.books p
  · rw [hnone] at hsome
    cases hsome

/-- Three nodes, one of which is removed, and a link that is broken and made again. The second
creation, the second link and the last removal are refused. -/
def linkedTwice : List Operation :=
  [.newPipeline (.text "p"), .create ⟨0⟩ .processingNode .null, .create ⟨0⟩ .demosaic (.int 5),
    .create ⟨0⟩ .processingNode .null, .link ⟨0⟩ ⟨1⟩ ⟨2⟩, .link ⟨0⟩ ⟨1⟩ ⟨2⟩, .unlink ⟨0⟩ ⟨1⟩ ⟨2⟩,
    .link ⟨0⟩ ⟨1⟩ ⟨2⟩, .create ⟨0⟩ .node .null, .remove ⟨0⟩ ⟨2⟩, .remove ⟨0⟩ ⟨2⟩]

theorem run_linkedTwice :
    Run (Operation.afterAll ({}, []) linkedTwice).1 (Operation.afterAll ({}, []) linkedTwice).2 := by
  refine Run.start.all ⟨trivial, ?_, ?_, ?_, ?_, ?_, ?_, ?_, ?_, ?_, ?_, trivial⟩
  all_goals
    simp only [Operation.Fits]
    decide

theorem linkedTwice_refines_history :
    ((Operation.afterAll ({}, []) linkedTwice).1.pipeline ⟨0⟩).nodes = [(0, ⟨0⟩), (1, ⟨1⟩)] ∧
      ((Operation.afterAll ({}, []) linkedTwice).1.pipeline ⟨0⟩).nextId = 3 ∧
      ((Operation.afterAll ({}, []) linkedTwice).1.pipeline ⟨0⟩).connections =
        [⟨0, ⟨"", "output"⟩, 1, ⟨"", "input"⟩⟩] := by
  obtain ⟨hnodes, hnext, -, hconnections, -⟩ := run_refines_history run_linkedTwice ⟨0⟩
  refine ⟨hnodes.trans ?_, hnext.trans ?_, hconnections.trans ?_⟩
  all_goals decide

end Graph

end FrameGraph
