import FrameGraph.Workspace

/-!
# Actions that succeed and actions that fail

An action that succeeds consists of steps that succeed, and what it does to the graph is what the
operation of the graph behind it does. Records only add to the journal. An action that fails does so
at one step, after those before have succeeded.

* `run_bind_ok`, `run_require_ok`: a successful action taken apart.
* `run_bind_error`, `run_foldlM_error`, `run_forM_error`: where an action fails.
* `succeeds_andThen_iff`, `succeeds_forM_iff`: conditions of actions in order.
* `newPipeline_ok`, `create_ok`, `link_ok`, `getOrCreate_ok`: the operation of the graph that an
  action carried out.
-/

namespace FrameGraph.Workspace

variable {α β : Type} {w w' : Workspace}

theorem run_bind_ok {x : Action α} {f : α → Action β} {b : β} :
    (x >>= f).run w = .ok b w' ↔ ∃ a w₁, x.run w = .ok a w₁ ∧ (f a).run w₁ = .ok b w' := by
  change EStateM.bind x f w = .ok b w' ↔ _
  unfold EStateM.bind
  cases h : x w with
  | ok a w₁ =>
    constructor
    · intro hf
      exact ⟨a, w₁, h, hf⟩
    · rintro ⟨a', w₁', ha, hf⟩
      cases h.symm.trans ha
      exact hf
  | error fault w₁ =>
    constructor
    · intro hf
      cases hf
    · rintro ⟨a', w₁', ha, -⟩
      cases h.symm.trans ha

theorem run_pure_ok {a b : α} : (pure a : Action α).run w = .ok b w' ↔ a = b ∧ w = w' := by
  constructor
  · intro h
    cases h
    exact ⟨rfl, rfl⟩
  · rintro ⟨rfl, rfl⟩
    rfl

theorem run_get_ok {v : Workspace} : (get : Action Workspace).run w = .ok v w' ↔ w = v ∧ w = w' := by
  constructor
  · intro h
    cases h
    exact ⟨rfl, rfl⟩
  · rintro ⟨rfl, rfl⟩
    rfl

theorem run_get_bind {f : Workspace → Action β} : (get >>= f).run w = (f w).run w := rfl

theorem run_require_ok {x : Except Fault α} {a : α} :
    (require x).run w = .ok a w' ↔ x = .ok a ∧ w = w' := by
  cases x with
  | ok b =>
    refine run_pure_ok.trans ⟨?_, ?_⟩
    · rintro ⟨rfl, rfl⟩
      exact ⟨rfl, rfl⟩
    · rintro ⟨hb, rfl⟩
      cases hb
      exact ⟨rfl, rfl⟩
  | error fault =>
    refine ⟨fun h => ?_, fun h => ?_⟩
    · cases h
    · cases h.1

/-- What is there need not be asked for. -/
theorem run_require_bind {x : Except Fault α} {a : α} (hx : x = .ok a) {f : α → Action β} :
    (require x >>= f).run w = (f a).run w := by
  rw [hx]
  rfl

theorem not_run_throw_ok {fault : Fault} {a : α} : ¬(throw fault : Action α).run w = .ok a w' := by
  intro h
  cases h

/-! ## Failures -/

theorem run_bind_error {x : Action α} {f : α → Action β} {fault : Fault} :
    (x >>= f).run w = .error fault w' ↔
      x.run w = .error fault w' ∨ ∃ a w₁, x.run w = .ok a w₁ ∧ (f a).run w₁ = .error fault w' := by
  change EStateM.bind x f w = .error fault w' ↔ x w = .error fault w' ∨ _
  unfold EStateM.bind
  cases h : x w with
  | ok a w₁ =>
    constructor
    · intro hf
      exact Or.inr ⟨a, w₁, h, hf⟩
    · rintro (ha | ⟨a', w₁', ha, hf⟩)
      · cases ha
      · cases h.symm.trans ha
        exact hf
  | error cause w₁ =>
    constructor
    · intro hf
      cases hf
      exact Or.inl rfl
    · rintro (ha | ⟨a', w₁', ha, -⟩)
      · cases ha
        rfl
      · cases h.symm.trans ha

theorem run_require_error {x : Except Fault α} {fault : Fault} :
    (require x).run w = .error fault w' ↔ x = .error fault ∧ w = w' := by
  cases x with
  | ok b => exact ⟨nofun, fun h => nomatch h.1⟩
  | error cause =>
    constructor
    · intro h
      cases h
      exact ⟨rfl, rfl⟩
    · rintro ⟨h, rfl⟩
      cases h
      rfl

theorem run_require_bind_error {x : Except Fault α} {f : α → Action β} {fault : Fault} :
    (require x >>= f).run w = .error fault w' ↔
      (x = .error fault ∧ w = w') ∨ ∃ a, x = .ok a ∧ (f a).run w = .error fault w' := by
  rw [run_bind_error, run_require_error]
  refine or_congr .rfl ?_
  simp only [run_require_ok]
  constructor
  · rintro ⟨a, _, ⟨ha, rfl⟩, hf⟩
    exact ⟨a, ha, hf⟩
  · rintro ⟨a, ha, hf⟩
    exact ⟨a, w, ⟨ha, rfl⟩, hf⟩

theorem run_throw_error {fault cause : Fault} :
    (throw cause : Action α).run w = .error fault w' ↔ cause = fault ∧ w = w' := by
  constructor
  · intro h
    cases h
    exact ⟨rfl, rfl⟩
  · rintro ⟨rfl, rfl⟩
    rfl

theorem not_run_pure_error {a : α} {fault : Fault} : ¬(pure a : Action α).run w = .error fault w' := by
  intro h
  cases h

/-- A fold fails at the first step that fails. -/
theorem run_foldlM_error {f : β → α → Action β} {b : β} {as : List α} {fault : Fault} :
    (as.foldlM f b).run w = .error fault w' ↔ ∃ before a after b' w₁, as = before ++ a :: after ∧
      (before.foldlM f b).run w = .ok b' w₁ ∧ (f b' a).run w₁ = .error fault w' := by
  constructor
  · intro h
    induction as generalizing b w with
    | nil => exact absurd h not_run_pure_error
    | cons a as ih =>
      rw [List.foldlM_cons] at h
      rcases run_bind_error.mp h with h | ⟨b₁, w₁, hfirst, h⟩
      · exact ⟨[], a, as, b, w, rfl, rfl, h⟩
      · obtain ⟨before, a', after, b', w₂, rfl, hbefore, hlast⟩ := ih h
        refine ⟨a :: before, a', after, b', w₂, rfl, ?_, hlast⟩
        rw [List.foldlM_cons]
        exact run_bind_ok.mpr ⟨b₁, w₁, hfirst, hbefore⟩
  · rintro ⟨before, a, after, b', w₁, rfl, hbefore, hlast⟩
    rw [List.foldlM_append]
    refine run_bind_error.mpr (Or.inr ⟨b', w₁, hbefore, ?_⟩)
    rw [List.foldlM_cons]
    exact run_bind_error.mpr (Or.inl hlast)

/-- What is done for each of a list fails at the first one for which it fails. -/
theorem run_forM_error {f : α → Action Unit} {as : List α} {fault : Fault}
    (h : (as.forM f).run w = .error fault w') : ∃ before a after w₁, as = before ++ a :: after ∧
      (before.forM f).run w = .ok () w₁ ∧ (f a).run w₁ = .error fault w' := by
  induction as generalizing w with
  | nil => exact absurd h not_run_pure_error
  | cons a as ih =>
    rcases run_bind_error.mp h with h | ⟨_, w₁, hfirst, h⟩
    · exact ⟨[], a, as, w, rfl, rfl, h⟩
    · obtain ⟨before, a', after, w₂, rfl, hbefore, hlast⟩ := ih h
      exact ⟨a :: before, a', after, w₂, rfl, run_bind_ok.mpr ⟨_, w₁, hfirst, hbefore⟩, hlast⟩

/-! ## Conditions of success -/

/-- Whether an action succeeds. -/
def succeeds (x : Action α) (w : Workspace) : Bool :=
  match x.run w with
  | .ok _ _ => true
  | .error _ _ => false

theorem exists_run_ok {x : Action α} (h : succeeds x w = true) : ∃ a w', x.run w = .ok a w' := by
  unfold succeeds at h
  split at h
  · next a w' hrun => exact ⟨a, w', hrun⟩
  · cases h

theorem succeeds_of_run {x : Action α} {a : α} (h : x.run w = .ok a w') : succeeds x w = true := by
  rw [succeeds, h]

theorem succeeds_bind_iff {x : Action α} {f : α → Action β} :
    succeeds (x >>= f) w = true ↔ ∃ a w', x.run w = .ok a w' ∧ succeeds (f a) w' = true := by
  constructor
  · intro h
    obtain ⟨b, w'', hrun⟩ := exists_run_ok h
    obtain ⟨a, w', hx, hf⟩ := run_bind_ok.mp hrun
    exact ⟨a, w', hx, succeeds_of_run hf⟩
  · rintro ⟨a, w', hx, hf⟩
    obtain ⟨b, w'', hrun⟩ := exists_run_ok hf
    exact succeeds_of_run (run_bind_ok.mpr ⟨a, w', hx, hrun⟩)

theorem succeeds_require_bind_iff {x : Except Fault α} {f : α → Action β} :
    succeeds (require x >>= f) w = true ↔ ∃ a, x = .ok a ∧ succeeds (f a) w = true := by
  rw [succeeds_bind_iff]
  constructor
  · rintro ⟨a, w', hrun, hf⟩
    obtain ⟨hx, rfl⟩ := run_require_ok.mp hrun
    exact ⟨a, hx, hf⟩
  · rintro ⟨a, hx, hf⟩
    exact ⟨a, w, run_require_ok.mpr ⟨hx, rfl⟩, hf⟩

theorem succeeds_require_iff {x : Except Fault α} {f : α → Action β}
    (hf : ∀ a, succeeds (f a) w = true) : succeeds (require x >>= f) w = true ↔ ∃ a, x = .ok a :=
  succeeds_require_bind_iff.trans (exists_congr fun a => and_iff_left (hf a))

/-- Two actions succeed in order where what the first one gives and does makes no difference to the
second one. -/
theorem succeeds_andThen_iff {x : Action α} {f : α → Action β} {P Q : Prop}
    (hx : succeeds x w = true ↔ P)
    (hf : ∀ a w', x.run w = .ok a w' → (succeeds (f a) w' = true ↔ Q)) :
    succeeds (x >>= f) w = true ↔ P ∧ Q := by
  rw [succeeds_bind_iff, ← hx]
  constructor
  · rintro ⟨a, w', hrun, h⟩
    exact ⟨succeeds_of_run hrun, (hf a w' hrun).mp h⟩
  · rintro ⟨h, hQ⟩
    obtain ⟨a, w', hrun⟩ := exists_run_ok h
    exact ⟨a, w', hrun, (hf a w' hrun).mpr hQ⟩

theorem succeeds_forM_iff {P : Workspace → Prop} {Q : α → Prop} {f : α → Action Unit}
    (hstep : ∀ a w, P w → (succeeds (f a) w = true ↔ Q a))
    (hkeep : ∀ a w u w', P w → (f a).run w = .ok u w' → P w') (hw : P w) (as : List α) :
    succeeds (as.forM f) w = true ↔ ∀ a ∈ as, Q a := by
  induction as generalizing w with
  | nil => exact ⟨nofun, fun _ => rfl⟩
  | cons a as ih =>
    rw [List.forall_mem_cons]
    exact succeeds_andThen_iff (hstep a w hw) fun u w' hrun => ih (hkeep a w u w' hw hrun)

/-! ## Actions -/

theorem newPipeline_ok {name : Value} {p : Ref .pipeline}
    (h : (newPipeline name).run w = .ok p w') : w.graph.newPipeline name = .ok (w'.graph, p) := by
  obtain ⟨_, _, hget, h⟩ := run_bind_ok.mp h
  obtain ⟨rfl, rfl⟩ := run_get_ok.mp hget
  obtain ⟨⟨g, q⟩, _, hnew, h⟩ := run_bind_ok.mp h
  obtain ⟨hdone, rfl⟩ := run_require_ok.mp hnew
  cases h
  exact hdone

theorem create_ok {p : Ref .pipeline} {kind : NodeKind} {given : Value} {n : Ref .node}
    (h : (create p kind given).run w = .ok n w') :
    w.graph.create p kind given = .ok (w'.graph, n) := by
  obtain ⟨_, _, hget, h⟩ := run_bind_ok.mp h
  obtain ⟨rfl, rfl⟩ := run_get_ok.mp hget
  obtain ⟨⟨g, m⟩, _, hnew, h⟩ := run_bind_ok.mp h
  obtain ⟨hdone, rfl⟩ := run_require_ok.mp hnew
  cases h
  exact hdone

theorem getOrCreate_ok {m : Ref .portMap} {key : String} {p : Ref .port}
    (h : (getOrCreate m key).run w = .ok p w') :
    w.graph.getOrCreate m key = .ok (w'.graph, p) := by
  obtain ⟨_, _, hget, h⟩ := run_bind_ok.mp h
  obtain ⟨rfl, rfl⟩ := run_get_ok.mp hget
  obtain ⟨⟨g, q⟩, _, hnew, h⟩ := run_bind_ok.mp h
  obtain ⟨hdone, rfl⟩ := run_require_ok.mp hnew
  cases h
  exact hdone

theorem link_ok {p : Ref .pipeline} {o i : Ref .port} {u : Unit}
    (h : (link p o i).run w = .ok u w') : ∃ c, w.graph.connect p o i = .ok (w'.graph, c) := by
  obtain ⟨_, _, hget, h⟩ := run_bind_ok.mp h
  obtain ⟨rfl, rfl⟩ := run_get_ok.mp hget
  dsimp only at h
  split at h
  · next c hconnect =>
    cases h
    exact ⟨c, hconnect⟩
  · split at h
    · obtain ⟨_, _, -, h⟩ := run_bind_ok.mp h
      exact absurd h not_run_throw_ok
    · exact absurd h not_run_throw_ok

theorem linkOutput_ok {o i : Ref .port} {u : Unit} (h : (linkOutput o i).run w = .ok u w') :
    ∃ p c, w.graph.pipelineOf o = .ok p ∧ w.graph.connect p o i = .ok (w'.graph, c) := by
  obtain ⟨_, _, hget, h⟩ := run_bind_ok.mp h
  obtain ⟨rfl, rfl⟩ := run_get_ok.mp hget
  obtain ⟨p, _, hhome, h⟩ := run_bind_ok.mp h
  obtain ⟨hp, rfl⟩ := run_require_ok.mp hhome
  obtain ⟨c, hc⟩ := link_ok h
  exact ⟨p, c, hp, hc⟩

theorem succeeds_newPipeline_iff {name : Value} :
    succeeds (newPipeline name) w = true ↔ ∃ r, w.graph.newPipeline name = .ok r :=
  succeeds_require_iff fun _ => rfl

theorem succeeds_create_iff {p : Ref .pipeline} {kind : NodeKind} {given : Value} :
    succeeds (create p kind given) w = true ↔ ∃ r, w.graph.create p kind given = .ok r :=
  succeeds_require_iff fun _ => rfl

theorem succeeds_getOrCreate_iff {m : Ref .portMap} {key : String} :
    succeeds (getOrCreate m key) w = true ↔ ∃ r, w.graph.getOrCreate m key = .ok r :=
  succeeds_require_iff fun _ => rfl

theorem succeeds_linkOutput_iff {o i : Ref .port} :
    succeeds (linkOutput o i) w = true ↔
      ∃ p r, w.graph.pipelineOf o = .ok p ∧ w.graph.connect p o i = .ok r := by
  constructor
  · intro h
    obtain ⟨u, w', hrun⟩ := exists_run_ok h
    obtain ⟨p, c, hp, hc⟩ := linkOutput_ok hrun
    exact ⟨p, _, hp, hc⟩
  · rintro ⟨p, ⟨g, c⟩, hp, hc⟩
    refine succeeds_require_bind_iff.mpr ⟨p, hp, succeeds_bind_iff.mpr ⟨w, w, rfl, ?_⟩⟩
    dsimp only
    rw [hc]
    rfl

end FrameGraph.Workspace
