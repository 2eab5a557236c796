import FrameGraph.Proofs.Description.Acceptance
import FrameGraph.Proofs.Graph.Settings
import FrameGraph.Proofs.Graph.Sprouts

/-!
# Settings of described inputs

A description sets up inputs by entries, which may mention some of the settings of an input and leave
out others. What is mentioned takes the place of what the input had, and the queue of the input is set up
with it.

* `Setting.said`: what an entry says about a setting, `Setting.last`: what the last entry says that
  mentions it.
* `Adjusts`: an input that agrees with its queue is set up, and goes on agreeing.
* `applySettings_adjusts`: so it is with the settings of an entry.
-/

namespace FrameGraph

/-- What is under a name in settings, if there is anything. -/
def Value.member? (v : Value) (name : String) : Option Value := (v.member name).toOption

/-- What is not mentioned is not there. -/
theorem Value.member?_of_not_mentions {v : Value} {name : String}
    (h : v.mentions name = .ok false) : v.member? name = none := by
  unfold mentions at h
  unfold member? member
  split at h
  · next entries hdict =>
    cases hfield : Entries.field? entries name with
    | none => simp only [hdict, hfield, Except.toOption]
    | some w => simp [hfield] at h
  · next hlist => simp only [hlist, Except.toOption]
  · next htuple => simp only [htuple, Except.toOption]
  · next hset => simp only [hset, Except.toOption]
  · next members hgroup =>
    have hnone : members.find? (fun e => e.1 = name) = none := by
      rw [List.find?_eq_none]
      intro e he hname
      have hany := List.any_eq_false.mp (Except.ok.inj h) e he
      exact hany (beq_iff_eq.mpr (of_decide_eq_true hname))
    simp only [hgroup, hnone, Except.toOption]
  · next htext => simp only [htext, Except.toOption]
  · cases h

namespace Description

open FrameGraph.Graph Workspace

variable {g g' g'' : Graph} {w w' : Workspace} {p : Ref .port}

/-! ## What is said about inputs -/

/-- What can be set up for an input. -/
inductive Setting where
  | blocking
  | queueSize
  | wait
  deriving DecidableEq

namespace Setting

/-- The default that is declared. -/
def declared (x : InputDeclaration) : Setting → Value
  | blocking => .bool x.blocking
  | queueSize => .int x.queueSize
  | wait => .bool x.wait

/-- What an input has. -/
def of (i : Input) : Setting → Value
  | blocking => i.blocking
  | queueSize => .number i.queueSize
  | wait => i.wait

/-- What the settings of an entry say. Whether the previous message is to be used again counts for more
than whether the node waits for a message, of which it is the opposite. -/
def said (settings : Value) : Setting → Option Value
  | blocking => settings.member? "blocking"
  | queueSize => settings.member? "queue_size"
  | wait => ((settings.member? "reuse_previous_message").map fun v => .bool !v.truthy).or
      (settings.member? "wait_for_message")

/-- What the last of the entries says about an input that mentions the setting. -/
def last (said : List (PortLabel × Value)) (l : PortLabel) (s : Setting) : Option Value :=
  ((said.filter fun e => e.1 = l).filterMap fun e => s.said e.2).getLast?

/-- What is said later counts. -/
theorem last_append (said said' : List (PortLabel × Value)) (l : PortLabel) (s : Setting) :
    s.last (said ++ said') l = (s.last said' l).or (s.last said l) := by
  rw [last, List.filter_append, List.filterMap_append, List.getLast?_append]
  rfl

theorem last_singleton (l : PortLabel) (settings : Value) (s : Setting) :
    s.last [(l, settings)] l = s.said settings := by
  rw [last, List.filter_singleton, decide_eq_true rfl, cond_true]
  cases hsaid : s.said settings <;> simp [hsaid]

/-- Nothing is said about an input that is not mentioned. -/
theorem last_eq_none {said : List (PortLabel × Value)} {l : PortLabel} (h : ∀ e ∈ said, e.1 ≠ l)
    (s : Setting) : s.last said l = none := by
  have hfilter : said.filter (fun e => e.1 = l) = [] :=
    List.filter_eq_nil_iff.mpr fun e he => by simpa using h e he
  rw [last, hfilter]
  rfl

/-- One setting is given, or none. -/
def only (s : Setting) (v? : Option Value) (t : Setting) : Option Value := if t = s then v? else none

end Setting

/-! ## Setting up an input -/

/-- An input that agrees with its queue, which no other port has, goes on like this. What is given takes
the place of what it had. -/
def Adjusts (p : Ref .port) (given : Setting → Option Value) (g g' : Graph) : Prop :=
  ∀ i, (g.port p).input? = some i → g.Alone p →
    g'.Alone p ∧ ∃ j, (g'.port p).input? = some j ∧ ∀ s, s.of j = (given s).getD (s.of i)

namespace Adjusts

theorem refl {given : Setting → Option Value} (h : ∀ s, given s = none) (p : Ref .port) (g : Graph) :
    Adjusts p given g g := fun i hi hp =>
  ⟨hp, i, hi, fun s => by rw [h]; rfl⟩

/-- What is given later counts. -/
theorem trans {given given' : Setting → Option Value} (h : Adjusts p given g g')
    (h' : Adjusts p given' g' g'') : Adjusts p (fun s => (given' s).or (given s)) g g'' := by
  intro i hi hp
  obtain ⟨hp', j, hj, hset⟩ := h i hi hp
  obtain ⟨hp'', k, hk, hset'⟩ := h' j hj hp'
  refine ⟨hp'', k, hk, fun s => ?_⟩
  rw [hset', hset]
  cases hgiven : given' s <;> simp [hgiven]

end Adjusts

theorem setBlocking_adjusts (g : Graph) (p : Ref .port) (b : Bool) :
    Adjusts p (Setting.blocking.only (some (.bool b))) g (g.setBlocking p (.bool b)) := by
  intro i hi hp
  refine ⟨hp.setUp (g.setBlocking_tuned p _) (setBlocking_settled hp.settled nofun), ?_⟩
  refine ⟨{ i with blocking? := some (.bool b) }, ?_, fun s => by cases s <;> rfl⟩
  have hqueue : g.queueOf? p = some i.queue := queueOf?_eq_some_iff.mpr ⟨i, hi, rfl⟩
  rw [Graph.setBlocking, hqueue]
  change ((g.modifyPort p _).port p).input? = _
  rw [port_modifyPort, if_pos ⟨rfl, has_of_input? hi⟩, Port.updateInput_input?, hi]
  rfl

theorem setQueueSize_adjusts {k : Int} (h : g.setQueueSize p (.int k) = .ok g') :
    Adjusts p (Setting.queueSize.only (some (.int k))) g g' := by
  intro i hi hp
  refine ⟨hp.setUp (setQueueSize_tuned h) (setQueueSize_settled hp.settled h), ?_⟩
  have hqueue : g.queueOf? p = some i.queue := queueOf?_eq_some_iff.mpr ⟨i, hi, rfl⟩
  have hk : 1 ≤ k := (setQueueSize_succeeds_iff hqueue k).mp ⟨g', h⟩
  obtain ⟨_, -, -, hset, -, -, -, hrow⟩ := setQueueSize_ok hi (hp.settled i hi).has hk
  cases h.symm.trans hset
  exact ⟨_, hrow, fun s => by cases s <;> rfl⟩

theorem setWait_adjusts (g : Graph) (p : Ref .port) (b : Bool) :
    Adjusts p (Setting.wait.only (some (.bool b))) g (g.setWait p (.bool b)) := by
  intro i hi hp
  have hsteady := (g.setWait_steady p (.bool b)).settled hp.settled
  refine ⟨hp.setUp (g.setWait_tuned p _) hsteady, ?_⟩
  refine ⟨{ i with wait? := some (.bool b) }, ?_, fun s => by cases s <;> rfl⟩
  rw [Graph.setWait, port_modifyPort, if_pos ⟨rfl, has_of_input? hi⟩, Port.updateInput_input?, hi]
  rfl

/-! ## The settings of an entry -/

/-- A setting is given if it is mentioned, as it is read. -/
theorem whenMentioned_adjusts {settings : Value} {key : String}
    {read : Value → String → MessageText → Except Fault Value} {rule : Value → Prop}
    (hread : ∀ {name v}, read settings key name = .ok v → settings.member key = .ok v ∧ rule v)
    {change : Graph → Value → Except Fault Graph} {s : Setting} {f : Value → Value}
    (hchange : ∀ {g v g'}, rule v → change g v = .ok g' → Adjusts p (s.only (some (f v))) g g')
    {u : Unit} (h : (whenMentioned settings key read change).run w = .ok u w') :
    Adjusts p (s.only ((settings.member? key).map f)) w.graph w'.graph := by
  obtain ⟨mentioned, _, hrequire, h⟩ := run_bind_ok.mp h
  obtain ⟨hmentions, rfl⟩ := run_require_ok.mp hrequire
  split at h
  · obtain ⟨_, _, hget, h⟩ := run_bind_ok.mp h
    obtain ⟨rfl, rfl⟩ := run_get_ok.mp hget
    obtain ⟨v, _, hrequire, h⟩ := run_bind_ok.mp h
    obtain ⟨hv, rfl⟩ := run_require_ok.mp hrequire
    obtain ⟨g, _, hrequire, h⟩ := run_bind_ok.mp h
    obtain ⟨hset, rfl⟩ := run_require_ok.mp hrequire
    cases h
    obtain ⟨hmember, hrule⟩ := hread hv
    rw [Value.member?, hmember]
    exact hchange hrule hset
  · next hnot =>
    obtain ⟨-, rfl⟩ := run_pure_ok.mp h
    rw [Bool.not_eq_true] at hnot
    rw [hnot] at hmentions
    rw [Value.member?_of_not_mentions hmentions]
    exact .refl (fun t => by rw [Setting.only]; exact ite_self none) p _

/-- A truth value that is given changes one setting. -/
theorem whenMentioned_truth_adjusts {settings : Value} {key : String} {change : Graph → Value → Graph}
    {s : Setting} {f : Value → Value}
    (hchange : ∀ g b, Adjusts p (s.only (some (f (.bool b)))) g (change g (.bool b))) {u : Unit}
    (h : (whenMentioned settings key requireBool fun g v => .ok (change g v)).run w = .ok u w') :
    Adjusts p (s.only ((settings.member? key).map f)) w.graph w'.graph := by
  refine whenMentioned_adjusts requireBool_eq_ok_iff.mp (fun {g v g'} hrule hset => ?_) h
  obtain ⟨b, rfl⟩ := hrule
  cases hset
  exact hchange g b

theorem applySettings_adjusts {settings : Value} {u : Unit}
    (h : (applySettings p settings).run w = .ok u w') :
    Adjusts p (Setting.said settings) w.graph w'.graph := by
  obtain ⟨_, w₁, hblocking, h⟩ := run_bind_ok.mp h
  obtain ⟨_, w₂, hsize, h⟩ := run_bind_ok.mp h
  obtain ⟨_, w₃, hwait, hreuse⟩ := run_bind_ok.mp h
  have h₁ := whenMentioned_truth_adjusts (s := .blocking) (f := id) (setBlocking_adjusts · p)
    hblocking
  have h₂ : Adjusts p (Setting.queueSize.only ((settings.member? "queue_size").map id)) w₁.graph
      w₂.graph := by
    refine whenMentioned_adjusts requireInteger_eq_ok_iff.mp (fun {g v g'} hrule hset => ?_) hsize
    obtain ⟨k, rfl⟩ := hrule
    exact setQueueSize_adjusts hset
  have h₃ := whenMentioned_truth_adjusts (s := .wait) (f := id) (setWait_adjusts · p) hwait
  have h₄ : Adjusts p (Setting.wait.only ((settings.member? "reuse_previous_message").map
      fun v => .bool !v.truthy)) w₃.graph w'.graph :=
    whenMentioned_truth_adjusts (fun g b => setWait_adjusts g p _) hreuse
  have hall := ((h₁.trans h₂).trans h₃).trans h₄
  -- Every setting but waiting is mentioned under one name only.
  refine cast (congrArg (fun given => Adjusts p given w.graph w'.graph) (funext fun s => ?_)) hall
  cases s <;> simp [Setting.said, Setting.only]

end Description

end FrameGraph
