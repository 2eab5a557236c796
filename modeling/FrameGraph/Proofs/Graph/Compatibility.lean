import FrameGraph.Proofs.Graph.Linking

/-!
# Types in common

Ports declare types of messages in lists. Whether two ports are compatible is found out by going
through the pairs of declarations, three questions a pair, but what is asked for is one type that both
ports carry. So the order of the declarations and their number make no difference, and a port that
declares more can be connected to no fewer ports.

* `Carries`: the types that the members of a list denote together.
* `compatible_iff_carries`: two lists are compatible exactly if they carry some type in common.
* `canConnect_iff_carries`: which outputs can be connected to which inputs, and what the lists have to
  do with that.
-/

namespace FrameGraph

/-- Some member of the list denotes the type. -/
def Carries (accepts : List Accepts) (t : Datatype) : Prop := ∃ a ∈ accepts, a.Denotes t

instance (accepts : List Accepts) (t : Datatype) : Decidable (Carries accepts t) :=
  inferInstanceAs (Decidable (∃ a ∈ accepts, a.Denotes t))

theorem Carries.mono {accepts accepts' : List Accepts} (h : accepts ⊆ accepts') {t : Datatype}
    (ht : Carries accepts t) : Carries accepts' t := by
  obtain ⟨a, ha, hdenotes⟩ := ht
  exact ⟨a, h ha, hdenotes⟩

theorem compatible_iff_carries {outputs inputs : List Accepts} :
    compatible outputs inputs = true ↔ ∃ t, Carries outputs t ∧ Carries inputs t := by
  rw [Graph.compatible_iff]
  constructor
  · rintro ⟨a, ha, b, hb, t, hta, htb⟩
    exact ⟨t, ⟨a, ha, hta⟩, b, hb, htb⟩
  · rintro ⟨t, ⟨a, ha, hta⟩, b, hb, htb⟩
    exact ⟨a, ha, b, hb, t, hta, htb⟩

theorem compatible_mono {outputs outputs' inputs inputs' : List Accepts} (ho : outputs ⊆ outputs')
    (hi : inputs ⊆ inputs') (h : compatible outputs inputs = true) :
    compatible outputs' inputs' = true := by
  obtain ⟨t, hout, hin⟩ := compatible_iff_carries.mp h
  exact compatible_iff_carries.mpr ⟨t, hout.mono ho, hin.mono hi⟩

namespace Graph

variable {g g' : Graph} {o i : Ref .port}

theorem samePipeline_iff_exists : g.samePipeline o i = true ↔
    ∃ p, g.pipelineOf? o = some p ∧ g.pipelineOf? i = some p := by
  cases ho : g.pipelineOf? o with
  | none => simp [samePipeline, ho]
  | some p => simp [samePipeline_iff ho]

/-! ## Other declarations -/

/-- Two ports declare other types, and are otherwise what they were. -/
def redeclare (g : Graph) (o : Ref .port) (outputs : List Accepts) (i : Ref .port)
    (inputs : List Accepts) : Graph :=
  (Operation.changePort i { accepts := some inputs }).after
    ((Operation.changePort o { accepts := some outputs }).after g)

theorem port_after_changeAccepts (g : Graph) (p r : Ref .port) (accepts : List Accepts) :
    ((Operation.changePort p { accepts := some accepts }).after g).port r =
      if r = p ∧ g.ports.Has p then { g.port p with accepts } else g.port r :=
  port_modifyPort g p r _

/-- Neither declaration has to do with nodes, pipelines or the kinds of the ports. -/
theorem canConnect_redeclare (ho : g.ports.Has o) (hi : g.ports.Has i) (hne : o ≠ i)
    (outputs inputs : List Accepts) :
    (g.redeclare o outputs i inputs).canConnect o i =
      (g.samePipeline o i && kindsMatch (g.port o) (g.port i) && compatible outputs inputs) := by
  have hi' : ((Operation.changePort o { accepts := some outputs }).after g).ports.Has i :=
    Table.has_modify.mpr hi
  have hout : (g.redeclare o outputs i inputs).port o = { g.port o with accepts := outputs } := by
    rw [redeclare, port_after_changeAccepts, if_neg fun h => hne h.1, port_after_changeAccepts,
      if_pos ⟨rfl, ho⟩]
  have hin : (g.redeclare o outputs i inputs).port i = { g.port i with accepts := inputs } := by
    rw [redeclare, port_after_changeAccepts, if_pos ⟨rfl, hi'⟩, port_after_changeAccepts,
      if_neg fun h => hne h.1.symm]
  have hhome : ∀ p accepts, (g.redeclare o outputs i inputs).port p = { g.port p with accepts } →
      (g.redeclare o outputs i inputs).pipelineOf? p = g.pipelineOf? p := by
    intro p accepts hp
    simp only [pipelineOf?, hp]
    rfl
  rw [canConnect, samePipeline, hhome o _ hout, hhome i _ hin, hout, hin]
  rfl

/-! ## What can be connected -/

/-- An output can be connected to an input exactly if both belong to one pipeline, which exists with
their nodes, if they do not both take many messages or both take single ones, and if there is a type
that both carry. So a list may be written in any order and say things twice, and a list that says more
allows no less. -/
theorem canConnect_iff_carries {sender : SenderKind} {details : Input} (hout : g.ports.Has o)
    (hin : g.ports.Has i) (ho : (g.port o).role = .output sender)
    (hi : (g.port i).role = .input details) :
    (g.canConnect o i = true ↔
      (∃ p, g.pipelineOf? o = some p ∧ g.pipelineOf? i = some p) ∧
        ¬(sender = .multiple ∧ details.kind = .multiple) ∧
        ¬(sender = .single ∧ details.kind = .single) ∧
        ∃ t, Carries (g.port o).accepts t ∧ Carries (g.port i).accepts t) ∧
    ∀ outputs inputs,
      ((∀ a, a ∈ outputs ↔ a ∈ (g.port o).accepts) → (∀ a, a ∈ inputs ↔ a ∈ (g.port i).accepts) →
        (g.redeclare o outputs i inputs).canConnect o i = g.canConnect o i) ∧
      ((g.port o).accepts ⊆ outputs → (g.port i).accepts ⊆ inputs → g.canConnect o i = true →
        (g.redeclare o outputs i inputs).canConnect o i = true) := by
  have hne : o ≠ i := by
    rintro rfl
    rw [ho] at hi
    cases hi
  refine ⟨?_, fun outputs inputs => ⟨fun houtputs hinputs => ?_, fun houtputs hinputs h => ?_⟩⟩
  · rw [canConnect, Bool.and_eq_true, Bool.and_eq_true, samePipeline_iff_exists, kindsMatch_iff,
      compatible_iff_carries, and_assoc]
    refine and_congr_right fun _ => ?_
    constructor
    · rintro ⟨⟨sender', details', ho', hi', hmultiple, hsingle⟩, htypes⟩
      cases ho.symm.trans ho'
      cases hi.symm.trans hi'
      exact ⟨hmultiple, hsingle, htypes⟩
    · rintro ⟨hmultiple, hsingle, htypes⟩
      exact ⟨⟨sender, details, ho, hi, hmultiple, hsingle⟩, htypes⟩
  · rw [canConnect_redeclare hout hin hne, canConnect]
    congr 1
    rw [Bool.eq_iff_iff]
    exact ⟨compatible_mono (fun a ha => (houtputs a).mp ha) fun a ha => (hinputs a).mp ha,
      compatible_mono (fun a ha => (houtputs a).mpr ha) fun a ha => (hinputs a).mpr ha⟩
  · rw [canConnect, Bool.and_eq_true] at h
    rw [canConnect_redeclare hout hin hne, Bool.and_eq_true]
    exact ⟨h.1, compatible_mono houtputs hinputs h.2⟩

/-- An output of frames and groups before an input of groups and one of plain buffers. -/
def typedPorts : List Operation :=
  [.newPipeline (.text "p"), .create ⟨0⟩ .node .null, .create ⟨0⟩ .node .null,
    .newOutput ⟨0⟩ ⟨"", "mixed"⟩ .multiple [⟨.imgFrame, true⟩, ⟨.messageGroup, false⟩],
    .newInput ⟨1⟩ ⟨"", "groups"⟩ .single [⟨.messageGroup, true⟩] (.bool true) (.int 8) (.bool true),
    .newInput ⟨1⟩ ⟨"", "plain"⟩ .single [⟨.buffer, false⟩] (.bool true) (.int 8) (.bool true)]

/-- Groups are what the first two ports have in common, in whatever order the output says so and
whatever else both say. An input of plain buffers takes nothing of what the output carries. -/
theorem typedPorts_carries :
    (let g := (Operation.afterAll ({}, []) typedPorts).1
     g.canConnect ⟨0⟩ ⟨1⟩ = true ∧
      (g.redeclare ⟨0⟩ [⟨.messageGroup, false⟩, ⟨.imgFrame, true⟩, ⟨.messageGroup, false⟩] ⟨1⟩
        [⟨.messageGroup, true⟩]).canConnect ⟨0⟩ ⟨1⟩ = true ∧
      (g.redeclare ⟨0⟩ [⟨.imgFrame, true⟩, ⟨.buffer, false⟩, ⟨.messageGroup, false⟩] ⟨1⟩
        [⟨.imgFrame, false⟩, ⟨.messageGroup, true⟩]).canConnect ⟨0⟩ ⟨1⟩ = true ∧
      g.canConnect ⟨0⟩ ⟨2⟩ = false) := by
  intro g
  have hout : (g.port ⟨0⟩).role = .output .multiple := rfl
  obtain ⟨groups, hgroups, hkind⟩ :
      ∃ details, (g.port ⟨1⟩).role = .input details ∧ details.kind = .single := ⟨_, rfl, rfl⟩
  obtain ⟨plain, hplain⟩ : ∃ details, (g.port ⟨2⟩).role = .input details := ⟨_, rfl⟩
  obtain ⟨hiff, hother⟩ :=
    canConnect_iff_carries (g := g) (by decide +kernel) (by decide +kernel) hout hgroups
  have hcommon : g.canConnect ⟨0⟩ ⟨1⟩ = true := by
    refine hiff.mpr ⟨⟨⟨0⟩, by decide +kernel, by decide +kernel⟩, ?_, nofun, .messageGroup, ?_⟩
    · rw [hkind]
      exact nofun
    · decide +kernel
  refine ⟨hcommon, ?_, (hother _ _).2 (by decide +kernel) (by decide +kernel) hcommon, ?_⟩
  · refine ((hother _ _).1 (fun a => ?_) fun a => .rfl).trans hcommon
    change _ ↔ a ∈ [⟨.imgFrame, true⟩, ⟨.messageGroup, false⟩]
    grind
  · obtain ⟨hiff, -⟩ :=
      canConnect_iff_carries (g := g) (by decide +kernel) (by decide +kernel) hout hplain
    rw [Bool.eq_false_iff, Ne, hiff]
    rintro ⟨-, -, -, t, ht, ht'⟩
    revert ht ht'
    cases t <;> decide +kernel

end Graph

end FrameGraph
