import FrameGraph.Proofs.Graph.Clones
import FrameGraph.Proofs.Graph.Listing
import Mathlib.Data.List.Pairwise

/-!
# Ports on demand

A port map makes a port for a key when the key is first asked for, after its template as it is set up at
that moment. What is done to the template or to one port of the map later concerns no other port of the
map, since all of them are different and no two inputs among them have one queue.

* `Graph.Separate`: the ports of a map and its template have nothing in common. `Run.separate`: this
  holds along every run.
* `Graph.OnDemand`: what asking a map for a key, reading and testing a key does.
* `run_onDemand`: every map does this in every graph that operations reach, and its keys are those that
  were asked for, in the order in which they were first asked for.
-/

namespace FrameGraph

/-- Values that stay different without their duplicates lose the same duplicates. -/
theorem map_eraseDups {α β : Type} [BEq α] [LawfulBEq α] [BEq β] [LawfulBEq β] (f : α → β)
    {l : List α} (h : (l.eraseDups.map f).Nodup) : l.eraseDups.map f = (l.map f).eraseDups := by
  induction l using List.reverseRecOn with
  | nil => rfl
  | append_singleton l a ih =>
    rw [eraseDups_concat] at h ⊢
    rw [List.map_append, List.map_cons, List.map_nil, eraseDups_concat]
    by_cases ha : a ∈ l
    · rw [if_pos ha] at h ⊢
      rw [if_pos (List.mem_map_of_mem ha), ih h]
    · rw [if_neg ha, List.map_append, List.nodup_append] at h
      have hnew : f a ∉ l.map f := by
        intro hmem
        obtain ⟨b, hb, heq⟩ := List.mem_map.mp hmem
        have hb' : f b ∈ l.eraseDups.map f := List.mem_map_of_mem (List.mem_eraseDups.mpr hb)
        exact h.2.2 _ hb' _ List.mem_cons_self heq
      rw [if_neg ha, if_neg hnew, List.map_append, ih h.1]
      rfl

/-! ## Reading and testing a key -/

namespace Session

variable {s : Session} {hd : Handle} {m : Ref .portMap}

theorem run_object {o : Object} (h : s.object? hd = some o) : (object hd).run s = .ok o s := by
  change (expect (s.object? hd)).run s = _
  rw [h]
  rfl

theorem run_portMap (h : s.object? hd = some (.portMap m)) : (portMap hd).run s = .ok m s := by
  rw [portMap, EStateM.run_bind, run_object h]
  rfl

theorem run_mapGet (h : s.object? hd = some (.portMap m)) (key : String) :
    (evaluate (.mapGet hd key)).run s = match (s.workspace.graph.portMap m).get? key with
      | some p => .ok (.answer (.text (s.workspace.graph.portText p)) (some (.port p)) []) s
      | none => .error (.fault (.missingKey key)) s := by
  have hgraph : graph.run s = .ok s.workspace.graph s := rfl
  rw [evaluate, EStateM.run_bind, hgraph]
  dsimp only
  rw [EStateM.run_bind, run_portMap h]
  dsimp only
  cases (s.workspace.graph.portMap m).get? key <;> rfl

theorem run_mapHas (h : s.object? hd = some (.portMap m)) (key : String) :
    (evaluate (.mapHas hd key)).run s =
      .ok (.answer (.flag ((s.workspace.graph.portMap m).get? key).isSome) none []) s := by
  have hgraph : graph.run s = .ok s.workspace.graph s := rfl
  rw [evaluate, EStateM.run_bind, hgraph]
  dsimp only
  rw [EStateM.run_bind, run_portMap h]
  rfl

end Session

namespace Graph

variable {g g' : Graph} {m : Ref .portMap}

/-! ## Ports of a map and its template -/

theorem Unrelated.symm {r p : Ref .port} (h : g.Unrelated r p) : g.Unrelated p r := by
  refine ⟨h.ne.symm, h.isSome.symm, fun hshares => h.apart ⟨?_, hshares.2.symm⟩⟩
  rw [← h.isSome]
  exact hshares.1

theorem Unrelated.keep {r p : Ref .port} (h : g.Unrelated r p) (hr : g'.queueOf? r = g.queueOf? r)
    (hp : g'.queueOf? p = g.queueOf? p) : g'.Unrelated r p := by
  refine ⟨h.ne, ?_, ?_⟩
  · rw [hr, hp]
    exact h.isSome
  · rw [Shares, hr, hp]
    exact h.apart

/-- Ports keep their queues. -/
def KeepsPorts (g g' : Graph) : Prop :=
  ∀ p, g.ports.Has p → g'.ports.Has p ∧ g'.queueOf? p = g.queueOf? p

theorem Moves.keepsPorts (h : g.Moves g') : g.KeepsPorts g' := by
  induction h with
  | refl => exact fun _ hp => ⟨hp, rfl⟩
  | tail _ hm ih =>
    intro p hp
    obtain ⟨hp₁, hqueue₁⟩ := ih p hp
    obtain ⟨hp₂, hqueue₂, -⟩ := hm.port_kept hp₁
    exact ⟨hp₂, hqueue₂.trans hqueue₁⟩

theorem keepsPorts (op : Operation) (hfits : op.Fits g) : g.KeepsPorts (op.after g) := by
  rcases op.moving hfits with ⟨-, hmoves⟩ | ⟨q, e, g₁, -, hmoves, hnoted⟩
  · exact Moves.keepsPorts hmoves
  · have hsame : (op.after g).ports = g₁.ports := hnoted.framed .ports rfl
    intro p hp
    rw [queueOf?, Graph.port, hsame]
    exact Moves.keepsPorts hmoves p hp

theorem KeepsPorts.unrelated (h : g.KeepsPorts g') {r p : Ref .port} (hr : g.ports.Has r)
    (hp : g.ports.Has p) (hunrelated : g.Unrelated r p) : g'.Unrelated r p :=
  hunrelated.keep (h r hr).2 (h p hp).2

/-- The template of a map is there, and the template and the ports of the map have nothing in common
with each other. -/
structure Separate (g : Graph) (m : Ref .portMap) : Prop where
  template : g.portMaps.Has m → g.ports.Has (g.portMap m).template
  apart : ((g.portMap m).template :: (g.portMap m).ports).Pairwise g.Unrelated

namespace Separate

/-- A map without ports. -/
theorem of_empty (hentries : (g.portMap m).entries = [])
    (htemplate : g.portMaps.Has m → g.ports.Has (g.portMap m).template) : g.Separate m := by
  refine ⟨htemplate, ?_⟩
  rw [PortMap.ports, hentries]
  exact List.pairwise_singleton _ _

theorem of_not_has (hm : ¬g.portMaps.Has m) : g.Separate m :=
  of_empty (entries_of_not_has hm) fun hhas => absurd hhas hm

theorem has_of_mem (h : g.Separate m) (hs : g.Sound) (hm : g.portMaps.Has m) {p : Ref .port}
    (hp : p ∈ (g.portMap m).template :: (g.portMap m).ports) : g.ports.Has p := by
  rcases List.mem_cons.mp hp with rfl | hp
  · exact h.template hm
  · obtain ⟨e, he, rfl⟩ := List.mem_map.mp hp
    exact ((hs.portMap m).entry e he).1

/-- A map that stays as it is. -/
theorem keep (h : g.Separate m) (hs : g.Sound) (hm : g.portMaps.Has m) (hports : g.KeepsPorts g')
    (hrow : g'.portMap m = g.portMap m) : g'.Separate m := by
  refine ⟨fun _ => ?_, ?_⟩
  · rw [hrow]
    exact (hports _ (h.template hm)).1
  · rw [hrow]
    exact h.apart.imp_of_mem fun hr hp =>
      hports.unrelated (h.has_of_mem hs hm hr) (h.has_of_mem hs hm hp)

end Separate

/-! ## Maps of a new node -/

/-- The templates of all maps are there. -/
def Templated (g : Graph) : Prop := ∀ m, g.portMaps.Has m → g.ports.Has (g.portMap m).template

namespace Templated

theorem of_moves (h : g.Templated) (hmoves : g.Moves g') (hmaps : g'.portMaps = g.portMaps) :
    g'.Templated := by
  intro m hm
  rw [hmaps] at hm
  rw [Graph.portMap, hmaps]
  exact (hmoves.kept.ports _ (h m hm)).1

theorem newPortMap (h : g.Templated) (name : String) (d : Direction) {template : Ref .port}
    (hp : g.ports.Has template) : (g.newPortMap name d template).1.Templated := by
  intro m hm
  change g.ports.Has ((g.portMaps.push { name, direction := d, template }).1.get m).template
  rcases Table.has_or_eq_of_push hm with hold | rfl
  · rw [Table.get_push_of_lt _ _ hold]
    exact h m hold
  · rw [Table.get_push_self]
    exact hp

theorem declare (h : g.Templated) {n : Ref .node} {y : Declared} (hok : declare n g y = .ok g') :
    g'.Templated := by
  obtain ⟨x, g₁, p, -, hmade, ⟨-, hregister⟩ | ⟨name, -, hregister⟩⟩ := declare_cases hok
  · have hmoves := hmade.moves.tail (registerPort_move hmade.has hregister)
    obtain ⟨r, -, hregister⟩ := bind_eq_ok.mp hregister
    cases hregister
    exact h.of_moves hmoves hmade.portMaps
  · have hmap := (h.of_moves hmade.moves hmade.portMaps).newPortMap name x.direction hmade.has
    have hmove := registerMap_move (Table.has_push_self _ _) hregister
    obtain ⟨r, -, hregister⟩ := bind_eq_ok.mp hregister
    cases hregister
    exact hmap.of_moves hmove.single rfl

theorem create (h : g.Templated) {p : Ref .pipeline} {kind : NodeKind} {given : Value}
    {n : Ref .node} (hok : g.create p kind given = .ok (g', n)) : g'.Templated := by
  obtain ⟨settings, g₁, -, -, hports, rfl⟩ := create_eq_ok.mp hok
  rw [declarePorts_eq] at hports
  have hdeclared : g₁.Templated :=
    foldlM_related (R := fun a b => a.Templated → b.Templated) (fun _ => id)
      (fun hab hbc ha => hbc (hab ha)) (fun _ _ _ hok ha => declare ha hok) _ hports h
  exact hdeclared

end Templated

/-! ## One step -/

theorem create_separate (hs : g.Sound) (h : ∀ m, g.Separate m) {p : Ref .pipeline}
    (hp : g.pipelines.Has p) {kind : NodeKind} {given : Value} {n : Ref .node}
    (hok : g.create p kind given = .ok (g', n)) (m : Ref .portMap) : g'.Separate m := by
  have htemplated := Templated.create (fun m => (h m).template) hok
  obtain ⟨g₁, hmoves, hnoted⟩ := create_noted hp hok
  have hports : g.KeepsPorts g' := by
    have hafter : (Operation.create p kind given).after g = g' := by
      rw [Operation.after, hok]
      rfl
    rw [← hafter]
    exact keepsPorts _ hp
  obtain ⟨settings, g₂, -, -, hdeclare, rfl⟩ := create_eq_ok.mp hok
  have hdeclares := declarePorts_declares hdeclare
  by_cases hm : g.portMaps.Has m
  · exact (h m).keep hs hm hports (hdeclares.map m hm).2
  · refine .of_empty ((hdeclares.entries m).trans (entries_of_not_has hm)) (htemplated m)

/-- A port that was made after a template is an input exactly if the template is. -/
theorem Cloned.queueOf?_isSome {template : Ref .port} {l : PortLabel} {p : Ref .port}
    (h : g.Cloned template l g' p) : (g'.queueOf? p).isSome = (g.queueOf? template).isSome := by
  rw [queueOf?, h.row, Port.cloned_input?, queueOf?, Option.isSome_map, Option.isSome_map,
    Option.isSome_map]

/-- A port that is made for a key has nothing in common with the others of its map and the template. -/
theorem Cloned.separate (hs : g.Sound) (h : g.Separate m) (hm : g.portMaps.Has m) {key : String}
    {p : Ref .port} {g₁ : Graph}
    (hcloned : g.Cloned (g.portMap m).template ⟨(g.portMap m).name, key⟩ g₁ p) :
    ({ g₁ with portMaps := g₁.portMaps.modify m fun portMap => portMap.add key p } :
      Graph).Separate m := by
  have hmade := hcloned.made
  have hports : g.KeepsPorts g₁ := fun r hr => by
    refine ⟨(hmade.moves.kept.ports r hr).1, ?_⟩
    rw [queueOf?, hmade.others r hr]
    rfl
  have hrow : (g₁.portMaps.modify m fun portMap => portMap.add key p).get m =
      (g.portMap m).add key p := by
    rw [hmade.portMaps, Table.get_modify_self _ _ hm]
    rfl
  have htemplate := h.template hm
  refine ⟨fun _ => ?_, ?_⟩
  · rw [Graph.portMap, hrow]
    exact (hports _ htemplate).1
  rw [Graph.portMap, hrow, PortMap.ports, PortMap.add, List.map_append, ← List.cons_append]
  refine List.pairwise_append.mpr ⟨?_, List.pairwise_singleton _ _, fun r hr p' hp' => ?_⟩
  · exact h.apart.imp_of_mem fun hr hp hunrelated =>
      (hports.unrelated (h.has_of_mem hs hm hr) (h.has_of_mem hs hm hp) hunrelated).keep rfl rfl
  · cases List.mem_singleton.mp hp'
    have hhas := h.has_of_mem hs hm hr
    have hsome : (g.queueOf? r).isSome = (g.queueOf? (g.portMap m).template).isSome := by
      rcases List.mem_cons.mp hr with rfl | hr
      · rfl
      · exact ((List.pairwise_cons.mp h.apart).1 r hr).isSome.symm
    refine Unrelated.keep ⟨fun heq => hmade.fresh (heq ▸ hhas), ?_, hmade.own hs hhas⟩ rfl rfl
    rw [(hports r hhas).2, hsome, hcloned.queueOf?_isSome]

theorem owner_alive {p : Ref .port} {n : Ref .node} (h : g.owner p = .ok n) :
    (g.node (g.port p).node).alive = true := by
  unfold owner at h
  dsimp only at h
  split at h
  · next halive => exact halive
  · cases h

/-- In a regular graph all that is made after a template is made like this. -/
theorem cloned_of_clonePort (hreg : g.Regular) {template : Ref .port} {l : PortLabel}
    {p : Ref .port} (hok : g.clonePort template l = .ok (g', p)) : g.Cloned template l g' p := by
  obtain ⟨n, howner, -⟩ := bind_eq_ok.mp hok
  obtain ⟨g₁, hok', hcloned⟩ := clonePort_cloned hreg l (owner_alive howner)
  cases hok.symm.trans hok'
  exact hcloned

theorem getOrCreate_separate (hs : g.Sound) (hreg : g.Regular) (h : ∀ m, g.Separate m)
    {f : Ref .portMap} (hf : g.portMaps.Has f) {key : String} {p : Ref .port}
    (hok : g.getOrCreate f key = .ok (g', p)) (m : Ref .portMap) : g'.Separate m := by
  have hports := Moves.keepsPorts (getOrCreate_moves hf hok)
  rcases getOrCreate_cases hok with ⟨-, rfl⟩ | ⟨-, g₁, hclone, hmade, rfl⟩
  · exact h m
  · by_cases hmf : m = f
    · subst hmf
      exact (cloned_of_clonePort hreg hclone).separate hs (h m) hf
    · have hrow : (g₁.portMaps.modify f fun portMap => portMap.add key p).get m = g.portMap m := by
        rw [hmade.portMaps, Table.get_modify_of_ne _ _ (Ne.symm hmf)]
        rfl
      by_cases hm : g.portMaps.Has m
      · exact (h m).keep hs hm hports hrow
      · refine .of_not_has fun hhas => hm ?_
        rw [← hmade.portMaps]
        exact Table.has_modify.mp hhas

/-- Operations keep maps separate. -/
theorem separate_after (hs : g.Sound) (hreg : g.Regular) (h : ∀ m, g.Separate m) {op : Operation}
    (hfits : op.Fits g) (m : Ref .portMap) : (op.after g).Separate m := by
  have hports := keepsPorts op hfits
  cases hop : op.writes .portMaps with
  | false =>
    have hmaps : (op.after g).portMaps = g.portMaps := op.framed hfits .portMaps hop
    by_cases hm : g.portMaps.Has m
    · refine (h m).keep hs hm hports ?_
      rw [Graph.portMap, hmaps]
      rfl
    · refine .of_not_has ?_
      rw [hmaps]
      exact hm
  | true =>
    cases op with
    | create p kind given =>
      cases hok : g.create p kind given with
      | ok r =>
        rw [Operation.after, hok]
        exact create_separate hs h hfits hok m
      | error fault =>
        rw [Operation.after, hok]
        exact h m
    | newPortMap name d template =>
      by_cases hm : g.portMaps.Has m
      · exact (h m).keep hs hm hports (Table.get_push_of_lt _ _ hm)
      · refine .of_empty ((entries_push rfl m).trans (entries_of_not_has hm)) ?_
        exact Templated.newPortMap (fun m => (h m).template) name d hfits m
    | getOrCreate f key =>
      cases hok : g.getOrCreate f key with
      | ok r =>
        rw [Operation.after, hok]
        exact getOrCreate_separate hs hreg h hfits hok m
      | error fault =>
        rw [Operation.after, hok]
        exact h m
    | _ => cases hop

theorem Run.separate {h : History} (hrun : Run g h) (m : Ref .portMap) : g.Separate m := by
  induction hrun generalizing m with
  | start => exact .of_not_has (Nat.not_lt_zero _)
  | next op hrun hfits ih => exact separate_after hrun.sound hrun.regular ih hfits m

/-! ## What a map does -/

/-- A port was made for a key of a map: under the label of the key, on the node of the template, and as
the template was set up at this moment. If it is an input, no other port has its queue, and this is
empty and set up as the input says. Nothing else about ports has changed. -/
structure MadeFor (g : Graph) (m : Ref .portMap) (key : String) (g' : Graph) (p : Ref .port) :
    Prop where
  fresh : ¬g.ports.Has p
  entries : (g'.portMap m).entries = (g.portMap m).entries ++ [(key, p)]
  label : (g'.port p).label = ⟨(g.portMap m).name, key⟩
  node : (g'.port p).node = (g.port (g.portMap m).template).node
  kindName : (g'.port p).kindName = (g.port (g.portMap m).template).kindName
  accepts : (g.port (g.portMap m).template).accepts ≠ [] →
    (g'.port p).accepts = (g.port (g.portMap m).template).accepts
  input : (g'.port p).input?.map (fun i => (i.kind, i.blocking, i.queueSize, i.wait)) =
    (g.port (g.portMap m).template).input?.map fun i => (i.kind, i.blocking, i.queueSize, i.wait)
  queue : ∀ i, (g'.port p).input? = some i → g'.queues.Has i.queue ∧
    g'.queue i.queue = ⟨(g'.port p).label.text, i.queueSize, i.blocking, []⟩
  own : ∀ r, g'.ports.Has r → r ≠ p → ¬g'.Shares r p
  others : ∀ r, g.ports.Has r → Leaves r g g'

/-- An operation on the template of a map or on some other port of the map, or a request for a key. -/
def Besides (g : Graph) (m : Ref .portMap) (p : Ref .port) (op : Operation) : Prop :=
  (∃ key, op = .getOrCreate m key) ∨
    ∃ r, r ∈ (g.portMap m).template :: (g.portMap m).ports ∧ r ≠ p ∧ op.On g r

/-- Operations that all fit and have nothing to do with a port of a map. -/
def AllBesides (m : Ref .portMap) (p : Ref .port) : Graph → List Operation → Prop
  | _, [] => True
  | g, op :: ops => (op.Fits g ∧ g.Besides m p op) ∧ AllBesides m p (op.after g) ops

/-- What a map does when it is asked for a key, or a key is read or tested. A key that it has gives its
port and changes nothing. For any other key a port is made, as long as the node of the template is there;
reading such a key fails and changes nothing. Whatever is done then to the template, to other ports of
the map or for other keys leaves a port of the map and its queue as they are. -/
structure OnDemand (g : Graph) (m : Ref .portMap) : Prop where
  again : ∀ key p, (g.portMap m).get? key = some p → g.getOrCreate m key = .ok (g, p)
  made : g.portMaps.Has m → ∀ key, (g.portMap m).get? key = none →
    (g.node (g.port (g.portMap m).template).node).alive = true →
    ∃ g' p, g.getOrCreate m key = .ok (g', p) ∧ g.MadeFor m key g' p
  orphaned : ∀ key, (g.portMap m).get? key = none →
    (g.node (g.port (g.portMap m).template).node).alive = false →
    ∃ fault, g.getOrCreate m key = .error fault
  read : ∀ (s : Session) hd key, s.workspace.graph = g → s.object? hd = some (.portMap m) →
    (g.portMap m).get? key = none →
    (Session.evaluate (.mapGet hd key)).run s = .error (.fault (.missingKey key)) s
  found : ∀ (s : Session) hd key p, s.workspace.graph = g → s.object? hd = some (.portMap m) →
    (g.portMap m).get? key = some p → (Session.evaluate (.mapGet hd key)).run s =
      .ok (.answer (.text (g.portText p)) (some (.port p)) []) s
  tested : ∀ (s : Session) hd key, s.workspace.graph = g → s.object? hd = some (.portMap m) →
    (Session.evaluate (.mapHas hd key)).run s =
      .ok (.answer (.flag ((g.portMap m).get? key).isSome) none []) s
  apart : ∀ p ∈ (g.portMap m).ports, ∀ ops, AllBesides m p g ops →
    ∀ h, Leaves p g (Operation.afterAll (g, h) ops).1

theorem Cloned.madeFor (hs : g.Sound) (hm : g.portMaps.Has m) {key : String} {p : Ref .port}
    {g₁ : Graph} (h : g.Cloned (g.portMap m).template ⟨(g.portMap m).name, key⟩ g₁ p) :
    g.MadeFor m key { g₁ with
      portMaps := g₁.portMaps.modify m fun portMap => portMap.add key p } p := by
  have hmade := h.made
  refine ⟨hmade.fresh, ?_, hmade.label, hmade.node, ?_, fun hne => ?_, ?_, fun i hi => ?_,
    fun r hr hne => ?_, fun r hr => ?_⟩
  · rw [Graph.portMap, hmade.portMaps, Table.get_modify_self _ _ hm]
    rfl
  · exact (congrArg Port.kindName h.row).trans (Port.cloned_kindName _ _ _)
  · have haccepts := (congrArg Port.accepts h.row).trans (Port.cloned_accepts _ _ _)
    rw [acceptsOr, if_neg hne] at haccepts
    exact haccepts
  · have hinput := (congrArg Port.input? h.row).trans (Port.cloned_input? _ _ _)
    change (g₁.port p).input?.map _ = _
    rw [hinput, Option.map_map]
    rfl
  · have hinput := (congrArg Port.input? h.row).trans (Port.cloned_input? _ _ _)
    obtain ⟨j, hj, rfl⟩ := Option.map_eq_some_iff.mp (hinput.symm.trans hi)
    obtain ⟨hhas, hqueue⟩ := h.queue j hj
    refine ⟨hhas, hqueue.trans ?_⟩
    rw [← hmade.label]
    rfl
  · exact hmade.own hs ((hmade.only r hr).resolve_right hne)
  · exact (Leaves.of_made hmade hr (hs.input r hr)).trans (.of_tables rfl rfl)

/-! ## Along runs -/

theorem Besides.leaves (hs : g.Sound) (h : g.Separate m) {p : Ref .port}
    (hp : p ∈ (g.portMap m).ports) {op : Operation} (hop : g.Besides m p op) (hfits : op.Fits g) :
    Leaves p g (op.after g) := by
  obtain ⟨e, he, rfl⟩ := List.mem_map.mp hp
  have hhas := ((hs.portMap m).entry e he).1
  refine op.leaves hfits hhas (hs.input _ hhas) ?_
  rcases hop with ⟨key, rfl⟩ | ⟨r, hr, hne, hon⟩
  · exact id
  · refine hon.untouched ?_
    -- Any two of the template and the ports are listed in some order.
    have hsymm : Std.Symm g.Unrelated := ⟨fun _ _ => Unrelated.symm⟩
    exact h.apart.forall hr (List.mem_cons_of_mem _ hp) hne

theorem Run.leaves {h : History} (hrun : Run g h) {p : Ref .port} (hp : p ∈ (g.portMap m).ports)
    {ops : List Operation} (hops : AllBesides m p g ops) (h' : History) :
    Leaves p g (Operation.afterAll (g, h') ops).1 := by
  induction ops generalizing g h h' with
  | nil => exact .refl p g
  | cons op ops ih =>
    obtain ⟨⟨hfits, hop⟩, hrest⟩ := hops
    have hfirst := hop.leaves hrun.sound (hrun.separate m) hp hfits
    have hp' : p ∈ ((op.after g).portMap m).ports := by
      have hentries := (op.listed hrun.sound hfits ⟨0⟩ .input).entries m
      obtain ⟨e, he, heq⟩ := List.mem_map.mp hp
      refine List.mem_map.mpr ⟨e, ?_, heq⟩
      rw [hentries]
      exact List.mem_eraseDups.mpr (List.mem_append_left _ he)
    exact hfirst.trans (ih (.next op hrun hfits) hp' hrest _)

theorem getOrCreate_again {key : String} {p : Ref .port} (h : (g.portMap m).get? key = some p) :
    g.getOrCreate m key = .ok (g, p) := by
  rw [getOrCreate]
  simp only [h]

theorem getOrCreate_new {key : String} (h : (g.portMap m).get? key = none) :
    g.getOrCreate m key =
      (g.clonePort (g.portMap m).template ⟨(g.portMap m).name, key⟩ >>= fun r =>
        .ok ({ r.1 with
          portMaps := r.1.portMaps.modify m fun portMap => portMap.add key r.2 }, r.2)) := by
  rw [getOrCreate]
  simp only [h]

theorem Run.onDemand {h : History} (hrun : Run g h) (m : Ref .portMap) : g.OnDemand m where
  again _ _ := getOrCreate_again
  made hm key hkey halive := by
    obtain ⟨g₁, hclone, hcloned⟩ := clonePort_cloned hrun.regular
      ⟨(g.portMap m).name, key⟩ halive
    refine ⟨_, _, ?_, hcloned.madeFor hrun.sound hm⟩
    rw [getOrCreate_new hkey, hclone]
    rfl
  orphaned key hkey hgone := by
    have howner : g.owner (g.portMap m).template =
        .error (.orphanedPort (g.port (g.portMap m).template).label.text) := by
      rw [owner]
      simp only [hgone, Bool.false_eq_true, if_false]
    refine ⟨.orphanedPort (g.port (g.portMap m).template).label.text, ?_⟩
    rw [getOrCreate_new hkey, clonePort, howner]
    rfl
  read s hd key hgraph hmap hkey := by
    rw [Session.run_mapGet hmap, hgraph, hkey]
  found s hd key p hgraph hmap hkey := by
    rw [Session.run_mapGet hmap, hgraph, hkey]
  tested s hd key hgraph hmap := by
    rw [Session.run_mapHas hmap, hgraph]
  apart _ hp _ hops h' := hrun.leaves hp hops h'

/-- In every graph that operations reach, the keys of a map are those that were asked for, in the order
in which they were first asked for, and the map does what it should when it is asked. -/
theorem run_onDemand {ops : List Operation} (hfits : Operation.AllFit {} ops) (m : Ref .portMap) :
    let g := (Operation.afterAll ({}, []) ops).1
    (g.portMap m).entries.map Prod.fst =
        ((Operation.log (fun g => Operation.requests g m) {} ops).map Prod.fst).eraseDups ∧
      g.OnDemand m := by
  intro g
  have hrun := Run.start.all hfits
  have hentries := Operation.afterAll_listed (fun g => (g.portMap m).entries)
    (fun _ hs => hs.nodup_entries m)
    (fun _ op hs hfits => (op.listed hs hfits ⟨0⟩ .input).entries m) Sound.empty [] hfits
  refine ⟨?_, hrun.onDemand m⟩
  have hkeys := (hrun.sound.portMap m).keys
  rw [hentries] at hkeys ⊢
  exact map_eraseDups Prod.fst hkeys

/-- The template of a map is set up, a port made after it and the template set up anew. Then another
port is made, and the first one is asked for again. -/
def templateChanged : List Operation :=
  [.newPipeline (.text "p"), .create ⟨0⟩ .frameSync .null, .setQueueSize ⟨1⟩ (.int 3),
    .getOrCreate ⟨0⟩ "left", .setQueueSize ⟨1⟩ (.int 5), .call ⟨2⟩ (.trySend (.int 1)),
    .getOrCreate ⟨0⟩ "right", .getOrCreate ⟨0⟩ "left"]

theorem fit_templateChanged : Operation.AllFit {} templateChanged := by
  refine ⟨trivial, ?_, trivial, ?_, trivial, trivial, ?_, ?_, trivial⟩
  all_goals
    simp only [Operation.Fits]
    decide +kernel

/-- Each port has the size that the template had when the port was made. -/
theorem templateChanged_onDemand :
    (let g := (Operation.afterAll ({}, []) templateChanged).1
     (g.portMap ⟨0⟩).entries.map Prod.fst = ["left", "right"] ∧ g.OnDemand ⟨0⟩ ∧
      (g.portMap ⟨0⟩).ports.map (fun p => (g.port p).input?.map fun i => i.queueSize.equal (.int 3)) =
        [some true, some false]) := by
  obtain ⟨hkeys, hmap⟩ := run_onDemand fit_templateChanged ⟨0⟩
  exact ⟨hkeys.trans (by decide +kernel), hmap, by decide +kernel⟩

end Graph

end FrameGraph
