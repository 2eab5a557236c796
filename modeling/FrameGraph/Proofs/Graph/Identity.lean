import FrameGraph.Proofs.Graph.Decomposition

/-!
# The identity of ports

A port is found on its node by its label. In every run a label names at most one port of a node and
direction, and a port that is listed stays listed, under the same label and with the same queue.

* `Graph.Sound`: the invariant. Registries list ports under the labels they have and port maps under
  their names, port maps label their ports with their own name and the key, no key occurs twice, and
  queues have room for a message.
* `Run.sound`: the invariant holds along every run.
* `filter_label`, `port?_of_mem`: a listed port is the only one with its label.
* `Sound.extends_move`, `Noted.extends`: listed ports stay.
-/

namespace FrameGraph

/-- What is listed has the key it is listed under, and no key occurs twice. -/
structure Registry.Sound (ports : Table .port Port) (portMaps : Table .portMap PortMap)
    (r : Registry) : Prop where
  port : ∀ e ∈ r.ports, ports.Has e.2 ∧ (ports.get e.2).label = e.1
  map : ∀ e ∈ r.maps, portMaps.Has e.2 ∧ (portMaps.get e.2).name = e.1
  labels : (r.ports.map Prod.fst).Nodup
  names : (r.maps.map Prod.fst).Nodup
  apart : ∀ e ∈ r.ports, ∀ f ∈ r.maps, e.1.group ≠ f.1

structure PortMap.Sound (ports : Table .port Port) (m : PortMap) : Prop where
  entry : ∀ e ∈ m.entries, ports.Has e.2 ∧ (ports.get e.2).label = ⟨m.name, e.1⟩
  keys : (m.entries.map Prod.fst).Nodup

structure Graph.Sound (g : Graph) : Prop where
  registry : ∀ n d, ((g.node n).registry d).Sound g.ports g.portMaps
  portMap : ∀ m, (g.portMap m).Sound g.ports
  queue : ∀ q, g.queues.Has q → (g.queue q).Roomy
  input : ∀ p, g.ports.Has p → ∀ q, g.queueOf? p = some q → g.queues.Has q

/-! ## Registries -/

namespace Registry.Sound

variable {ports ports' : Table .port Port} {portMaps portMaps' : Table .portMap PortMap}
variable {r r' : Registry}

theorem empty : Registry.Sound ports portMaps {} :=
  ⟨nofun, nofun, List.nodup_nil, List.nodup_nil, nofun⟩

/-- Tables may change in everything but the labels and names of what is listed. -/
theorem transfer (h : r.Sound ports portMaps)
    (hports : ∀ e ∈ r.ports, ports'.Has e.2 ∧ (ports'.get e.2).label = (ports.get e.2).label)
    (hmaps : ∀ e ∈ r.maps, portMaps'.Has e.2 ∧ (portMaps'.get e.2).name = (portMaps.get e.2).name) :
    r.Sound ports' portMaps' where
  port e he := ⟨(hports e he).1, (hports e he).2.trans (h.port e he).2⟩
  map e he := ⟨(hmaps e he).1, (hmaps e he).2.trans (h.map e he).2⟩
  labels := h.labels
  names := h.names
  apart := h.apart

theorem addPort (h : r.Sound ports portMaps) {p : Ref .port} (hp : ports.Has p)
    (hadd : r.addPort (ports.get p).label p = .ok r') : r'.Sound ports portMaps := by
  obtain ⟨hgroup, ⟨-, rfl⟩ | ⟨hnew, rfl⟩⟩ := addPort_ok hadd
  · exact h
  · refine ⟨?_, h.map, nodup_keys_append h.labels hnew p, h.names, ?_⟩
    · intro e he
      rcases List.mem_append.mp he with he | he
      · exact h.port e he
      · cases List.mem_singleton.mp he
        exact ⟨hp, rfl⟩
    · intro e he f hf
      rcases List.mem_append.mp he with he | he
      · exact h.apart e he f hf
      · cases List.mem_singleton.mp he
        exact (ne_of_lookup_eq_none hgroup f hf).symm

theorem addMap (h : r.Sound ports portMaps) {m : Ref .portMap} (hm : portMaps.Has m)
    (hadd : r.addMap (portMaps.get m).name m = .ok r') : r'.Sound ports portMaps := by
  obtain ⟨hover, ⟨-, rfl⟩ | ⟨hnew, rfl⟩⟩ := addMap_ok hadd
  · exact h
  · refine ⟨h.port, ?_, h.labels, nodup_keys_append h.names hnew m, ?_⟩
    · intro e he
      rcases List.mem_append.mp he with he | he
      · exact h.map e he
      · cases List.mem_singleton.mp he
        exact ⟨hm, rfl⟩
    · intro e he f hf
      rcases List.mem_append.mp hf with hf | hf
      · exact h.apart e he f hf
      · cases List.mem_singleton.mp hf
        exact hover e he

end Registry.Sound

namespace PortMap.Sound

variable {ports : Table .port Port} {m : PortMap}

theorem add (h : m.Sound ports) {key : String} {p : Ref .port} (hp : ports.Has p)
    (hlabel : (ports.get p).label = ⟨m.name, key⟩) (hnew : m.get? key = none) :
    (m.add key p).Sound ports := by
  refine ⟨?_, nodup_keys_append h.keys hnew p⟩
  intro e he
  rcases List.mem_append.mp he with he | he
  · exact h.entry e he
  · cases List.mem_singleton.mp he
    exact ⟨hp, hlabel⟩

end PortMap.Sound

/-! ## What moves do to listings -/

namespace Graph

variable {g g' : Graph}

theorem Move.port_kept (h : g.Move g') {p : Ref .port} (hp : g.ports.Has p) :
    g'.ports.Has p ∧ g'.queueOf? p = g.queueOf? p ∧
      (¬g.Unlisted p → (g'.port p).label = (g.port p).label) := by
  cases h with
  | port port _ | input _ port _ _ =>
    have hrow : (g.ports.push port).1.get p = g.port p := Table.get_push_of_lt _ _ hp
    refine ⟨Table.has_push hp, ?_, fun _ => congrArg Port.label hrow⟩
    exact congrArg (fun row => row.input?.map Input.queue) hrow
  | changePort r f hqueue _ hlabel =>
    refine ⟨Table.has_modify.mpr hp, ?_, fun hlisted => ?_⟩
    · rw [queueOf?, port_modifyPort]
      split
      · next hr => rw [hr.1, hqueue]; rfl
      · rfl
    · rw [port_modifyPort]
      split
      · next hr =>
        rw [hr.1] at hlisted ⊢
        exact hlabel.resolve_left hlisted
      · rfl
  | _ => exact ⟨hp, rfl, fun _ => rfl⟩

theorem Move.queues_kept (h : g.Move g') {q : Ref .queue} (hq : g.queues.Has q) :
    g'.queues.Has q := by
  cases h with
  | queue | input => exact Table.has_push hq
  | setQueue => exact Table.has_modify.mpr hq
  | _ => exact hq

/-- The queue of a port was that of a port of the same node, or is new with the port. -/
theorem Move.queue_origin (h : g.Move g') {p : Ref .port} (hp : g'.ports.Has p) {q : Ref .queue}
    (hq : g'.queueOf? p = some q) :
    (∃ r, g.ports.Has r ∧ g.queueOf? r = some q ∧ (g.port r).node = (g'.port p).node) ∨
      (p = ⟨g.ports.size⟩ ∧ q = ⟨g.queues.size⟩ ∧ g'.queues.Has q) := by
  by_cases hold : g.ports.Has p
  · refine Or.inl ⟨p, hold, ?_, (h.kept.ports p hold).2.symm⟩
    rw [← (h.port_kept hold).2.1]
    exact hq
  · cases h with
    | port port hshared =>
      obtain rfl := Table.eq_of_has_push hp hold
      rw [queueOf?, Graph.port, Table.get_push_self] at hq
      obtain ⟨i, hi, rfl⟩ := Option.map_eq_some_iff.mp hq
      obtain ⟨r, hr, hqueue, hnode⟩ := hshared i hi
      exact Or.inl ⟨r, hr, hqueue, hnode.trans (congrArg Port.node (Table.get_push_self _ _)).symm⟩
    | input queue port _ hown =>
      obtain rfl := Table.eq_of_has_push hp hold
      rw [queueOf?, Graph.port, Table.get_push_self, hown] at hq
      cases hq
      exact Or.inr ⟨rfl, rfl, Table.has_push_self _ _⟩
    | changePort => exact absurd (Table.has_modify.mp hp) hold
    | _ => exact absurd hp hold

theorem Move.map_kept (h : g.Move g') {m : Ref .portMap} (hm : g.portMaps.Has m) :
    g'.portMaps.Has m ∧ (g'.portMap m).name = (g.portMap m).name := by
  cases h with
  | portMap portMap _ =>
    exact ⟨Table.has_push hm, congrArg PortMap.name (Table.get_push_of_lt _ _ hm)⟩
  | entry m' key p _ _ _ _ =>
    refine ⟨Table.has_modify.mpr hm, ?_⟩
    rw [Graph.portMap, Table.get_modify]
    split <;> rfl
  | _ => exact ⟨hm, rfl⟩

/-- A move changes a registry by one registration at most, and nothing else then. -/
theorem Move.registry (h : g.Move g') (n : Ref .node) (d : Direction) :
    (g'.node n).registry d = (g.node n).registry d ∨
      (g'.ports = g.ports ∧ g'.portMaps = g.portMaps ∧
        ((∃ p, g.ports.Has p ∧ ((g.node n).registry d).addPort (g.port p).label p =
            .ok ((g'.node n).registry d)) ∨
          ∃ m, g.portMaps.Has m ∧ ((g.node n).registry d).addMap (g.portMap m).name m =
            .ok ((g'.node n).registry d))) := by
  have hset : ∀ (n' : Ref .node) (d' : Direction) (r : Registry),
      ((g.modifyNode n' fun node => node.setRegistry d' r).node n).registry d =
        (g.node n).registry d ∨
      (n = n' ∧ d = d' ∧
        ((g.modifyNode n' fun node => node.setRegistry d' r).node n).registry d = r) := by
    intro n' d' r
    rw [registry_modifyNode]
    split
    · next hn => exact Or.inr ⟨hn.1, hn.2.1, rfl⟩
    · exact Or.inl rfl
  cases h with
  | node node hout hin =>
    refine Or.inl ?_
    rw [Graph.node, Table.get_push]
    split
    · next hn =>
      rw [Graph.node, Table.get_of_size_le _ (Nat.le_of_eq hn.symm)]
      cases d
      · exact hout
      · exact hin
    · rfl
  | registerPort n' d' p r hp hadd =>
    rcases hset n' d' r with hsame | ⟨rfl, rfl, hr⟩
    · exact Or.inl hsame
    · rw [hr]
      exact Or.inr ⟨rfl, rfl, Or.inl ⟨p, hp, hadd⟩⟩
  | registerMap n' d' m r hm hadd =>
    rcases hset n' d' r with hsame | ⟨rfl, rfl, hr⟩
    · exact Or.inl hsame
    · rw [hr]
      exact Or.inr ⟨rfl, rfl, Or.inr ⟨m, hm, hadd⟩⟩
  | changeNode n' f hf =>
    refine Or.inl ?_
    rw [node_modifyNode]
    split
    · exact (hf _).2.2 d
    · rfl
  | _ => exact Or.inl rfl

/-- A move adds one entry to a port map at most, and changes nothing else then. -/
theorem Move.entries (h : g.Move g') (m : Ref .portMap) :
    (g'.portMap m).entries = (g.portMap m).entries ∨
      (g'.ports = g.ports ∧ ∃ key p, g.ports.Has p ∧
        (g.port p).label = ⟨(g.portMap m).name, key⟩ ∧ (g.portMap m).get? key = none ∧
        g'.portMap m = (g.portMap m).add key p) := by
  cases h with
  | portMap portMap hempty =>
    refine Or.inl ?_
    rw [Graph.portMap, Table.get_push]
    split
    · next hm =>
      rw [Graph.portMap, Table.get_of_size_le _ (Nat.le_of_eq hm.symm)]
      exact hempty
    · rfl
  | entry m' key p hm hp hlabel hnew =>
    by_cases hmm : m = m'
    · subst hmm
      refine Or.inr ⟨rfl, key, p, hp, hlabel, hnew, ?_⟩
      exact Table.get_modify_self _ _ hm
    · refine Or.inl ?_
      exact congrArg PortMap.entries (Table.get_modify_of_ne _ _ fun he => hmm he.symm)
  | _ => exact Or.inl rfl

/-! ## The invariant -/

theorem has_of_mem_entries {m : Ref .portMap} {e : String × Ref .port}
    (he : e ∈ (g.portMap m).entries) : g.portMaps.Has m := by
  by_contra hm
  have hdefault : g.portMap m = default := Table.get_of_size_le _ (Nat.le_of_not_lt hm)
  rw [hdefault] at he
  cases he

theorem Sound.empty : Sound {} where
  registry n d := by cases d <;> exact .empty
  portMap m := ⟨nofun, List.nodup_nil⟩
  queue q hq := absurd hq (Nat.not_lt_zero _)
  input p hp := absurd hp (Nat.not_lt_zero _)

theorem Sound.move_registry (h : g.Sound) (hm : g.Move g') (n : Ref .node) (d : Direction) :
    ((g'.node n).registry d).Sound g'.ports g'.portMaps := by
  have hr := h.registry n d
  rcases hm.registry n d with hsame | ⟨hports, hmaps, ⟨p, hp, hadd⟩ | ⟨m, hm, hadd⟩⟩
  · rw [hsame]
    refine hr.transfer (fun e he => ?_) fun e he => hm.map_kept (hr.map e he).1
    obtain ⟨hhas, -, hlabel⟩ := hm.port_kept (hr.port e he).1
    exact ⟨hhas, hlabel fun hunlisted => hunlisted.1 n d e he rfl⟩
  · rw [hports, hmaps]
    exact hr.addPort hp hadd
  · rw [hports, hmaps]
    exact hr.addMap hm hadd

theorem Sound.move_portMap (h : g.Sound) (hm : g.Move g') (m : Ref .portMap) :
    (g'.portMap m).Sound g'.ports := by
  have hr := h.portMap m
  rcases hm.entries m with hsame | ⟨hports, key, p, hp, hlabel, hnew, hadd⟩
  · refine ⟨fun e he => ?_, by rw [hsame]; exact hr.keys⟩
    rw [hsame] at he
    obtain ⟨hp, hentry⟩ := hr.entry e he
    obtain ⟨hhas, -, hlabel⟩ := hm.port_kept hp
    refine ⟨hhas, (hlabel fun hunlisted => hunlisted.2 m e he rfl).trans ?_⟩
    rw [(hm.map_kept (has_of_mem_entries he)).2]
    exact hentry
  · rw [hports, hadd]
    exact hr.add hp hlabel hnew

theorem Sound.move_queue (h : g.Sound) (hm : g.Move g') (q : Ref .queue) (hq : g'.queues.Has q) :
    (g'.queue q).Roomy := by
  cases hm with
  | queue queue hroomy | input queue _ hroomy _ =>
    by_cases hold : g.queues.Has q
    · rw [Graph.queue, Table.get_push_of_lt _ _ hold]
      exact h.queue q hold
    · obtain rfl := Table.eq_of_has_push hq hold
      rw [Graph.queue, Table.get_push_self]
      exact hroomy
  | setQueue r queue hroomy =>
    have hhas := Table.has_modify.mp hq
    rw [queue_setQueue]
    split
    · next hr => exact hroomy (h.queue r hr.2)
    · exact h.queue q hhas
  | _ => exact h.queue q hq

theorem Sound.move_input (h : g.Sound) (hm : g.Move g') (p : Ref .port) (hp : g'.ports.Has p)
    (q : Ref .queue) (hq : g'.queueOf? p = some q) : g'.queues.Has q := by
  rcases hm.queue_origin hp hq with ⟨r, hr, hqueue, -⟩ | ⟨-, -, hnew⟩
  · exact hm.queues_kept (h.input r hr q hqueue)
  · exact hnew

theorem Sound.move (h : g.Sound) (hm : g.Move g') : g'.Sound :=
  ⟨h.move_registry hm, h.move_portMap hm, h.move_queue hm, h.move_input hm⟩

theorem Sound.noted (h : g.Sound) {p : Ref .pipeline} {e : Event} (hn : g.Noted p e g') :
    g'.Sound := by
  cases hn <;> exact ⟨h.registry, h.portMap, h.queue, h.input⟩

theorem Sound.moves (h : g.Sound) (hm : g.Moves g') : g'.Sound := by
  induction hm with
  | refl => exact h
  | tail _ hm ih => exact ih.move hm

theorem Sound.after (h : g.Sound) {op : Operation} (hfits : op.Fits g) : (op.after g).Sound := by
  rcases op.moving hfits with ⟨-, hmoves⟩ | ⟨p, e, g₁, -, hmoves, hnoted⟩
  · exact h.moves hmoves
  · exact (h.moves hmoves).noted hnoted

theorem Run.sound {h : History} (hrun : Run g h) : g.Sound :=
  hrun.induct (P := fun g _ => g.Sound) .empty (fun h hm => h.move hm) fun h hn => h.noted hn

/-! ## One port for a label -/

theorem mem_portsOf {n : Ref .node} {d : Direction} {p : Ref .port} :
    p ∈ g.portsOf n d ↔ (∃ e ∈ ((g.node n).registry d).ports, e.2 = p) ∨
      ∃ f ∈ ((g.node n).registry d).maps, ∃ e ∈ (g.portMap f.2).entries, e.2 = p := by
  simp only [portsOf, Registry.enumerate, List.mem_append, List.mem_map, List.mem_flatMap,
    PortMap.ports, portMap]

theorem Sound.has_of_mem (h : g.Sound) {n : Ref .node} {d : Direction} {p : Ref .port}
    (hp : p ∈ g.portsOf n d) : g.ports.Has p := by
  rcases mem_portsOf.mp hp with ⟨e, he, rfl⟩ | ⟨f, -, e, he, rfl⟩
  · exact ((h.registry n d).port e he).1
  · exact ((h.portMap f.2).entry e he).1

theorem not_unlisted_of_mem {n : Ref .node} {d : Direction} {p : Ref .port}
    (hp : p ∈ g.portsOf n d) : ¬g.Unlisted p := by
  rintro ⟨hports, hmaps⟩
  rcases mem_portsOf.mp hp with ⟨e, he, heq⟩ | ⟨f, -, e, he, heq⟩
  · exact hports n d e he heq
  · exact hmaps f.2 e he heq

/-- The labels of the ports in a registered port map: its name with the keys. -/
theorem Sound.labels_of_map (h : g.Sound) {n : Ref .node} {d : Direction}
    {f : String × Ref .portMap} (hf : f ∈ ((g.node n).registry d).maps) :
    ((g.portMap f.2).ports.map fun p => (g.port p).label) =
      ((g.portMap f.2).entries.map Prod.fst).map fun key => ⟨f.1, key⟩ := by
  rw [PortMap.ports, List.map_map, List.map_map]
  refine List.map_congr_left fun e he => ?_
  have hlabel : (g.port e.2).label = ⟨(g.portMap f.2).name, e.1⟩ := ((h.portMap f.2).entry e he).2
  have hname : (g.portMap f.2).name = f.1 := ((h.registry n d).map f hf).2
  rw [Function.comp_apply, Function.comp_apply, hlabel, hname]

theorem Sound.labels_nodup (h : g.Sound) (n : Ref .node) (d : Direction) :
    ((g.portsOf n d).map fun p => (g.port p).label).Nodup := by
  have hr := h.registry n d
  have hstatic : ((((g.node n).registry d).ports.map Prod.snd).map fun p => (g.port p).label) =
      ((g.node n).registry d).ports.map Prod.fst := by
    rw [List.map_map]
    exact List.map_congr_left fun e he => (hr.port e he).2
  have hgroup : ∀ f ∈ ((g.node n).registry d).maps,
      ∀ l ∈ (g.portMap f.2).ports.map fun p => (g.port p).label, l.group = f.1 := by
    intro f hf l hl
    rw [h.labels_of_map hf] at hl
    obtain ⟨key, -, rfl⟩ := List.mem_map.mp hl
    rfl
  rw [portsOf, Registry.enumerate, List.map_append, List.map_flatMap, hstatic, List.nodup_append]
  refine ⟨hr.labels, List.nodup_flatMap.mpr ⟨fun f hf => ?_, ?_⟩, ?_⟩
  · change ((g.portMap f.2).ports.map fun p => (g.port p).label).Nodup
    rw [h.labels_of_map hf]
    refine (h.portMap f.2).keys.map fun key key' heq => ?_
    exact congrArg PortLabel.name heq
  · -- Two maps of one registry have different names, and so have their labels' groups.
    refine (List.pairwise_map.mp hr.names).imp_of_mem fun {f f'} hf hf' hne => ?_
    intro l hl hl'
    exact hne ((hgroup f hf l hl).symm.trans (hgroup f' hf' l hl'))
  · intro l hl l' hl' heq
    obtain ⟨e, he, rfl⟩ := List.mem_map.mp hl
    obtain ⟨f, hf, hl'⟩ := List.mem_flatMap.mp hl'
    exact hr.apart e he f hf (heq ▸ hgroup f hf l' hl')

/-- A listed port is the only one of its node and direction with its label. -/
theorem Sound.filter_label (h : g.Sound) {n : Ref .node} {d : Direction} {p : Ref .port}
    (hp : p ∈ g.portsOf n d) :
    ((g.portsOf n d).filter fun q => (g.port q).label = (g.port p).label) = [p] := by
  have hnodup := h.labels_nodup n d
  have hself : ∀ q ∈ g.portsOf n d, (decide ((g.port q).label = (g.port p).label)) = (q == p) := by
    intro q hq
    rw [Bool.eq_iff_iff, decide_eq_true_eq, beq_iff_eq]
    exact ⟨List.inj_on_of_nodup_map hnodup hq hp, fun he => by rw [he]⟩
  rw [List.filter_congr hself, List.filter_beq, List.count_eq_one_of_mem hnodup.of_map hp]
  rfl

theorem Sound.port?_of_mem (h : g.Sound) {n : Ref .node} {d : Direction} {p : Ref .port}
    (hp : p ∈ g.portsOf n d) : g.port? n d (g.port p).label = some p := by
  rw [port?, ← List.head?_filter, h.filter_label hp]
  rfl

theorem mem_of_port? {n : Ref .node} {d : Direction} {l : PortLabel} {p : Ref .port}
    (h : g.port? n d l = some p) : p ∈ g.portsOf n d := List.mem_of_find?_eq_some h

theorem Sound.port?_eq_some_iff (h : g.Sound) {n : Ref .node} {d : Direction} {l : PortLabel}
    {p : Ref .port} :
    g.port? n d l = some p ↔ p ∈ g.portsOf n d ∧ (g.port p).label = l := by
  constructor
  · intro hp
    have hlabel := List.find?_some hp
    exact ⟨mem_of_port? hp, of_decide_eq_true hlabel⟩
  · rintro ⟨hp, rfl⟩
    exact h.port?_of_mem hp

/-! ## Listed ports stay -/

/-- Listed ports stay listed, with label and queue. -/
def Extends (g g' : Graph) : Prop :=
  ∀ n d, ∀ p ∈ g.portsOf n d,
    p ∈ g'.portsOf n d ∧ (g'.port p).label = (g.port p).label ∧ g'.queueOf? p = g.queueOf? p

theorem Extends.refl (g : Graph) : g.Extends g := fun _ _ _ hp => ⟨hp, rfl, rfl⟩

theorem Extends.trans {g'' : Graph} (h : g.Extends g') (h' : g'.Extends g'') : g.Extends g'' := by
  intro n d p hp
  obtain ⟨hp', hlabel, hqueue⟩ := h n d p hp
  obtain ⟨hp'', hlabel', hqueue'⟩ := h' n d p hp'
  exact ⟨hp'', hlabel'.trans hlabel, hqueue'.trans hqueue⟩

/-- A registration only adds to a registry. -/
theorem Move.registry_subset (hm : g.Move g') (n : Ref .node) (d : Direction) :
    ((g.node n).registry d).ports ⊆ ((g'.node n).registry d).ports ∧
      ((g.node n).registry d).maps ⊆ ((g'.node n).registry d).maps := by
  rcases hm.registry n d with hsame | ⟨-, -, ⟨p, -, hadd⟩ | ⟨m, -, hadd⟩⟩
  · rw [hsame]
    exact ⟨List.Subset.refl _, List.Subset.refl _⟩
  · obtain ⟨-, ⟨-, hr⟩ | ⟨-, hr⟩⟩ := Registry.addPort_ok hadd
    · rw [hr]
      exact ⟨List.Subset.refl _, List.Subset.refl _⟩
    · rw [hr]
      exact ⟨List.subset_append_left _ _, List.Subset.refl _⟩
  · obtain ⟨-, ⟨-, hr⟩ | ⟨-, hr⟩⟩ := Registry.addMap_ok hadd
    · rw [hr]
      exact ⟨List.Subset.refl _, List.Subset.refl _⟩
    · rw [hr]
      exact ⟨List.Subset.refl _, List.subset_append_left _ _⟩

theorem Move.entries_subset (hm : g.Move g') (m : Ref .portMap) :
    (g.portMap m).entries ⊆ (g'.portMap m).entries := by
  rcases hm.entries m with hsame | ⟨-, key, q, -, -, -, hadd⟩
  · rw [hsame]
    exact List.Subset.refl _
  · rw [hadd]
    exact List.subset_append_left _ _

theorem Move.mem_portsOf (hm : g.Move g') {n : Ref .node} {d : Direction} {p : Ref .port}
    (hp : p ∈ g.portsOf n d) : p ∈ g'.portsOf n d := by
  obtain ⟨hports, hmaps⟩ := hm.registry_subset n d
  rw [Graph.mem_portsOf] at hp ⊢
  rcases hp with ⟨e, he, heq⟩ | ⟨f, hf, e, he, heq⟩
  · exact Or.inl ⟨e, hports he, heq⟩
  · exact Or.inr ⟨f, hmaps hf, e, hm.entries_subset f.2 he, heq⟩

theorem Sound.extends_move (h : g.Sound) (hm : g.Move g') : g.Extends g' := by
  intro n d p hp
  obtain ⟨-, hqueue, hlabel⟩ := hm.port_kept (h.has_of_mem hp)
  exact ⟨hm.mem_portsOf hp, hlabel (not_unlisted_of_mem hp), hqueue⟩

theorem Sound.extends_moves (h : g.Sound) (hm : g.Moves g') : g.Extends g' := by
  induction hm with
  | refl => exact .refl g
  | tail hm hlast ih => exact ih.trans ((h.moves hm).extends_move hlast)

theorem Noted.extends {p : Ref .pipeline} {e : Event} (hn : g.Noted p e g') : g.Extends g' := by
  cases hn <;> exact .refl g

end Graph

end FrameGraph
