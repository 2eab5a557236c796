import FrameGraph.Proofs.Graph.Footprint
import FrameGraph.Proofs.Graph.Requests

/-!
# New ports

While a pipeline is built, ports are only added: by new nodes, and by port maps that are asked for new
keys. A port that is added has nothing but the defaults it was declared with, agrees with its queue, and
shares it with no other port, so whatever is set up there later concerns no other port.

* `Alone`: a port has a queue of its own and agrees with it. `Alone.tuned`: this stays so while other
  ports are set up.
* `Sprouts`: ports are added in this way. `create_sprouts`, `Resolved.sprouts`: so it is with new nodes
  and with ports that are asked for.
* `Resolved.found_or_added`: a port that is asked for was there, or is the only one that was added.
* `create_new`: what is listed on a new node is new.
-/

namespace FrameGraph.Graph

variable {g g' g'' : Graph} {n : Ref .node} {d : Direction} {l : PortLabel} {p r : Ref .port}

/-! ## Ports with queues of their own -/

theorem Shares.symm (h : g.Shares r p) : g.Shares p r := by
  refine ⟨?_, h.2.symm⟩
  rw [h.2]
  exact h.1

/-- The port agrees with its queue, if it has one, and no other port has this queue. -/
structure Alone (g : Graph) (p : Ref .port) : Prop where
  settled : g.Settled p
  unshared : ∀ r, r ≠ p → ¬g.Shares r p

namespace Alone

theorem of_not_has (hp : ¬g.ports.Has p) : g.Alone p := by
  refine ⟨settled_of_not_has hp, fun r _ hshares => ?_⟩
  obtain ⟨q, hq⟩ := Option.isSome_iff_exists.mp hshares.1
  obtain ⟨i, hi, -⟩ := queueOf?_eq_some_iff.mp hq
  exact hp (has_of_input? hi)

/-- Setting up another port does not matter. -/
theorem tuned (h : g.Alone p) (ht : g.Tuned r g') (hr : r ≠ p) : g'.Alone p := by
  refine ⟨h.settled.tuned ht (h.unshared r hr), fun s hs => ?_⟩
  rw [Shares, ht.queueOf?_eq, ht.queueOf?_eq]
  exact h.unshared s hs

/-- The port itself may be set up, as long as its queue is set up with it. -/
theorem setUp (h : g.Alone p) (ht : g.Tuned p g') (hs : g'.Settled p) : g'.Alone p := by
  refine ⟨hs, fun r hr => ?_⟩
  rw [Shares, ht.queueOf?_eq, ht.queueOf?_eq]
  exact h.unshared r hr

/-- Ports that come with queues of their own do not matter. -/
theorem extended (h : g.Alone p) (hp : g.ports.Has p) (hg : Extended g g')
    (hnew : ∀ r, ¬g.ports.Has r → g'.Alone r) : g'.Alone p := by
  have hsame : ∀ {r}, g.ports.Has r → g'.queueOf? r = g.queueOf? r := fun {r} hr => by
    rw [queueOf?, (hg.ports r hr).2]
    rfl
  refine ⟨?_, fun r hr hshares => ?_⟩
  · refine h.settled.keep (by rw [(hg.ports p hp).2]) fun q _ hq => ?_
    obtain ⟨hhas, hrow⟩ := hg.queues q hq
    rw [hrow]
    exact ⟨hhas, rfl, rfl⟩
  · by_cases hold : g.ports.Has r
    · rw [Shares, hsame hold, hsame hp] at hshares
      exact h.unshared r hr hshares
    · exact (hnew r hold).unshared p hr.symm hshares.symm

end Alone

/-! ## Ports that are added -/

/-- Ports and queues stay as they are. What is added has nothing but the defaults it was declared with,
and a queue of its own. -/
structure Sprouts (g g' : Graph) : Prop extends Extended g g' where
  bare : ∀ p, ¬g.ports.Has p → (g'.port p).bare = g'.port p
  alone : ∀ p, ¬g.ports.Has p → g'.Alone p

theorem bare_of_not_has (hp : ¬g.ports.Has p) : (g.port p).bare = g.port p := by
  rw [port, Table.get_of_size_le _ (Nat.le_of_not_lt hp)]
  rfl

namespace Sprouts

theorem refl (g : Graph) : Sprouts g g :=
  ⟨.refl g, fun _ => bare_of_not_has, fun _ => .of_not_has⟩

theorem trans (h : Sprouts g g') (h' : Sprouts g' g'') : Sprouts g g'' := by
  refine ⟨h.toExtended.trans h'.toExtended, fun p hp => ?_, fun p hp => ?_⟩
  · by_cases hp' : g'.ports.Has p
    · rw [(h'.ports p hp').2]
      exact h.bare p hp
    · exact h'.bare p hp'
  · by_cases hp' : g'.ports.Has p
    · exact (h.alone p hp).extended hp' h'.toExtended h'.alone
    · exact h'.alone p hp'

theorem of_pair (h : (g'.ports, g'.queues) = (g.ports, g.queues)) : Sprouts g g' := by
  have hports : ∀ p, ¬g.ports.Has p → ¬g'.ports.Has p := fun p hp => by
    rw [(Prod.mk.inj h).1]
    exact hp
  exact ⟨.of_pair h, fun p hp => bare_of_not_has (hports p hp), fun p hp => .of_not_has (hports p hp)⟩

theorem of_made {x : Graph × Ref .port} (h : g.Made n l x) (hs : g.Sound)
    (hbare : (x.1.port x.2).bare = x.1.port x.2) (hsettled : x.1.Settled x.2) : Sprouts g x.1 := by
  have hnew : ∀ p, ¬g.ports.Has p → p = x.2 ∨ ¬x.1.ports.Has p := fun p hp => by
    by_cases hp' : x.1.ports.Has p
    · exact Or.inl ((h.only p hp').resolve_left hp)
    · exact Or.inr hp'
  refine ⟨.of_made h, fun p hp => ?_, fun p hp => ?_⟩
  · rcases hnew p hp with rfl | hp'
    · exact hbare
    · exact bare_of_not_has hp'
  · rcases hnew p hp with rfl | hp'
    · refine ⟨hsettled, fun r hr hshares => ?_⟩
      by_cases hold : g.ports.Has r
      · exact h.own hs hold hshares
      · have hr' := (hnew r hold).resolve_left hr
        exact (Alone.of_not_has hr').unshared _ hr.symm hshares.symm
    · exact .of_not_has hp'

end Sprouts

theorem declarePort_sprouts (hs : g.Sound) {x : PortDeclaration} {s : Graph × Ref .port}
    (h : g.declarePort n x l = .ok s) : Sprouts g s.1 := by
  obtain ⟨g₁, p, q, hnew, hmade, hrow⟩ := g.declarePort_ok n x l
  cases h.symm.trans hnew
  refine .of_made hmade hs ?_ ((declarePort_steady hnew).fresh p hmade.fresh)
  rw [hrow, PortDeclaration.row_bare]

theorem declare_sprouts (hs : g.Sound) {y : Declared} (h : declare n g y = .ok g') :
    Sprouts g g' := by
  obtain ⟨x, s, hnew, -, hpair⟩ := declare_tables h
  exact (declarePort_sprouts hs hnew).trans (.of_pair hpair)

theorem create_sprouts (hs : g.Sound) {q : Ref .pipeline} {kind : NodeKind} {given : Value}
    (h : g.create q kind given = .ok (g', n)) : Sprouts g g' := by
  obtain ⟨settings, g₁, -, -, hports, rfl⟩ := create_eq_ok.mp h
  rw [declarePorts_eq] at hports
  have hnode : g.Move { g with nodes := (g.nodes.push (g.newNode q kind settings)).1 } :=
    .node _ rfl rfl
  have hdeclared : ({ g with nodes := (g.nodes.push (g.newNode q kind settings)).1 } : Graph).Sound →
      g₁.Sound ∧ Sprouts _ g₁ :=
    foldlM_related (R := fun a b => a.Sound → b.Sound ∧ Sprouts a b) (fun a ha => ⟨ha, .refl a⟩)
      (fun hab hbc ha => ⟨(hbc (hab ha).1).1, (hab ha).2.trans (hbc (hab ha).1).2⟩)
      (fun a y b hok ha => ⟨ha.moves (declare_declares hok).moves, declare_sprouts ha hok⟩) _ hports
  have hpushed : Sprouts g { g with nodes := (g.nodes.push (g.newNode q kind settings)).1 } :=
    .of_pair rfl
  exact (hpushed.trans (hdeclared (hs.moves hnode.single)).2).trans (.of_pair rfl)

/-- A port that is asked for on a node with the ports of its kind is there, or is made as it was
declared. -/
theorem Resolved.sprouts (h : Resolved n d l g g' p) (hs : g.Sound) (hn : g.Equipped n) :
    Sprouts g g' := by
  rcases h with ⟨m, hm, hcreate⟩ | ⟨-, rfl⟩
  · obtain ⟨-, x, -, hmap⟩ := hn.map_declared hm
    rcases getOrCreate_cases hcreate with ⟨-, rfl⟩ | ⟨-, g₁, hclone, -, rfl⟩
    · exact .refl g'
    · obtain ⟨-, q, htemplate⟩ := hmap.template
      rw [clonePort_eq htemplate hn.alive] at hclone
      exact (declarePort_sprouts hs hclone).trans (.of_pair rfl)
  · exact .refl g'

/-- A port was made for a key that its map did not have. -/
structure Added (n : Ref .node) (d : Direction) (l : PortLabel) (m : Ref .portMap) (g g' : Graph)
    (p : Ref .port) : Prop where
  map : g.portMap? n d l.group = some m
  absent : (g.portMap m).get? l.name = none
  fresh : ¬g.ports.Has p
  nodes : ∀ k, g'.node k = g.node k
  portMap : g'.portMap m = (g.portMap m).add l.name p
  others : ∀ k, k ≠ m → g'.portMap k = g.portMap k

/-- A port that is asked for was there, or was made. -/
theorem Resolved.found_or_added (h : Resolved n d l g g' p) (hs : g.Sound) (hn : g.Equipped n) :
    (g' = g ∧ p ∈ g.portsOf n d ∧ (g.port p).label = l) ∨ ∃ m, Added n d l m g g' p := by
  obtain ⟨hp, hlabel⟩ := h.mem hs hn.has
  rcases h with ⟨m, hm, hcreate⟩ | ⟨-, rfl⟩
  · rcases getOrCreate_cases hcreate with ⟨-, rfl⟩ | ⟨habsent, g₁, -, hmade, rfl⟩
    · exact Or.inl ⟨rfl, hp, hlabel⟩
    · have hhas := ((hs.registry n d).map _ (mem_of_lookup_eq_some hm)).1
      refine Or.inr ⟨m, hm, habsent, hmade.fresh, fun k => ?_, ?_, fun k hk => ?_⟩
      · change g₁.nodes.get k = _
        rw [hmade.nodes]
        rfl
      · change (g₁.portMaps.modify m _).get m = _
        rw [hmade.portMaps, Table.get_modify_self _ _ hhas]
        rfl
      · change (g₁.portMaps.modify m _).get k = _
        rw [hmade.portMaps, Table.get_modify_of_ne _ _ hk.symm]
        rfl
  · exact Or.inl ⟨rfl, hp, hlabel⟩

/-- The port is the only one that was added. -/
theorem Added.mem_portsOf {m : Ref .portMap} (h : Added n d l m g g' p) {k : Ref .node}
    {e : Direction} (hr : r ∈ g'.portsOf k e) : r ∈ g.portsOf k e ∨ r = p := by
  rcases Graph.mem_portsOf.mp hr with ⟨a, ha, rfl⟩ | ⟨f, hf, a, ha, rfl⟩
  · rw [h.nodes] at ha
    exact Or.inl (Graph.mem_portsOf.mpr (Or.inl ⟨a, ha, rfl⟩))
  · rw [h.nodes] at hf
    have hlisted : a ∈ (g.portMap f.2).entries → a.2 ∈ g.portsOf k e := fun ha =>
      Graph.mem_portsOf.mpr (Or.inr ⟨f, hf, a, ha, rfl⟩)
    by_cases hfm : f.2 = m
    · rw [hfm, h.portMap] at ha
      rcases List.mem_append.mp ha with hold | hlast
      · rw [← hfm] at hold
        exact Or.inl (hlisted hold)
      · rw [List.mem_singleton.mp hlast]
        exact Or.inr rfl
    · rw [h.others f.2 hfm] at ha
      exact Or.inl (hlisted ha)

theorem connect_sprouts {q : Ref .pipeline} {o i : Ref .port} {c : Connection}
    (h : g.connect q o i = .ok (g', c)) : Sprouts g g' := by
  obtain ⟨-, -, -, -, -, -, rfl⟩ := connect_eq_ok.mp h
  exact .of_pair rfl

/-! ## What a new node lists -/

/-- What is registered on a node was registered there before, or is new. -/
structure Registers (n : Ref .node) (g g' : Graph) : Prop where
  kept : (∀ p, g.ports.Has p → g'.ports.Has p) ∧ ∀ m, g.portMaps.Has m → g'.portMaps.Has m
  ports : ∀ d, ∀ e ∈ ((g'.node n).registry d).ports,
    e ∈ ((g.node n).registry d).ports ∨ ¬g.ports.Has e.2
  maps : ∀ d, ∀ f ∈ ((g'.node n).registry d).maps,
    f ∈ ((g.node n).registry d).maps ∨ ¬g.portMaps.Has f.2

namespace Registers

theorem refl (n : Ref .node) (g : Graph) : Registers n g g :=
  ⟨⟨fun _ h => h, fun _ h => h⟩, fun _ _ => Or.inl, fun _ _ => Or.inl⟩

theorem trans (h : Registers n g g') (h' : Registers n g' g'') : Registers n g g'' where
  kept := ⟨fun p hp => h'.kept.1 p (h.kept.1 p hp), fun m hm => h'.kept.2 m (h.kept.2 m hm)⟩
  ports d e he := by
    rcases h'.ports d e he with he' | hnew
    · exact h.ports d e he'
    · exact Or.inr fun hold => hnew (h.kept.1 _ hold)
  maps d f hf := by
    rcases h'.maps d f hf with hf' | hnew
    · exact h.maps d f hf'
    · exact Or.inr fun hold => hnew (h.kept.2 _ hold)

/-- Nothing is registered. -/
theorem of_nodes (hnodes : g'.nodes = g.nodes) (hports : ∀ p, g.ports.Has p → g'.ports.Has p)
    (hmaps : ∀ m, g.portMaps.Has m → g'.portMaps.Has m) : Registers n g g' := by
  have hnode : g'.node n = g.node n := by rw [Graph.node, hnodes]; rfl
  refine ⟨⟨hports, hmaps⟩, fun d e he => ?_, fun d f hf => ?_⟩
  · rw [hnode] at he
    exact Or.inl he
  · rw [hnode] at hf
    exact Or.inl hf

/-- A registry changes that lists nothing else. -/
theorem register (h : Registers n g g') {e : Direction} {r : Registry}
    (hports : ∀ a ∈ r.ports, a ∈ ((g'.node n).registry e).ports ∨ ¬g.ports.Has a.2)
    (hmaps : ∀ f ∈ r.maps, f ∈ ((g'.node n).registry e).maps ∨ ¬g.portMaps.Has f.2) :
    Registers n g (g'.modifyNode n fun node => node.setRegistry e r) := by
  refine ⟨h.kept, fun d a ha => ?_, fun d f hf => ?_⟩
  · rw [registry_modifyNode] at ha
    split at ha
    · next hd =>
      rw [hd.2.1]
      exact (hports a ha).elim (h.ports e a) Or.inr
    · exact h.ports d a ha
  · rw [registry_modifyNode] at hf
    split at hf
    · next hd =>
      rw [hd.2.1]
      exact (hmaps f hf).elim (h.maps e f) Or.inr
    · exact h.maps d f hf

end Registers

theorem declare_registers {y : Declared} (h : declare n g y = .ok g') : Registers n g g' := by
  obtain ⟨x, g₁, p, -, hmade, ⟨-, hregister⟩ | ⟨name, -, hregister⟩⟩ := declare_cases h
  · obtain ⟨r, hadd, hregister⟩ := bind_eq_ok.mp hregister
    cases hregister
    have hmades : Registers n g g₁ :=
      .of_nodes hmade.nodes (fun q hq => (hmade.moves.kept.ports q hq).1) fun m hm => by
        rw [hmade.portMaps]
        exact hm
    obtain ⟨-, ⟨-, rfl⟩ | ⟨-, rfl⟩⟩ := Registry.addPort_ok hadd
    · exact hmades.register (fun _ => Or.inl) fun _ => Or.inl
    · refine hmades.register (fun a ha => ?_) fun _ => Or.inl
      rcases List.mem_append.mp ha with hold | hlast
      · exact Or.inl hold
      · rw [List.mem_singleton.mp hlast]
        exact Or.inr hmade.fresh
  · obtain ⟨r, hadd, hregister⟩ := bind_eq_ok.mp hregister
    cases hregister
    have hmades : Registers n g (g₁.newPortMap name x.direction p).1 :=
      .of_nodes hmade.nodes (fun q hq => (hmade.moves.kept.ports q hq).1) fun m hm => by
        refine Table.has_push ?_
        rw [hmade.portMaps]
        exact hm
    have hfresh : ¬g.portMaps.Has (g₁.newPortMap name x.direction p).2 := by
      rw [← hmade.portMaps]
      exact Nat.lt_irrefl _
    obtain ⟨-, ⟨-, rfl⟩ | ⟨-, rfl⟩⟩ := Registry.addMap_ok hadd
    · exact hmades.register (fun _ => Or.inl) fun _ => Or.inl
    · refine hmades.register (fun _ => Or.inl) fun f hf => ?_
      rcases List.mem_append.mp hf with hold | hlast
      · exact Or.inl hold
      · rw [List.mem_singleton.mp hlast]
        exact Or.inr hfresh

/-- Nothing that is registered on a new node was there before. -/
theorem create_new {q : Ref .pipeline} {kind : NodeKind} {given : Value}
    (h : g.create q kind given = .ok (g', n)) :
    (∀ d, ∀ e ∈ ((g'.node n).registry d).ports, ¬g.ports.Has e.2) ∧
      ∀ d, ∀ f ∈ ((g'.node n).registry d).maps, ¬g.portMaps.Has f.2 := by
  obtain ⟨settings, g₁, -, rfl, hports, rfl⟩ := create_eq_ok.mp h
  rw [declarePorts_eq] at hports
  have hregisters : Registers ⟨g.nodes.size⟩ _ g₁ :=
    foldlM_related (Registers.refl _) Registers.trans (fun _ _ _ => declare_registers) _ hports
  have hrow : ({ g with nodes := (g.nodes.push (g.newNode q kind settings)).1 } : Graph).node
      ⟨g.nodes.size⟩ = g.newNode q kind settings := Table.get_push_self _ _
  have hnone : ∀ d, (g.newNode q kind settings).registry d = {} := fun d => by cases d <;> rfl
  refine ⟨fun d e he => ?_, fun d f hf => ?_⟩
  · refine (hregisters.ports d e he).resolve_left fun hold => ?_
    rw [hrow, hnone] at hold
    cases hold
  · refine (hregisters.maps d f hf).resolve_left fun hold => ?_
    rw [hrow, hnone] at hold
    cases hold

/-- The port maps that were there stay as they are, and new ones have no keys. -/
theorem create_maps {q : Ref .pipeline} {kind : NodeKind} {given : Value}
    (h : g.create q kind given = .ok (g', n)) :
    (∀ m, g.portMaps.Has m → g'.portMap m = g.portMap m) ∧
      ∀ m, (g'.portMap m).entries = (g.portMap m).entries := by
  obtain ⟨settings, g₁, -, -, hports, rfl⟩ := create_eq_ok.mp h
  have hdeclares := declarePorts_declares hports
  exact ⟨fun m hm => (hdeclares.map m hm).2, hdeclares.entries⟩

end FrameGraph.Graph
