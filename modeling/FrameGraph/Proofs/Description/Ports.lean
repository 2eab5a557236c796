import FrameGraph.Proofs.Description.InputSettings
import FrameGraph.Proofs.Graph.Listing

/-!
# Ports as they are described

The port maps of a node have the keys that a description names, and its inputs are set up as is said
last, or else as they were declared. Ports are made when they are first named, by an entry for an input
or by an end of a connection, and several texts may name one port, but none of this can be seen in the
end.

* `saidInputs`, `askedAt`: what a description says about the inputs of a node, and which ports of the
  node it names.
* `Furnished`: the ports of a node are as they are described so far. `Furnished.resolve`,
  `Furnished.setUp`: it is kept when one more port is named, and when an input is set up.
* `build_furnished`: the ports of all nodes of a pipeline that was built.
-/

namespace FrameGraph.Description

open FrameGraph.Graph Workspace

variable {g g' : Graph} {w w' : Workspace} {n m : Ref .node} {d : Direction} {l : PortLabel}
  {p : Ref .port} {asked : List (Direction × PortLabel)} {said : List (PortLabel × Value)}

/-! ## What a description names -/

/-- The input that an entry names, with its settings. -/
def namedInput (entry : Value × Value) : Except Fault (PortLabel × Value) := do
  .ok (← PortLabel.ofValue entry.1, entry.2.orElse (.dict []))

/-- What is said about the inputs of a described node, in order. -/
def saidInputs (entry : Value × Value) : Except Fault (List (PortLabel × Value)) := do
  let inputs ← memberOrEmpty entry.2 "inputs" (.dict [])
  (← inputs.entries).mapM namedInput

/-- The ports of the node at a position that the ends of a connection name. -/
def endsAt (entries : Entries) (i : Nat) (ends : EndpointSpec × EndpointSpec) :
    List (Direction × PortLabel) :=
  (if position? entries ends.1.node = some i then [(.output, ends.1.port)] else []) ++
    if position? entries ends.2.node = some i then [(.input, ends.2.port)] else []

/-- The ports of the node at a position that are named, first by what is said about its inputs and then
by the ends of connections. -/
def askedAt (entries : Entries) (i : Nat) (said : List (PortLabel × Value))
    (ends : List (EndpointSpec × EndpointSpec)) : List (Direction × PortLabel) :=
  said.map (fun e => (.input, e.1)) ++ ends.flatMap (endsAt entries i)

/-- The keys of a group among ports that are named, in the order in which they are first named. -/
def keysOf (asked : List (Direction × PortLabel)) (d : Direction) (group : String) : List String :=
  ((asked.filter fun a => a.1 = d ∧ a.2.group = group).map fun a => a.2.name).eraseDups

theorem keysOf_concat_of_ne {group : String} {e : Direction} (h : ¬(e = d ∧ l.group = group)) :
    keysOf (asked ++ [(e, l)]) d group = keysOf asked d group := by
  rw [keysOf, List.filter_append, List.filter_cons_of_neg (by simpa using h), List.filter_nil,
    List.append_nil, keysOf]

theorem keysOf_concat_self : keysOf (asked ++ [(d, l)]) d l.group =
    if l.name ∈ keysOf asked d l.group then keysOf asked d l.group
    else keysOf asked d l.group ++ [l.name] := by
  rw [keysOf, List.filter_append, List.filter_cons_of_pos (by simp), List.filter_nil,
    List.map_append, List.map_cons, List.map_nil, eraseDups_concat]
  simp only [keysOf, List.mem_eraseDups]

/-! ## Ports of one node -/

/-- The input has what was said last, or else what is declared. Its queue is set up like this, and no
other port has it. -/
structure AsSaid (g : Graph) (n : Ref .node) (said : List (PortLabel × Value)) (p : Ref .port)
    (x : InputDeclaration) (i : Input) : Prop where
  declared : g.declared? n .input (g.port p).label = some (.input x)
  input : (g.port p).input? = some i
  settings : ∀ s : Setting, s.of i = (s.last said (g.port p).label).getD (s.declared x)
  queue : g.Agrees i
  unshared : ∀ r, r ≠ p → ¬g.Shares r p

/-- The ports of the node are as they are described: the port maps of its kind have the keys that were
asked for, and the inputs are as was said. -/
structure Furnished (g : Graph) (n : Ref .node) (asked : List (Direction × PortLabel))
    (said : List (PortLabel × Value)) : Prop where
  maps : ∀ d, ∀ f ∈ (g.node n).kind.declarations.maps d, ∃ m, g.portMap? n d f.1 = some m ∧
    (g.portMap m).entries.map Prod.fst = keysOf asked d f.1
  inputs : ∀ p ∈ g.portsOf n .input, ∃ x i, AsSaid g n said p x i
  listed : ∀ e ∈ said, e.1 ∈ g.labelsOf n .input

namespace AsSaid

variable {x : InputDeclaration} {i : Input}

theorem alone (h : AsSaid g n said p x i) : g.Alone p := by
  refine ⟨fun j hj => ?_, h.unshared⟩
  cases h.input.symm.trans hj
  exact h.queue

theorem has (h : AsSaid g n said p x i) : g.ports.Has p := has_of_input? h.input

/-- The input is as it was, and nothing else is said about it. -/
theorem keep (h : AsSaid g n said p x i) (hnode : g'.node n = g.node n)
    (hrow : g'.port p = g.port p) (halone : g'.Alone p) {said' : List (PortLabel × Value)}
    (hsaid : ∀ s : Setting, s.last said' (g.port p).label = s.last said (g.port p).label) :
    AsSaid g' n said' p x i := by
  have hinput : (g'.port p).input? = some i := by
    rw [hrow]
    exact h.input
  refine ⟨?_, hinput, fun s => ?_, halone.settled i hinput, halone.unshared⟩
  · rw [declared?, hnode, hrow]
    exact h.declared
  · rw [hrow, hsaid]
    exact h.settings s

/-- The input is set up. -/
theorem setUp (h : AsSaid g n said p x i) (hg : g.Tuned p g') {settings : Value}
    (hset : Adjusts p (Setting.said settings) g g') :
    ∃ j, AsSaid g' n (said ++ [((g.port p).label, settings)]) p x j := by
  obtain ⟨halone, j, hj, hvalues⟩ := hset i h.input h.alone
  refine ⟨j, ?_, hj, fun s => ?_, halone.settled j hj, halone.unshared⟩
  · rw [declared?, Graph.node, hg.nodes, hg.label_eq]
    exact h.declared
  · rw [hvalues, h.settings, hg.label_eq, Setting.last_append, Setting.last_singleton]
    cases s.said settings <;> rfl

end AsSaid

/-- A port that was added and that nothing was said about is as it was declared. -/
theorem asSaid_of_new (h : Sprouts g g') (hn : g'.Equipped n) (hp : p ∈ g'.portsOf n .input)
    (hnew : ¬g.ports.Has p) (hsaid : ∀ e ∈ said, e.1 ≠ (g'.port p).label) :
    ∃ x i, AsSaid g' n said p x i := by
  obtain ⟨y, hy, -, q, hrow⟩ := hn.listed hp
  rw [h.bare p hnew] at hrow
  cases y with
  | output y => cases Declarations.direction_of_port? hy
  | input x =>
    have hinput : (g'.port p).input? = some _ := congrArg Port.input? hrow
    have halone := h.alone p hnew
    refine ⟨x, _, hy, hinput, fun s => ?_, halone.settled _ hinput, halone.unshared⟩
    rw [Setting.last_eq_none hsaid]
    cases s <;> rfl

namespace Furnished

/-- Nothing of the node is changed. -/
theorem keep (h : Furnished g n asked said) (hnode : g'.node n = g.node n)
    (hmaps : ∀ d, ∀ f ∈ ((g.node n).registry d).maps, g'.portMap f.2 = g.portMap f.2)
    (hports : ∀ p ∈ g.portsOf n .input, g'.port p = g.port p ∧ g'.Alone p) :
    Furnished g' n asked said := by
  have hlist := portsOf_congr hnode (hmaps .input)
  refine ⟨fun d f hf => ?_, fun p hp => ?_, fun e he => ?_⟩
  · rw [hnode] at hf
    obtain ⟨m, hm, hkeys⟩ := h.maps d f hf
    refine ⟨m, ?_, ?_⟩
    · rw [portMap?, hnode]
      exact hm
    · rw [hmaps d _ (mem_of_lookup_eq_some hm)]
      exact hkeys
  · rw [hlist] at hp
    obtain ⟨x, i, hsaid⟩ := h.inputs p hp
    exact ⟨x, i, hsaid.keep hnode (hports p hp).1 (hports p hp).2 fun _ => rfl⟩
  · obtain ⟨p, hp, hlabel⟩ := mem_labelsOf.mp (h.listed e he)
    refine mem_labelsOf.mpr ⟨p, ?_, ?_⟩
    · rw [hlist]
      exact hp
    · rw [(hports p hp).1]
      exact hlabel

/-- Ports are added elsewhere. -/
theorem sprout (h : Furnished g n asked said) (hg : Sprouts g g') (hnode : g'.node n = g.node n)
    (hmaps : ∀ d, ∀ f ∈ ((g.node n).registry d).maps, g'.portMap f.2 = g.portMap f.2) :
    Furnished g' n asked said := by
  refine h.keep hnode hmaps fun p hp => ?_
  obtain ⟨x, i, hsaid⟩ := h.inputs p hp
  exact ⟨(hg.ports p hsaid.has).2, hsaid.alone.extended hsaid.has hg.toExtended hg.alone⟩

/-- A port of another node is set up. -/
theorem tuned (h : Furnished g n asked said) (hn : g.Equipped n) (hm : g.Equipped m) (hne : m ≠ n)
    {r : Ref .port} (hr : r ∈ g.portsOf m d) (hg : g.Tuned r g') : Furnished g' n asked said := by
  refine h.keep (by rw [Graph.node, hg.nodes]; rfl)
    (fun e f _ => by rw [Graph.portMap, hg.portMaps]; rfl) fun p hp => ?_
  have hpr : p ≠ r := by
    rintro rfl
    exact hne ((hm.node_of_mem hr).symm.trans (hn.node_of_mem hp))
  obtain ⟨x, i, hsaid⟩ := h.inputs p hp
  exact ⟨hg.others p hpr, hsaid.alone.tuned hg hpr.symm⟩

/-- A port that is there is named again. -/
theorem again (h : Furnished g n asked said) (hs : g.Sound) (hp : p ∈ g.portsOf n d)
    (hlabel : (g.port p).label = l) : Furnished g n (asked ++ [(d, l)]) said := by
  refine ⟨fun e f hf => ?_, h.inputs, h.listed⟩
  obtain ⟨m, hm, hkeys⟩ := h.maps e f hf
  refine ⟨m, hm, hkeys.trans ?_⟩
  by_cases hsame : d = e ∧ l.group = f.1
  · obtain ⟨rfl, hgroup⟩ := hsame
    rw [← hgroup, ← hlabel] at hm hkeys ⊢
    have hkey := hs.key_of_listed hp hm
    rw [hkeys] at hkey
    rw [keysOf_concat_self, if_pos hkey]
  · rw [keysOf_concat_of_ne hsame]

/-- The map of a port that was added has one more key, and the others have those they had. -/
theorem keys_of_added (hs : g.Sound) (hn : g.Equipped n) {k f : Ref .portMap}
    (ha : Added n d l k g g' p) {e : Direction} {group : String}
    (hf : g.portMap? n e group = some f)
    (hkeys : (g.portMap f).entries.map Prod.fst = keysOf asked e group) :
    (g'.portMap f).entries.map Prod.fst = keysOf (asked ++ [(d, l)]) e group := by
  by_cases hsame : d = e ∧ l.group = group
  · obtain ⟨rfl, rfl⟩ := hsame
    cases ha.map.symm.trans hf
    have hkey : l.name ∉ keysOf asked d l.group := by
      rw [← hkeys]
      intro hmem
      obtain ⟨a, ha', hname⟩ := List.mem_map.mp hmem
      exact ne_of_lookup_eq_none ha.absent a ha' hname
    rw [ha.portMap, PortMap.add, List.map_append, hkeys, keysOf_concat_self, if_neg hkey]
    rfl
  · have hmem := mem_of_lookup_eq_some hf
    have hfk : f ≠ k := by
      rintro rfl
      have hmem' := mem_of_lookup_eq_some ha.map
      refine hsame ⟨(hn.map_owner hn hmem hmem').2, ?_⟩
      exact ((hs.registry n d).map _ hmem').2.symm.trans ((hs.registry n e).map _ hmem).2
    rw [ha.others f hfk, hkeys, keysOf_concat_of_ne hsame]

/-- A port that was not there is named. -/
theorem add (h : Furnished g n asked said) (hs : g.Sound) (hn : g.Equipped n)
    (hr : Resolved n d l g g' p) {k : Ref .portMap} (ha : Added n d l k g g' p) :
    Furnished g' n (asked ++ [(d, l)]) said := by
  have hsprouts := hr.sprouts hs hn
  have hgrown := hr.grown hs hn
  have hn' := hgrown.grows.equipped n hn
  refine ⟨fun e f hf => ?_, fun r hp => ?_, fun e he => ?_⟩
  · rw [ha.nodes] at hf
    obtain ⟨m, hm, hkeys⟩ := h.maps e f hf
    refine ⟨m, ?_, keys_of_added hs hn ha hm hkeys⟩
    rw [portMap?, ha.nodes]
    exact hm
  · rcases ha.mem_portsOf hp with hold | rfl
    · obtain ⟨x, i, hsaid⟩ := h.inputs r hold
      have halone := hsaid.alone.extended hsaid.has hsprouts.toExtended hsprouts.alone
      exact ⟨x, i, hsaid.keep (ha.nodes n) (hsprouts.ports r hsaid.has).2 halone fun _ => rfl⟩
    · refine asSaid_of_new hsprouts hn' hp ha.fresh fun e he hlabel => ?_
      -- What is said concerns ports that were there, and no label is listed twice.
      have hnew := (hgrown.listed n .input hn r hp).resolve_left fun hold =>
        ha.fresh (hs.has_of_mem hold)
      exact hnew.1 (hlabel ▸ h.listed e he)
  · exact (hgrown.labels n .input e.1 hn).mpr (Or.inl (h.listed e he))

/-- One more port is named, on this node or on another one. -/
theorem resolve (h : Furnished g n asked said) (hs : g.Sound) (hn : g.Equipped n)
    (hm : g.Equipped m) (hr : Resolved m d l g g' p) :
    Furnished g' n (asked ++ if m = n then [(d, l)] else []) said := by
  rcases hr.found_or_added hs hm with ⟨rfl, hp, hlabel⟩ | ⟨k, ha⟩
  · split
    · next hmn =>
      subst hmn
      exact h.again hs hp hlabel
    · rw [List.append_nil]
      exact h
  · split
    · next hmn =>
      subst hmn
      exact h.add hs hm hr ha
    · next hmn =>
      rw [List.append_nil]
      refine h.sprout (hr.sprouts hs hm) (ha.nodes n) fun e f hf => ha.others f.2 ?_
      rintro rfl
      exact hmn (hn.map_owner hm hf (mem_of_lookup_eq_some ha.map)).1

/-- An input of the node is set up. -/
theorem setUp (h : Furnished g n asked said) (hs : g.Sound) (hp : p ∈ g.portsOf n .input)
    (hg : g.Tuned p g') {settings : Value} (hset : Adjusts p (Setting.said settings) g g') :
    Furnished g' n asked (said ++ [((g.port p).label, settings)]) := by
  have hnode : ∀ k, g'.node k = g.node k := fun k => by rw [Graph.node, hg.nodes]; rfl
  have hmap : ∀ k, g'.portMap k = g.portMap k := fun k => by rw [Graph.portMap, hg.portMaps]; rfl
  have hlist : g'.portsOf n .input = g.portsOf n .input :=
    portsOf_congr (hnode n) fun f _ => hmap f.2
  refine ⟨fun d f hf => ?_, fun r hr => ?_, fun e he => ?_⟩
  · rw [hnode] at hf
    obtain ⟨m, hm, hkeys⟩ := h.maps d f hf
    refine ⟨m, ?_, ?_⟩
    · rw [portMap?, hnode]
      exact hm
    · rw [hmap]
      exact hkeys
  · rw [hlist] at hr
    obtain ⟨x, i, hsaid⟩ := h.inputs r hr
    by_cases hrp : r = p
    · subst hrp
      obtain ⟨j, hdone⟩ := hsaid.setUp hg hset
      exact ⟨x, j, hdone⟩
    · refine ⟨x, i, hsaid.keep (hnode n) (hg.others r hrp) (hsaid.alone.tuned hg (Ne.symm hrp))
        fun s => ?_⟩
      have hlabel : (g.port p).label ≠ (g.port r).label := fun heq =>
        hrp (List.inj_on_of_nodup_map (hs.labels_nodup n .input) hr hp heq.symm)
      rw [Setting.last_append, Setting.last_eq_none (by simpa using hlabel)]
      rfl
  · have hlabels : g'.labelsOf n .input = g.labelsOf n .input := by
      rw [labelsOf, labelsOf, hlist]
      exact List.map_congr_left fun r _ => hg.label_eq r
    rw [hlabels]
    rcases List.mem_append.mp he with hold | hlast
    · exact h.listed e hold
    · rw [List.mem_singleton.mp hlast]
      exact mem_labelsOf.mpr ⟨p, hp, rfl⟩

/-- Another node is created. -/
theorem create_other (h : Furnished g n asked said) (hs : g.Sound) (hn : g.Equipped n)
    {q : Ref .pipeline} {kind : NodeKind} {given : Value} (hg : g.create q kind given = .ok (g', m)) :
    Furnished g' n asked said := by
  refine h.sprout (create_sprouts hs hg) ((create_grows hg).node n hn.has).2 fun d f hf => ?_
  exact (create_maps hg).1 f.2 ((hs.registry n d).map f hf).1

/-- A new node has the ports that were declared and its port maps have no keys. -/
theorem of_create (hs : g.Sound) {q : Ref .pipeline} {kind : NodeKind} {given : Value}
    (hg : g.create q kind given = .ok (g', n)) (hs' : g'.Sound) : Furnished g' n [] [] := by
  obtain ⟨hports, hmaps⟩ := create_new hg
  obtain ⟨hn, -⟩ := create_equipped hg
  have hempty : ∀ d, ∀ f ∈ ((g'.node n).registry d).maps, (g'.portMap f.2).entries = [] :=
    fun d f hf => ((create_maps hg).2 f.2).trans (entries_of_not_has (hmaps d f hf))
  refine ⟨fun d f hf => ?_, fun p hp => ?_, nofun⟩
  · obtain ⟨hlist, hd⟩ := Declarations.mem_maps_iff.mp hf
    obtain ⟨m, hm⟩ := hn.stocked.map f.1 f.2 hlist
    rw [hd] at hm
    refine ⟨m, lookup_eq_some_of_mem (hs'.registry n d).names hm, ?_⟩
    rw [hempty d _ hm]
    rfl
  · refine asSaid_of_new (create_sprouts hs hg) hn hp ?_ nofun
    rcases mem_portsOf.mp hp with ⟨e, he, rfl⟩ | ⟨f, hf, e, he, rfl⟩
    · exact hports .input e he
    · rw [hempty .input f hf] at he
      cases he

end Furnished

/-! ## Entries for inputs -/

/-- An entry names an input of the node and sets it up. -/
theorem buildInput_steps {entry : Value × Value} {u : Unit}
    (h : (buildInput n entry).run w = .ok u w') : ∃ l p g, namedInput entry =
      .ok (l, entry.2.orElse (.dict [])) ∧ Resolved n .input l w.graph g p ∧ g.Tuned p w'.graph ∧
      Adjusts p (Setting.said (entry.2.orElse (.dict []))) g w'.graph := by
  obtain ⟨l, _, hrequire, h⟩ := run_bind_ok.mp h
  obtain ⟨hlabel, rfl⟩ := run_require_ok.mp hrequire
  obtain ⟨p, w₁, hport, h⟩ := run_bind_ok.mp h
  exact ⟨l, p, w₁.graph, bind_eq_ok.mpr ⟨l, hlabel, rfl⟩, resolveInput_ok hport, applySettings_tuned h,
    applySettings_adjusts h⟩

theorem Furnished.entry (h : Furnished w.graph n asked said) (hs : w.graph.Sound)
    (hn : w.graph.Equipped n) {entry : Value × Value} {u : Unit}
    (hrun : (buildInput n entry).run w = .ok u w') : ∃ e, namedInput entry = .ok e ∧
      Furnished w'.graph n (asked ++ [(.input, e.1)]) (said ++ [e]) := by
  obtain ⟨l, p, g₁, hnamed, hresolved, htuned, hadjusts⟩ := buildInput_steps hrun
  have hone := h.resolve hs hn hn hresolved
  rw [if_pos rfl] at hone
  obtain ⟨hp, rfl⟩ := hresolved.mem hs hn.has
  exact ⟨_, hnamed, hone.setUp (hs.moves (hresolved.moves hs)) hp htuned hadjusts⟩

theorem Furnished.entry_other (h : Furnished w.graph n asked said) (hs : w.graph.Sound)
    (hn : w.graph.Equipped n) (hm : w.graph.Equipped m) (hne : m ≠ n) {entry : Value × Value}
    {u : Unit} (hrun : (buildInput m entry).run w = .ok u w') :
    Furnished w'.graph n asked said := by
  obtain ⟨l, p, g₁, -, hresolved, htuned, -⟩ := buildInput_steps hrun
  have hone := h.resolve hs hn hm hresolved
  rw [if_neg hne, List.append_nil] at hone
  exact hone.tuned (hresolved.grows.equipped n hn) (hresolved.grows.equipped m hm) hne
    (hresolved.mem hs hm.has).1 htuned

theorem Furnished.entries (h : Furnished w.graph n asked said) (hs : w.graph.Sound)
    (hn : w.graph.Equipped n) {inputs : Entries} {u : Unit}
    (hrun : (inputs.forM (buildInput n)).run w = .ok u w') :
    ∃ es, inputs.mapM namedInput = .ok es ∧
      Furnished w'.graph n (asked ++ es.map fun e => (.input, e.1)) (said ++ es) := by
  induction inputs generalizing w asked said with
  | nil =>
    obtain ⟨-, rfl⟩ := run_pure_ok.mp hrun
    refine ⟨[], rfl, ?_⟩
    rw [List.map_nil, List.append_nil, List.append_nil]
    exact h
  | cons entry inputs ih =>
    obtain ⟨_, w₁, hfirst, hrest⟩ := run_bind_ok.mp hrun
    obtain ⟨e, hnamed, hone⟩ := h.entry hs hn hfirst
    have hsettled := buildInput_settled hs hn hfirst
    obtain ⟨es, hall, hmany⟩ := ih hone (hs.moves hsettled.moves) (hsettled.grows.equipped n hn) hrest
    refine ⟨e :: es, ?_, ?_⟩
    · rw [List.mapM_cons, hnamed, hall]
      rfl
    · rw [List.append_assoc, List.append_assoc] at hmany
      exact hmany

theorem Furnished.entries_other (h : Furnished w.graph n asked said) (hs : w.graph.Sound)
    (hn : w.graph.Equipped n) (hm : w.graph.Equipped m) (hne : m ≠ n) {inputs : Entries} {u : Unit}
    (hrun : (inputs.forM (buildInput m)).run w = .ok u w') :
    Furnished w'.graph n asked said := by
  induction inputs generalizing w with
  | nil =>
    obtain ⟨-, rfl⟩ := run_pure_ok.mp hrun
    exact h
  | cons entry inputs ih =>
    obtain ⟨_, w₁, hfirst, hrest⟩ := run_bind_ok.mp hrun
    have hone := h.entry_other hs hn hm hne hfirst
    have hsettled := buildInput_settled hs hm hfirst
    exact ih hone (hs.moves hsettled.moves) (hsettled.grows.equipped n hn)
      (hsettled.grows.equipped m hm) hrest

/-! ## Nodes and connections -/

/-- The ports of all nodes are as they are described. -/
def AllFurnished (g : Graph) (b : Built) (entries : Entries)
    (ends : List (EndpointSpec × EndpointSpec)) : Prop :=
  ∀ i entry, entries[i]? = some entry → ∃ n said, b.nodes[i]? = some (entry.1, n) ∧
    saidInputs entry = .ok said ∧ Furnished g n (askedAt entries i said ends) said

section Steps

variable {types : NodeTypes} {name : Value} {entries : Entries} {b b' : Built}
  {cs : List Connection} {ends : List (EndpointSpec × EndpointSpec)}

theorem AllFurnished.node (h : AllFurnished w.graph b entries [])
    (hb : Building types name entries w.graph b []) {entry : Value × Value}
    (hrun : (buildNode types b entry).run w = .ok b' w') :
    AllFurnished w'.graph b' (entries ++ [entry]) [] := by
  obtain ⟨kind, given, n, w₁, inputs, inputEntries, hkind, -, hcreate, hinputs, hinputEntries, hall,
    rfl⟩ := buildNode_run_iff.mp hrun
  have hdone := create_ok hcreate
  have hcreated := create_created hb.has hdone
  have hs' := (hb.create hdone hkind).sound
  have hlength := hb.length_eq
  intro i e he
  rw [List.getElem?_append] at he
  split at he
  · next hi =>
    obtain ⟨m, said, hm, hsaid, hfurnished⟩ := h i e he
    obtain ⟨hhoused, -, -⟩ := hb.node_at hm
    have hne : n ≠ m := by
      rintro rfl
      obtain ⟨_, _, -, rfl, -, -⟩ := create_eq_ok.mp hdone
      exact absurd hhoused.equipped.has (Nat.lt_irrefl _)
    refine ⟨m, said, ?_, hsaid, ?_⟩
    · rw [List.getElem?_append_left (by rw [hlength]; exact hi)]
      exact hm
    · have hstill := hfurnished.create_other hb.sound hhoused.equipped hdone
      exact hstill.entries_other hs' (hcreated.grows.equipped m hhoused.equipped)
        hcreated.equipped hne hall
  · next hi =>
    have hlast : i = entries.length := by
      obtain ⟨hlt, -⟩ := List.getElem?_eq_some_iff.mp he
      have : i - entries.length < 1 := hlt
      omega
    subst hlast
    rw [Nat.sub_self] at he
    cases he
    have hnew := Furnished.of_create hb.sound hdone hs'
    obtain ⟨said, hsaid, hfurnished⟩ := hnew.entries hs' hcreated.equipped hall
    refine ⟨n, said, ?_, ?_, ?_⟩
    · rw [← hlength, List.getElem?_concat_length]
    · exact bind_eq_ok.mpr ⟨inputs, hinputs, bind_eq_ok.mpr ⟨inputEntries, hinputEntries, hsaid⟩⟩
    · rw [askedAt, List.flatMap_nil, List.append_nil]
      exact hfurnished

theorem AllFurnished.nodes {before : Entries} (h : AllFurnished w.graph b before [])
    (hb : Building types name before w.graph b [])
    (hrun : (entries.foldlM (buildNode types) b).run w = .ok b' w') :
    AllFurnished w'.graph b' (before ++ entries) [] := by
  induction entries generalizing w before b with
  | nil =>
    obtain ⟨rfl, rfl⟩ := run_pure_ok.mp hrun
    rw [List.append_nil]
    exact h
  | cons entry entries ih =>
    rw [List.foldlM_cons] at hrun
    obtain ⟨b₁, w₁, hfirst, hrest⟩ := run_bind_ok.mp hrun
    have hall := ih (h.node hb hfirst) (buildNode_ok hb hfirst).2 hrest
    rw [List.append_assoc] at hall
    exact hall

theorem AllFurnished.connection (h : AllFurnished w.graph b entries ends)
    (hb : Building types name entries w.graph b cs) {item : Value} {u : Unit}
    (hrun : (buildConnection b item).run w = .ok u w') : ∃ e, endpoints item = .ok e ∧
      Sprouts w.graph w'.graph ∧ AllFurnished w'.graph b entries (ends ++ [e]) := by
  obtain ⟨e, n, m, o, p, w₁, w₂, hends, hn, hm, ho, hp, hrun⟩ := buildConnection_run_iff.mp hrun
  obtain ⟨-, -, hhoused⟩ := hb.node_position hn
  obtain ⟨-, -, hhoused'⟩ := hb.node_position hm
  have hout := resolveOutput_ok ho
  have hin := resolveInput_ok hp
  have hs := hb.sound
  have hs₁ := hs.moves (hout.moves hs)
  have hm₁ := hout.grows.equipped m hhoused'.equipped
  obtain ⟨q, c, -, hc⟩ := linkOutput_ok hrun
  have hlinked := connect_sprouts hc
  refine ⟨e, hends, ((hout.sprouts hs hhoused.equipped).trans (hin.sprouts hs₁ hm₁)).trans hlinked,
    fun i entry hentry => ?_⟩
  obtain ⟨k, said, hk, hsaid, hfurnished⟩ := h i entry hentry
  obtain ⟨hhousedk, -, -⟩ := hb.node_at hk
  have hequipped := hhousedk.equipped
  have hfirst := hfurnished.resolve hs hequipped hhoused.equipped hout
  have hsecond := hfirst.resolve hs₁ (hout.grows.equipped k hequipped) hm₁ hin
  simp only [hb.eq_iff_position hn hk, hb.eq_iff_position hm hk] at hsecond
  refine ⟨k, said, hk, hsaid, ?_⟩
  have hasked : askedAt entries i said (ends ++ [e]) =
      askedAt entries i said ends ++ endsAt entries i e := by
    rw [askedAt, List.flatMap_append, List.flatMap_singleton, ← List.append_assoc, askedAt]
  rw [hasked, endsAt, ← List.append_assoc]
  obtain ⟨-, -, -, -, -, -, hg⟩ := connect_eq_ok.mp hc
  exact hsecond.sprout hlinked (by rw [hg]; rfl) fun d f _ => by rw [hg]; rfl

theorem AllFurnished.connections (h : AllFurnished w.graph b entries ends)
    (hb : Building types name entries w.graph b cs) {items : List Value} {u : Unit}
    (hrun : (items.forM (buildConnection b)).run w = .ok u w') :
    ∃ es, items.mapM endpoints = .ok es ∧ Sprouts w.graph w'.graph ∧
      AllFurnished w'.graph b entries (ends ++ es) := by
  induction items generalizing w cs ends with
  | nil =>
    obtain ⟨-, rfl⟩ := run_pure_ok.mp hrun
    refine ⟨[], rfl, .refl _, ?_⟩
    rw [List.append_nil]
    exact h
  | cons item items ih =>
    obtain ⟨_, w₁, hfirst, hrest⟩ := run_bind_ok.mp hrun
    obtain ⟨e, hends, hone, hnext⟩ := h.connection hb hfirst
    obtain ⟨_, hlinked⟩ := buildConnection_ok hb hfirst
    obtain ⟨es, hread, hmany, hall⟩ := ih hnext hlinked.building hrest
    refine ⟨e :: es, ?_, hone.trans hmany, ?_⟩
    · rw [List.mapM_cons, hends, hread]
      rfl
    · rw [List.append_assoc] at hall
      exact hall

end Steps

/-! ## The pipeline -/

/-- The nodes of the description were made and their inputs set up, and no connections yet. -/
def MadeNodes (types : NodeTypes) (description : Value) (w : Workspace) (b : Built)
    (made : Workspace) : Prop :=
  ∃ name entries p w₁, pipelineName description = .ok name ∧ nodeEntries description = .ok entries ∧
    (newPipeline name).run w = .ok p w₁ ∧
    (entries.foldlM (buildNode (if types = [] then defaultNodeTypes else types))
      { pipeline := p }).run w₁ = .ok b made

/-- In a pipeline that is built from a description, the port maps of all nodes have the keys that the
description names, in the order in which they are first named: by the inputs of the node itself, and then
by the ends of the connections. All inputs, those of port maps and the others, have the settings that the
entries of their node say last, each setting for itself, and otherwise those that were declared, and their
queues are set up like this. Making the connections leaves the ports that are there as they are, with
their queues. -/
theorem build_furnished {h : History} (hrun : Graph.Run w.graph h) {types : NodeTypes}
    {description : Value} {b : Built} (hbuild : (build types description).run w = .ok b w') :
    ∃ entries items ends made, nodeEntries description = .ok entries ∧
      connectionItems description = .ok items ∧ items.mapM endpoints = .ok ends ∧
      AllFurnished w'.graph b entries ends ∧ MadeNodes types description w b made ∧
      ∀ p, made.graph.ports.Has p → Leaves p made.graph w'.graph := by
  obtain ⟨name, entries, items, p, w₁, w₂, w₃, text, hname, hentries, hitems, hnew, hmake, hlink, -,
    rfl⟩ := build_run_iff.mp hbuild
  have hstart := newPipeline_building (if types = [] then defaultNodeTypes else types) hrun.placed
    (newPipeline_ok hnew)
  obtain ⟨-, hmade⟩ := buildNodes_ok hstart hmake
  have hnone : AllFurnished w₁.graph { pipeline := p } [] [] := nofun
  have hnodes := hnone.nodes hstart hmake
  obtain ⟨ends, hends, hsprouts, hall⟩ := hnodes.connections hmade hlink
  exact ⟨entries, items, ends, w₂, hentries, hitems, hends, hall,
    ⟨name, entries, p, w₁, hname, hentries, hnew, hmake⟩,
    fun r hr => hsprouts.leaves hr (hmade.sound.input r hr)⟩

/-- A node with two entries for one input, which is named by two texts. -/
def syncNode : Value × Value :=
  (.text "sync", .dict [(.text "type", .text "FrameSyncNode"),
    (.text "inputs", .dict [
      (.text "inputs[left]", .dict [(.text "queue_size", .int 3), (.text "blocking", .bool true)]),
      (.text "inputs['left']", .dict [(.text "queue_size", .int 5),
        (.text "wait_for_message", .bool true), (.text "reuse_previous_message", .bool true)])])])

/-- Another input is named first, and then the same one. -/
def syncFeeds : List Value :=
  [.dict [(.text "from", .text "camera.raw"), (.text "to", .text "sync.inputs[right]")],
    .dict [(.text "from", .text "camera.raw"), (.text "to", .text "sync.inputs[left]")]]

def namedTwice : Value :=
  .dict [(.text "pipeline", .dict [
    (.text "nodes", .dict [
      (.text "camera", .dict [(.text "type", .text "RawInputNode")]), syncNode]),
    (.text "connections", .list syncFeeds)])]

/-- The keys of the port map are in the order of the inputs and then of the connections, and for each
setting of the input what was said last counts. -/
theorem namedTwice_furnished : ∃ b w', (build [] namedTwice).run {} = .ok b w' ∧
    ∃ entries ends said n, nodeEntries namedTwice = .ok entries ∧
      b.nodes[1]? = some (.text "sync", n) ∧
      Furnished w'.graph n (askedAt entries 1 said ends) said ∧
      keysOf (askedAt entries 1 said ends) .input "inputs" = ["left", "right"] ∧
      (Setting.blocking.last said ⟨"inputs", "left"⟩).any (·.equal (.bool true)) = true ∧
      (Setting.queueSize.last said ⟨"inputs", "left"⟩).any (·.equal (.int 5)) = true ∧
      (Setting.wait.last said ⟨"inputs", "left"⟩).any (·.equal (.bool false)) = true := by
  obtain ⟨b, w', hbuild⟩ : ∃ b w', (build [] namedTwice).run {} = .ok b w' :=
    exists_run_ok (by decide +kernel)
  obtain ⟨entries, items, ends, made, hentries, hitems, hends, hall, -, -⟩ :=
    build_furnished Graph.Run.start hbuild
  have hread : nodeEntries namedTwice =
      .ok [(.text "camera", .dict [(.text "type", .text "RawInputNode")]), syncNode] := rfl
  have hreadItems : connectionItems namedTwice = .ok syncFeeds := rfl
  cases hread.symm.trans hentries
  cases hreadItems.symm.trans hitems
  obtain ⟨n, said, hn, hsaid, hfurnished⟩ := hall 1 syncNode rfl
  refine ⟨b, w', hbuild, _, ends, said, n, hentries, hn, hfurnished, ?_⟩
  have hkeys : ((saidInputs syncNode).toOption.bind fun said =>
      (syncFeeds.mapM endpoints).toOption.map fun ends =>
        keysOf (askedAt [(.text "camera", .dict [(.text "type", .text "RawInputNode")]), syncNode] 1
          said ends) .input "inputs") = some ["left", "right"] := by decide +kernel
  have hlast : (saidInputs syncNode).toOption.map (fun said =>
      (Setting.blocking.last said ⟨"inputs", "left"⟩).any (·.equal (.bool true)) &&
        (Setting.queueSize.last said ⟨"inputs", "left"⟩).any (·.equal (.int 5)) &&
          (Setting.wait.last said ⟨"inputs", "left"⟩).any (·.equal (.bool false))) = some true := by
    decide +kernel
  rw [hsaid] at hkeys hlast
  rw [hends] at hkeys
  have hall := Option.some.inj hlast
  rw [Bool.and_eq_true, Bool.and_eq_true, and_assoc] at hall
  exact ⟨Option.some.inj hkeys, hall⟩

end FrameGraph.Description
