import FrameGraph.Proofs.Graph.Equipment

/-!
# Ports that are asked for

On nodes with the ports of their kinds a label is found exactly if the kind declares it. A static
port is there, and a map makes the port of a key that was not asked for before, as its declaration
says and with nothing set up. So which ports there are in the end, and how they are set up, depends
on what was asked for and not on when.

* `Resolved`: the port of a node that a label names is found, or made by one of its maps.
* `Equipped.resolve`, `Resolved.declared`: this succeeds exactly for declared labels.
* `connect_iff_of_declared`: when two declared ports can be linked.
* `Grown`: the ports that labels in a list add, `Grown.ports_perm`: up to order.
-/

namespace FrameGraph

/-- The port without its queue, which only tells it from other ports with the same settings. -/
def Port.unqueued (p : Port) : Port := p.updateInput fun i => { i with queue := ⟨0⟩ }

@[simp] theorem Port.unqueued_label (p : Port) : p.unqueued.label = p.label := p.updateInput_label _

@[simp] theorem Port.unqueued_kindName (p : Port) : p.unqueued.kindName = p.kindName := by
  obtain ⟨_, _, _, role⟩ := p
  cases role <;> rfl

theorem Port.unqueued_input? (p : Port) :
    p.unqueued.input? = p.input?.map fun i => { i with queue := ⟨0⟩ } := p.updateInput_input? _

theorem PortDeclaration.row_unqueued (x : PortDeclaration) (n : Ref .node) (l : PortLabel)
    (q q' : Ref .queue) : (x.row n l q).unqueued = (x.row n l q').unqueued := by
  cases x <;> rfl

/-- A port of a node that was asked for. -/
structure Request where
  node : Ref .node
  direction : Direction
  label : PortLabel

namespace Graph

variable {g g' g'' : Graph} {n : Ref .node} {d : Direction} {l : PortLabel} {p : Ref .port}

/-! ## Ports that labels name -/

/-- The port of a node that a label names: in the map that the group names it is made if need be, and
without a group it is found among all ports. -/
def Resolved (n : Ref .node) (d : Direction) (l : PortLabel) (g g' : Graph) (p : Ref .port) : Prop :=
  (∃ m, g.portMap? n d l.group = some m ∧ g.getOrCreate m l.name = .ok (g', p)) ∨
    (g.port? n d l = some p ∧ g' = g)

namespace Resolved

theorem moves (h : Resolved n d l g g' p) (hs : g.Sound) : g.Moves g' := by
  rcases h with ⟨m, hm, hcreate⟩ | ⟨-, rfl⟩
  · have hhas := ((hs.registry n d).map _ (mem_of_lookup_eq_some hm)).1
    exact getOrCreate_moves hhas hcreate
  · exact .refl

theorem grows (h : Resolved n d l g g' p) : g.Grows g' := by
  rcases h with ⟨m, -, hcreate⟩ | ⟨-, rfl⟩
  · exact getOrCreate_grows hcreate
  · exact .refl _

theorem pipelines (h : Resolved n d l g g' p) : g'.pipelines = g.pipelines := by
  rcases h with ⟨m, -, hcreate⟩ | ⟨-, rfl⟩
  · rcases getOrCreate_cases hcreate with ⟨-, rfl⟩ | ⟨-, g₁, -, hmade, rfl⟩
    · rfl
    · exact hmade.pipelines
  · rfl

theorem mem (h : Resolved n d l g g' p) (hs : g.Sound) (hn : g.nodes.Has n) :
    p ∈ g'.portsOf n d ∧ (g'.port p).label = l := by
  have hmoves := h.moves hs
  have hrow := (h.grows.node n hn).2
  rcases h with ⟨m, hm, hcreate⟩ | ⟨hport, rfl⟩
  · have hf := mem_of_lookup_eq_some hm
    have hs' := hs.moves hmoves
    have hf' : (l.group, m) ∈ ((g'.node n).registry d).maps := by
      rw [hrow]
      exact hf
    have hname : (g'.portMap m).name = l.group := ((hs'.registry n d).map _ hf').2
    have hentry : (l.name, p) ∈ (g'.portMap m).entries := by
      rcases getOrCreate_cases hcreate with ⟨hkey, rfl⟩ | ⟨-, g₁, -, hmade, rfl⟩
      · exact mem_of_lookup_eq_some hkey
      · have hhas := ((hs.registry n d).map _ hf).1
        rw [portMap, hmade.portMaps, Table.get_modify_self _ _ hhas]
        exact List.mem_append_right _ List.mem_cons_self
    have hlabel := ((hs'.portMap m).entry _ hentry).2
    rw [hname] at hlabel
    exact ⟨mem_portsOf.mpr (Or.inr ⟨_, hf', _, hentry, rfl⟩), hlabel⟩
  · exact hs.port?_eq_some_iff.mp hport

/-- Only what is declared is found, and it is as it is declared. -/
theorem declared (h : Resolved n d l g g' p) (hs : g.Sound) (hn : g.Equipped n) :
    ∃ x, g.declared? n d l = some x ∧ g'.AsDeclared n x l p := by
  obtain ⟨hp, hlabel⟩ := h.mem hs hn.has
  obtain ⟨x, hx, hport⟩ := (h.grows.equipped n hn).listed hp
  rw [hlabel, declared?, (h.grows.node n hn.has).2] at hx
  rw [hlabel] at hport
  exact ⟨x, hx, hport⟩

end Resolved

/-- What is declared is found, by the group of its label in a map and without a group among all
ports. -/
theorem Equipped.resolve (hn : g.Equipped n) (hs : g.Sound) {x : PortDeclaration}
    (hx : g.declared? n d l = some x) :
    (l.group ≠ "" ∧ ∃ m, g.portMap? n d l.group = some m ∧ ∃ r, g.getOrCreate m l.name = .ok r) ∨
      (l.group = "" ∧ ∃ p, g.port? n d ⟨"", l.name⟩ = some p) := by
  by_cases hgroup : l.group = ""
  · obtain ⟨p, hp, hlabel⟩ := hn.static_mem hx hgroup
    refine Or.inr ⟨hgroup, p, ?_⟩
    rw [← hgroup]
    exact hs.port?_eq_some_iff.mpr ⟨hp, hlabel⟩
  · obtain ⟨m, hm, hmap⟩ := hn.map_registered hs hx hgroup
    obtain ⟨g', p, hcreate, -⟩ := hmap.getOrCreate hn.alive l.name
    exact Or.inl ⟨hgroup, m, hm, _, hcreate⟩

/-! ## Declared ports that are linked -/

/-- A node in a pipeline that is held, with the ports of its kind. -/
structure Housed (g : Graph) (p : Ref .pipeline) (n : Ref .node) : Prop where
  equipped : g.Equipped n
  home : (g.node n).pipeline = p
  alive : (g.pipeline p).alive = true
  member : g.isMember p n = true

section Housed

variable {p : Ref .pipeline} {n m : Ref .node} {l k : PortLabel} {x y : PortDeclaration}
  {o i : Ref .port}

theorem Housed.pipelineOf? (h : g.Housed p n) (hx : g.AsDeclared n x l o) :
    g.pipelineOf? o = some p := by
  rw [pipelineOf?_eq_some_iff, hx.node]
  exact ⟨h.equipped.alive, h.home, h.alive⟩

theorem Housed.owner (h : g.Housed p n) (hx : g.AsDeclared n x l o) : g.owner o = .ok n := by
  have hnode := hx.node
  rw [owner_of_alive (by rw [hnode]; exact h.equipped.alive), hnode]

theorem Housed.checkRegistered (h : g.Housed p n) (hs : g.Sound) (hx : g.AsDeclared n x l o)
    (ho : o ∈ g.portsOf n x.direction) : g.checkRegistered p o = .ok () := by
  rw [checkRegistered_eq_ok, hx.node, hx.direction]
  exact ⟨h.member, hs.port?_of_mem ho⟩

/-- Ports of one pipeline feed each other whatever was set up, if they have a type of message in
common. -/
theorem canConnect_of_declared (hn : g.Housed p n) (hm : g.Housed p m) (ho : g.AsDeclared n x l o)
    (hi : g.AsDeclared m y k i) (hx : x.direction = .output) (hy : y.direction = .input) :
    g.canConnect o i = compatible x.accepts y.accepts := by
  have hsame : g.samePipeline o i = true := by
    rw [samePipeline, hn.pipelineOf? ho, hm.pipelineOf? hi]
    exact decide_eq_true rfl
  have hbare : ∀ a b : Port, kindsMatch a.bare b.bare = kindsMatch a b := by
    rintro ⟨_, _, _, role⟩ ⟨_, _, _, role'⟩
    cases role <;> cases role' <;> rfl
  have hkinds : kindsMatch (g.port o) (g.port i) = true := by
    obtain ⟨-, q, horow⟩ := ho
    obtain ⟨-, r, hirow⟩ := hi
    rw [← hbare, horow, hirow]
    cases x with
    | input d => cases hx
    | output d =>
      cases y with
      | input e => rfl
      | output e => cases hy
  rw [canConnect, hsame, hkinds, ho.accepts, hi.accepts, Bool.true_and, Bool.true_and]

/-- Two declared ports of one pipeline can be linked if they have a type of message in common and
the connection is not there yet. -/
theorem connect_iff_of_declared (hs : g.Sound) (hn : g.Housed p n) (hm : g.Housed p m)
    (hx : g.AsDeclared n x l o) (hy : g.AsDeclared m y k i) (hxd : x.direction = .output)
    (hyd : y.direction = .input) (ho : o ∈ g.portsOf n .output) (hi : i ∈ g.portsOf m .input) :
    (∃ r, g.connect p o i = .ok r) ↔ compatible x.accepts y.accepts = true ∧
      ⟨(g.node n).id, l, (g.node m).id, k⟩ ∉ (g.pipeline p).connections := by
  have hcan := canConnect_of_declared hn hm hx hy hxd hyd
  have hc : g.connectionOf o i = .ok ⟨(g.node n).id, l, (g.node m).id, k⟩ := by
    rw [connectionOf, hn.owner hx, hm.owner hy, hx.label, hy.label]
    rfl
  constructor
  · rintro ⟨⟨g', c⟩, hconnect⟩
    obtain ⟨-, hcompatible, hrecord, -, -, hnew, -⟩ := connect_eq_ok.mp hconnect
    cases hc.symm.trans hrecord
    rw [hcan] at hcompatible
    exact ⟨hcompatible, hnew⟩
  · rintro ⟨hcompatible, hnew⟩
    refine ⟨_, connect_eq_ok.mpr ⟨hn.pipelineOf? hx, hcan.trans hcompatible, hc, ?_, ?_, hnew, rfl⟩⟩
    · exact hn.checkRegistered hs hx (hxd ▸ ho)
    · exact hm.checkRegistered hs hy (hyd ▸ hi)

end Housed

/-! ## Ports that were added -/

/-- The labels of the ports that are listed on a node. -/
def labelsOf (g : Graph) (n : Ref .node) (d : Direction) : List PortLabel :=
  (g.portsOf n d).map fun p => (g.port p).label

theorem mem_labelsOf : l ∈ g.labelsOf n d ↔ ∃ p ∈ g.portsOf n d, (g.port p).label = l := List.mem_map

/-- No two nodes, and no two directions of a node, have a map in common. -/
theorem Equipped.map_owner {m : Ref .node} {e : Direction} (hn : g.Equipped n) (hm : g.Equipped m)
    {f : String × Ref .portMap} (hf : f ∈ ((g.node n).registry d).maps) {name : String}
    (hf' : (name, f.2) ∈ ((g.node m).registry e).maps) : m = n ∧ e = d := by
  obtain ⟨x, -, hd, hx⟩ := hn.stocked.maps d f hf
  obtain ⟨y, -, he, hy⟩ := hm.stocked.maps e _ hf'
  obtain ⟨-, q, hrow⟩ := hx.template
  obtain ⟨-, r, hrow'⟩ := hy.template
  have hsame := hrow'.symm.trans hrow
  have hnode := congrArg Port.node hsame
  have hdirection := congrArg Port.direction hsame
  rw [PortDeclaration.row_node, PortDeclaration.row_node] at hnode
  rw [PortDeclaration.row_direction, PortDeclaration.row_direction, he, hd] at hdirection
  exact ⟨hnode, hdirection⟩

/-- The ports with the labels of a list were asked for. Those that were not there before are as they
were declared, and nothing else has changed on nodes with the ports of their kinds. -/
structure Grown (g g' : Graph) (asked : List Request) : Prop where
  grows : g.Grows g'
  row : ∀ p, g.ports.Has p → g'.ports.Has p ∧ g'.port p = g.port p
  labels : ∀ n d l, g.Equipped n →
    (l ∈ g'.labelsOf n d ↔ l ∈ g.labelsOf n d ∨ ⟨n, d, l⟩ ∈ asked)
  listed : ∀ n d, g.Equipped n → ∀ p ∈ g'.portsOf n d, p ∈ g.portsOf n d ∨
    ((g'.port p).label ∉ g.labelsOf n d ∧ ∃ x q, g.declared? n d (g'.port p).label = some x ∧
      g'.port p = x.row n (g'.port p).label q)

namespace Grown

variable {asked asked' : List Request}

theorem refl (g : Graph) : g.Grown g [] :=
  ⟨.refl g, fun _ hp => ⟨hp, rfl⟩, fun _ _ _ _ => ⟨Or.inl, fun h => h.elim id nofun⟩,
    fun _ _ _ _ hq => Or.inl hq⟩

theorem trans (h : g.Grown g' asked) (h' : g'.Grown g'' asked') : g.Grown g'' (asked ++ asked') where
  grows := h.grows.trans h'.grows
  row p hp := by
    obtain ⟨hp', hrow⟩ := h.row p hp
    obtain ⟨hp'', hrow'⟩ := h'.row p hp'
    exact ⟨hp'', hrow'.trans hrow⟩
  labels n d l hn := by
    rw [h'.labels n d l (h.grows.equipped n hn), h.labels n d l hn, List.mem_append, or_assoc]
  listed n d hn p hp := by
    have hn' := h.grows.equipped n hn
    rcases h'.listed n d hn' p hp with hmid | ⟨hnew, x, q, hx, hrow⟩
    · obtain ⟨-, hsame⟩ := h'.row p ((hn'.listed hmid).choose_spec.2).1
      rw [hsame]
      exact h.listed n d hn p hmid
    · refine Or.inr ⟨fun hold => hnew ((h.labels n d _ hn).mpr (Or.inl hold)), x, q, ?_, hrow⟩
      rwa [declared?, (h.grows.node n hn.has).2] at hx

/-- The port was there. -/
theorem of_mem (hp : p ∈ g.portsOf n d) (hlabel : (g.port p).label = l) : g.Grown g [⟨n, d, l⟩] where
  grows := .refl g
  row p hp := ⟨hp, rfl⟩
  labels m e k _ := by
    refine ⟨Or.inl, fun h => h.elim id fun hk => ?_⟩
    cases List.mem_singleton.mp hk
    exact mem_labelsOf.mpr ⟨p, hp, hlabel⟩
  listed _ _ _ _ hq := Or.inl hq

end Grown

/-- Linking asks for nothing. -/
theorem connect_grown {p : Ref .pipeline} {o i : Ref .port} {c : Connection}
    (h : g.connect p o i = .ok (g', c)) : g.Grown g' [] := by
  obtain ⟨-, -, -, -, -, -, rfl⟩ := connect_eq_ok.mp h
  exact ⟨modifyPipeline_grows g p _, fun _ hp => ⟨hp, rfl⟩,
    fun _ _ _ _ => ⟨Or.inl, fun h => h.elim id nofun⟩, fun _ _ _ _ hq => Or.inl hq⟩

/-- A map lists one more port on its node and nowhere else. -/
theorem mem_portsOf_add (hn : g.Equipped n) {f : String × Ref .portMap}
    (hf : f ∈ ((g.node n).registry d).maps) (hhas : g.portMaps.Has f.2)
    (hnodes : ∀ m, g'.node m = g.node m) {key : String}
    (hmap : ∀ m, g'.portMap m =
      if m = f.2 ∧ g.portMaps.Has f.2 then (g.portMap m).add key p else g.portMap m)
    {m : Ref .node} (hm : g.Equipped m) {e : Direction} {q : Ref .port} :
    q ∈ g'.portsOf m e ↔ q ∈ g.portsOf m e ∨ (m = n ∧ e = d ∧ q = p) := by
  have hentries : ∀ k a, a ∈ (g'.portMap k).entries ↔
      a ∈ (g.portMap k).entries ∨ (k = f.2 ∧ a = (key, p)) := by
    intro k a
    rw [hmap]
    by_cases hk : k = f.2
    · rw [if_pos ⟨hk, hhas⟩]
      simp [PortMap.add, hk]
    · rw [if_neg fun hc => hk hc.1]
      simp [hk]
  rw [mem_portsOf, mem_portsOf, hnodes, or_assoc]
  refine or_congr_right ⟨?_, ?_⟩
  · rintro ⟨f', hf', a, ha, rfl⟩
    rcases (hentries _ _).mp ha with hold | ⟨hsame, rfl⟩
    · exact Or.inl ⟨f', hf', a, hold, rfl⟩
    · obtain ⟨name, m'⟩ := f'
      obtain rfl : m' = f.2 := hsame
      obtain ⟨rfl, rfl⟩ := hn.map_owner hm hf hf'
      exact Or.inr ⟨rfl, rfl, rfl⟩
  · rintro (⟨f', hf', a, ha, rfl⟩ | ⟨rfl, rfl, rfl⟩)
    · exact ⟨f', hf', a, (hentries _ _).mpr (Or.inl ha), rfl⟩
    · exact ⟨f, hf, _, (hentries _ _).mpr (Or.inr ⟨rfl, rfl⟩), rfl⟩

/-- A key was asked for that the map did not have. -/
theorem Grown.of_made (hs : g.Sound) (hs' : g'.Sound) (hgrows : g.Grows g') (hn : g.Equipped n)
    {f : String × Ref .portMap} (hf : f ∈ ((g.node n).registry d).maps)
    (hp : p ∈ g'.portsOf n d) (hlabel : (g'.port p).label = l) {x : PortDeclaration}
    (hx : g.declared? n d l = some x) {g₁ : Graph} {q : Ref .queue} (hmade : g.Made n l (g₁, p))
    (hrow : g₁.port p = x.row n l q) {key : String}
    (hg' : g' = { g₁ with portMaps := g₁.portMaps.modify f.2 fun m => m.add key p }) :
    g.Grown g' [⟨n, d, l⟩] := by
  have hnodes : ∀ m, g'.node m = g.node m := fun m => by
    rw [hg', Graph.node, hmade.nodes]
    rfl
  have hmaps : ∀ m, g'.portMap m =
      if m = f.2 ∧ g.portMaps.Has f.2 then (g.portMap m).add key p else g.portMap m := fun m => by
    rw [hg', Graph.portMap, hmade.portMaps]
    exact Table.get_modify _ _ _ _
  have hold : ∀ r, g.ports.Has r → g'.ports.Has r ∧ g'.port r = g.port r := fun r hr => by
    rw [hg']
    exact ⟨(hmade.moves.kept.ports r hr).1, hmade.others r hr⟩
  have hmem : ∀ {m e r}, g.Equipped m →
      (r ∈ g'.portsOf m e ↔ r ∈ g.portsOf m e ∨ (m = n ∧ e = d ∧ r = p)) := fun hm =>
    mem_portsOf_add hn hf ((hs.registry n d).map f hf).1 hnodes hmaps hm
  have hsame : ∀ {m e r}, r ∈ g.portsOf m e → g'.port r = g.port r := fun hr =>
    (hold _ (hs.has_of_mem hr)).2
  -- Labels are not listed twice, and the new port was not there before.
  have hnew : l ∉ g.labelsOf n d := by
    intro hl
    obtain ⟨r, hr, hrlabel⟩ := mem_labelsOf.mp hl
    have hrp : r = p := by
      refine List.inj_on_of_nodup_map (hs'.labels_nodup n d) ((hmem hn).mpr (Or.inl hr)) hp ?_
      rw [hsame hr, hrlabel, hlabel]
    exact hmade.fresh (hrp ▸ hs.has_of_mem hr)
  refine ⟨hgrows, hold, fun m e k hm => ?_, fun m e hm r hr => ?_⟩
  · rw [mem_labelsOf, mem_labelsOf]
    constructor
    · rintro ⟨r, hr, rfl⟩
      rcases (hmem hm).mp hr with hbefore | ⟨rfl, rfl, rfl⟩
      · exact Or.inl ⟨r, hbefore, by rw [hsame hbefore]⟩
      · rw [hlabel]
        exact Or.inr List.mem_cons_self
    · rintro (⟨r, hr, rfl⟩ | hk)
      · exact ⟨r, (hmem hm).mpr (Or.inl hr), by rw [hsame hr]⟩
      · cases List.mem_singleton.mp hk
        exact ⟨p, hp, hlabel⟩
  · rcases (hmem hm).mp hr with hbefore | ⟨rfl, rfl, rfl⟩
    · exact Or.inl hbefore
    · rw [hlabel]
      refine Or.inr ⟨hnew, x, q, hx, ?_⟩
      rw [hg']
      exact hrow

theorem Resolved.grown (h : Resolved n d l g g' p) (hs : g.Sound) (hn : g.Equipped n) :
    g.Grown g' [⟨n, d, l⟩] := by
  have hs' := hs.moves (h.moves hs)
  have hgrows := h.grows
  obtain ⟨hp, hlabel⟩ := h.mem hs hn.has
  rcases h with ⟨m, hm, hcreate⟩ | ⟨-, rfl⟩
  · obtain ⟨-, x, hx, hmap⟩ := hn.map_declared hm
    obtain ⟨_, _, hsame, ⟨-, rfl⟩ | ⟨-, g₁, q, hmade, hrow, hg'⟩⟩ :=
      hmap.getOrCreate hn.alive l.name
    · cases hcreate.symm.trans hsame
      exact .of_mem hp hlabel
    · cases hcreate.symm.trans hsame
      exact .of_made hs hs' hgrows hn (mem_of_lookup_eq_some hm) hp hlabel (hx l.name) hmade hrow hg'
  · exact .of_mem hp hlabel

/-! ## Ports in any order -/

namespace Grown

variable {asked asked' : List Request}

/-- Ports with one label are the same up to their queues. -/
theorem unqueued_eq (hs : g.Sound) (h : g.Grown g' asked) (h' : g.Grown g'' asked')
    (hn : g.Equipped n) {p p' : Ref .port} (hp : p ∈ g'.portsOf n d) (hp' : p' ∈ g''.portsOf n d)
    (hlabel : (g'.port p).label = (g''.port p').label) :
    (g'.port p).unqueued = (g''.port p').unqueued := by
  have hold : ∀ {r}, r ∈ g.portsOf n d → g'.port r = g.port r ∧ g''.port r = g.port r := fun hr =>
    ⟨(h.row _ (hs.has_of_mem hr)).2, (h'.row _ (hs.has_of_mem hr)).2⟩
  rcases h.listed n d hn p hp with hbefore | ⟨hnew, x, q, hx, hrow⟩ <;>
    rcases h'.listed n d hn p' hp' with hbefore' | ⟨hnew', x', q', hx', hrow'⟩
  · rw [(hold hbefore).1, (hold hbefore').2] at hlabel ⊢
    rw [List.inj_on_of_nodup_map (hs.labels_nodup n d) hbefore hbefore' hlabel]
  · refine absurd (mem_labelsOf.mpr ⟨p, hbefore, ?_⟩) hnew'
    rw [← hlabel, (hold hbefore).1]
  · refine absurd (mem_labelsOf.mpr ⟨p', hbefore', ?_⟩) hnew
    rw [hlabel, (hold hbefore').2]
  · rw [hlabel] at hx hrow
    cases hx.symm.trans hx'
    calc (g'.port p).unqueued
      _ = (x.row n (g''.port p').label q).unqueued := congrArg Port.unqueued hrow
      _ = (x.row n (g''.port p').label q').unqueued := x.row_unqueued n _ q q'
      _ = (g''.port p').unqueued := (congrArg Port.unqueued hrow').symm

theorem exists_unqueued (hs : g.Sound) (h : g.Grown g' asked) (h' : g.Grown g'' asked')
    (hn : g.Equipped n) (hasked : ∀ r ∈ asked, r ∈ asked') {p : Ref .port}
    (hp : p ∈ g'.portsOf n d) :
    ∃ p' ∈ g''.portsOf n d, (g''.port p').unqueued = (g'.port p).unqueued := by
  have hlabel : (g'.port p).label ∈ g''.labelsOf n d := by
    have hmem := (h.labels n d _ hn).mp (mem_labelsOf.mpr ⟨p, hp, rfl⟩)
    exact (h'.labels n d _ hn).mpr (hmem.imp_right (hasked _))
  obtain ⟨p', hp', hsame⟩ := mem_labelsOf.mp hlabel
  exact ⟨p', hp', unqueued_eq hs h' h hn hp' hp hsame⟩

/-- Which ports a node has in the end is a matter of what was asked for. -/
theorem ports_perm (hs : g.Sound) (h : g.Grown g' asked) (h' : g.Grown g'' asked')
    (hs' : g'.Sound) (hs'' : g''.Sound) (hasked : ∀ r, r ∈ asked ↔ r ∈ asked')
    (hn : g.Equipped n) (d : Direction) :
    ((g'.portsOf n d).map fun p => (g'.port p).unqueued).Perm
      ((g''.portsOf n d).map fun p => (g''.port p).unqueued) := by
  have hnodup : ∀ {k : Graph}, k.Sound →
      ((k.portsOf n d).map fun p => (k.port p).unqueued).Nodup := by
    intro k hk
    refine List.Nodup.of_map Port.label ?_
    have hlabels : ((k.portsOf n d).map fun p => (k.port p).unqueued).map Port.label =
        (k.portsOf n d).map fun p => (k.port p).label := by
      rw [List.map_map]
      exact List.map_congr_left fun p _ => (k.port p).unqueued_label
    rw [hlabels]
    exact hk.labels_nodup n d
  refine (List.perm_ext_iff_of_nodup (hnodup hs') (hnodup hs'')).mpr fun row => ?_
  rw [List.mem_map, List.mem_map]
  constructor
  · rintro ⟨p, hp, rfl⟩
    exact exists_unqueued hs h h' hn (fun r => (hasked r).mp) hp
  · rintro ⟨p, hp, rfl⟩
    exact exists_unqueued hs h' h hn (fun r => (hasked r).mpr) hp

end Grown

end Graph

/-! ## Views in any order -/

/-- The node is the same, with the same ports in any order. -/
structure NodeView.SameUpToOrder (v v' : NodeView) : Prop where
  id : v.id = v'.id
  name : v.name = v'.name
  role : v.role = v'.role
  settings : v.settings = v'.settings
  outputs : v.outputs.Perm v'.outputs
  inputs : v.inputs.Perm v'.inputs

/-- The nodes are the same, up to the order of their ports, and the connections are the same in any
order. -/
structure PipelineView.SameUpToOrder (v v' : PipelineView) : Prop where
  name : v.name = v'.name
  nodes : List.Forall₂ NodeView.SameUpToOrder v.nodes v'.nodes
  connections : v.connections.Perm v'.connections
  assets : v.assets = v'.assets

namespace Graph

variable {g g' g'' : Graph} {n : Ref .node}

theorem map_outputView (g : Graph) (n : Ref .node) (d : Direction) :
    (g.portsOf n d).map g.outputView =
      ((g.portsOf n d).map fun p => (g.port p).unqueued).map fun r => ⟨r.label, r.kindName⟩ := by
  rw [List.map_map]
  refine List.map_congr_left fun p _ => ?_
  rw [Function.comp_apply, Port.unqueued_label, Port.unqueued_kindName]
  rfl

theorem filterMap_inputView? (g : Graph) (n : Ref .node) (d : Direction) :
    (g.portsOf n d).filterMap g.inputView? =
      ((g.portsOf n d).map fun p => (g.port p).unqueued).filterMap fun r =>
        r.input?.map fun i => ⟨r.label, r.kindName, i.blocking, i.queueSize, i.wait⟩ := by
  rw [List.filterMap_map]
  refine List.filterMap_congr fun p _ => ?_
  rw [Function.comp_apply, Port.unqueued_label, Port.unqueued_kindName, Port.unqueued_input?,
    Option.map_map]
  rfl

theorem Grown.nodeView {asked asked' : List Request} (hs : g.Sound) (h : g.Grown g' asked)
    (h' : g.Grown g'' asked') (hs' : g'.Sound) (hs'' : g''.Sound)
    (hasked : ∀ r, r ∈ asked ↔ r ∈ asked') (hn : g.Equipped n) :
    (g'.nodeView n).SameUpToOrder (g''.nodeView n) := by
  have hnode : g'.node n = g''.node n :=
    (h.grows.node n hn.has).2.trans (h'.grows.node n hn.has).2.symm
  have hports := ports_perm hs h h' hs' hs'' hasked hn
  refine ⟨?_, ?_, ?_, ?_, ?_, ?_⟩
  · exact congrArg Node.id hnode
  · exact congrArg (fun node => node.kind.name) hnode
  · exact congrArg (fun node => node.kind.role.name) hnode
  · exact congrArg Node.settings hnode
  · change ((g'.portsOf n .output).map g'.outputView).Perm
      ((g''.portsOf n .output).map g''.outputView)
    rw [map_outputView, map_outputView]
    exact (hports .output).map _
  · change ((g'.portsOf n .input).filterMap g'.inputView?).Perm
      ((g''.portsOf n .input).filterMap g''.inputView?)
    rw [filterMap_inputView?, filterMap_inputView?]
    exact (hports .input).filterMap _

end Graph

end FrameGraph
