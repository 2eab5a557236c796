import FrameGraph.Proofs.Graph.Frame
import FrameGraph.Proofs.Graph.Identity

/-!
# Nodes with the ports of their kinds

Any port can be registered on any node. But a node that was just created has the ports and port maps
that its kind declares and no others, and whatever is made or set up afterwards by way of labels
keeps to the declarations: a map makes ports for the node of its template, and its template is not
found under any label.

* `Stocked`: what is registered on a node is what was declared, `Stocked.declare`: one by one.
* `Equipped`: a node that exists has the ports of its kind, `create_equipped`.
* `Grows`: the nodes there are stay as they are and keep their equipment.
-/

namespace FrameGraph.Graph

variable {g g' g'' : Graph} {n : Ref .node} {ds : List Declared}

/-! ## What is registered on a node -/

/-- The port is made as it is declared, up to the settings of an input. -/
def AsDeclared (g : Graph) (n : Ref .node) (x : PortDeclaration) (l : PortLabel) (p : Ref .port) :
    Prop :=
  g.ports.Has p ∧ ∃ q, (g.port p).bare = x.row n l q

/-- The map is made as it is declared, and nobody has set up its template. -/
structure MapAsDeclared (g : Graph) (n : Ref .node) (group : String) (x : PortDeclaration)
    (m : Ref .portMap) : Prop where
  has : g.portMaps.Has m
  name : (g.portMap m).name = group
  template : g.ports.Has (g.portMap m).template ∧
    ∃ q, g.port (g.portMap m).template = x.row n ⟨"", x.name⟩ q
  entries : ∀ e ∈ (g.portMap m).entries, g.AsDeclared n x ⟨group, e.1⟩ e.2

/-- The registered ports and port maps of a node are those that were declared. -/
structure Stocked (g : Graph) (n : Ref .node) (ds : List Declared) : Prop where
  port : ∀ x, .port x ∈ ds → ∃ p, (⟨"", x.name⟩, p) ∈ ((g.node n).registry x.direction).ports
  map : ∀ name x, .map name x ∈ ds → ∃ m, (name, m) ∈ ((g.node n).registry x.direction).maps
  ports : ∀ d, ∀ e ∈ ((g.node n).registry d).ports, ∃ x, .port x ∈ ds ∧ x.direction = d ∧
    e.1 = ⟨"", x.name⟩ ∧ g.AsDeclared n x e.1 e.2
  maps : ∀ d, ∀ f ∈ ((g.node n).registry d).maps, ∃ x, .map f.1 x ∈ ds ∧ x.direction = d ∧
    g.MapAsDeclared n f.1 x f.2

theorem AsDeclared.keep {x : PortDeclaration} {l : PortLabel} {p : Ref .port}
    (h : g.AsDeclared n x l p)
    (hports : ∀ p, g.ports.Has p → g'.ports.Has p ∧ (g'.port p).bare = (g.port p).bare) :
    g'.AsDeclared n x l p := by
  obtain ⟨hp, q, hrow⟩ := h
  obtain ⟨hp', hbare⟩ := hports p hp
  exact ⟨hp', q, hbare.trans hrow⟩

theorem MapAsDeclared.keep {x : PortDeclaration} {name : String} {m : Ref .portMap}
    (h : g.MapAsDeclared n name x m)
    (hports : ∀ p, g.ports.Has p → g'.ports.Has p ∧ (g'.port p).bare = (g.port p).bare)
    (htemplate : g'.port (g.portMap m).template = g.port (g.portMap m).template)
    (hmap : g'.portMaps.Has m ∧ g'.portMap m = g.portMap m) : g'.MapAsDeclared n name x m := by
  obtain ⟨hp, q, hrow⟩ := h.template
  refine ⟨hmap.1, ?_, ?_, fun e he => ?_⟩
  · rw [hmap.2]
    exact h.name
  · rw [hmap.2]
    exact ⟨(hports _ hp).1, q, htemplate.trans hrow⟩
  · rw [hmap.2] at he
    exact (h.entries e he).keep hports

theorem Stocked.keep (h : g.Stocked n ds)
    (hregistry : ∀ d, (g'.node n).registry d = (g.node n).registry d)
    (hports : ∀ p, g.ports.Has p → g'.ports.Has p ∧ (g'.port p).bare = (g.port p).bare)
    (hmaps : ∀ group x m, .map group x ∈ ds → g.MapAsDeclared n group x m →
      g'.MapAsDeclared n group x m) : g'.Stocked n ds := by
  refine ⟨fun x hx => ?_, fun name x hx => ?_, fun d e he => ?_, fun d f hf => ?_⟩
  · rw [hregistry]
    exact h.port x hx
  · rw [hregistry]
    exact h.map name x hx
  · rw [hregistry] at he
    obtain ⟨x, hx, hd, hlabel, hdeclared⟩ := h.ports d e he
    exact ⟨x, hx, hd, hlabel, hdeclared.keep hports⟩
  · rw [hregistry] at hf
    obtain ⟨x, hx, hd, hmap⟩ := h.maps d f hf
    exact ⟨x, hx, hd, hmaps f.1 x f.2 hx hmap⟩

/-- What is made and registered for one node leaves the others alone. -/
theorem Stocked.declares {m : Ref .node} (h : g.Stocked n ds) (hd : Declares m g g')
    (hregistry : ∀ d, (g'.node n).registry d = (g.node n).registry d) : g'.Stocked n ds := by
  have hports : ∀ p, g.ports.Has p → g'.ports.Has p ∧ (g'.port p).bare = (g.port p).bare :=
    fun p hp => ⟨(hd.moves.kept.ports p hp).1, by rw [hd.row p hp]⟩
  refine h.keep hregistry hports fun group x f _ hf => ?_
  exact hf.keep hports (hd.row _ hf.template.1) (hd.map f hf.has)

/-! ## Declaring the ports of a new node -/

theorem Stocked.add_port (h : g.Stocked n ds) (hn : g.nodes.Has n) {x : PortDeclaration}
    {p : Ref .port} (hp : g.AsDeclared n x ⟨"", x.name⟩ p) :
    (g.modifyNode n fun node => node.setRegistry x.direction
      { (g.node n).registry x.direction with
        ports := ((g.node n).registry x.direction).ports ++ [(⟨"", x.name⟩, p)] }).Stocked n
      (ds ++ [.port x]) := by
  set g₁ := g.modifyNode n fun node => node.setRegistry x.direction
    { (g.node n).registry x.direction with
      ports := ((g.node n).registry x.direction).ports ++ [(⟨"", x.name⟩, p)] } with hg₁
  have hports : ∀ d e, e ∈ ((g₁.node n).registry d).ports ↔
      e ∈ ((g.node n).registry d).ports ∨ (d = x.direction ∧ e = (⟨"", x.name⟩, p)) := by
    intro d e
    rw [hg₁, registry_modifyNode]
    by_cases hd : d = x.direction
    · subst hd
      rw [if_pos ⟨rfl, rfl, hn⟩, List.mem_append, List.mem_singleton]
      simp
    · rw [if_neg fun hc => hd hc.2.1]
      simp [hd]
  have hmaps : ∀ d, ((g₁.node n).registry d).maps = ((g.node n).registry d).maps := by
    intro d
    rw [hg₁, registry_modifyNode]
    split
    · next hd => rw [hd.2.1]
    · rfl
  refine ⟨fun y hy => ?_, fun name y hy => ?_, fun d e he => ?_, fun d f hf => ?_⟩
  · rcases List.mem_append.mp hy with hold | hnew
    · obtain ⟨r, hr⟩ := h.port y hold
      exact ⟨r, (hports _ _).mpr (Or.inl hr)⟩
    · cases List.mem_singleton.mp hnew
      exact ⟨p, (hports _ _).mpr (Or.inr ⟨rfl, rfl⟩)⟩
  · rw [hmaps]
    rcases List.mem_append.mp hy with hold | hnew
    · exact h.map name y hold
    · cases List.mem_singleton.mp hnew
  · rcases (hports d e).mp he with hold | ⟨rfl, rfl⟩
    · obtain ⟨y, hy, hrest⟩ := h.ports d e hold
      exact ⟨y, List.mem_append_left _ hy, hrest⟩
    · exact ⟨x, List.mem_append_right _ List.mem_cons_self, rfl, rfl, hp⟩
  · rw [hmaps] at hf
    obtain ⟨y, hy, hd, hmap⟩ := h.maps d f hf
    exact ⟨y, List.mem_append_left _ hy, hd, hmap.keep (fun _ hr => ⟨hr, rfl⟩) rfl ⟨hmap.has, rfl⟩⟩

theorem Stocked.add_map (h : g.Stocked n ds) (hn : g.nodes.Has n) {x : PortDeclaration}
    {group : String} {m : Ref .portMap} (hm : g.MapAsDeclared n group x m) :
    (g.modifyNode n fun node => node.setRegistry x.direction
      { (g.node n).registry x.direction with
        maps := ((g.node n).registry x.direction).maps ++ [(group, m)] }).Stocked n
      (ds ++ [.map group x]) := by
  set g₁ := g.modifyNode n fun node => node.setRegistry x.direction
    { (g.node n).registry x.direction with
      maps := ((g.node n).registry x.direction).maps ++ [(group, m)] } with hg₁
  have hmaps : ∀ d f, f ∈ ((g₁.node n).registry d).maps ↔
      f ∈ ((g.node n).registry d).maps ∨ (d = x.direction ∧ f = (group, m)) := by
    intro d f
    rw [hg₁, registry_modifyNode]
    by_cases hd : d = x.direction
    · subst hd
      rw [if_pos ⟨rfl, rfl, hn⟩, List.mem_append, List.mem_singleton]
      simp
    · rw [if_neg fun hc => hd hc.2.1]
      simp [hd]
  have hports : ∀ d, ((g₁.node n).registry d).ports = ((g.node n).registry d).ports := by
    intro d
    rw [hg₁, registry_modifyNode]
    split
    · next hd => rw [hd.2.1]
    · rfl
  have hkeep : ∀ {group y f}, g.MapAsDeclared n group y f → g₁.MapAsDeclared n group y f :=
    fun hf => hf.keep (fun _ hr => ⟨hr, rfl⟩) rfl ⟨hf.has, rfl⟩
  refine ⟨fun y hy => ?_, fun name y hy => ?_, fun d e he => ?_, fun d f hf => ?_⟩
  · rw [hports]
    rcases List.mem_append.mp hy with hold | hnew
    · exact h.port y hold
    · cases List.mem_singleton.mp hnew
  · rcases List.mem_append.mp hy with hold | hnew
    · obtain ⟨f, hf⟩ := h.map name y hold
      exact ⟨f, (hmaps _ _).mpr (Or.inl hf)⟩
    · cases List.mem_singleton.mp hnew
      exact ⟨m, (hmaps _ _).mpr (Or.inr ⟨rfl, rfl⟩)⟩
  · rw [hports] at he
    obtain ⟨y, hy, hrest⟩ := h.ports d e he
    exact ⟨y, List.mem_append_left _ hy, hrest⟩
  · rcases (hmaps d f).mp hf with hold | ⟨rfl, rfl⟩
    · obtain ⟨y, hy, hd, hmap⟩ := h.maps d f hold
      exact ⟨y, List.mem_append_left _ hy, hd, hkeep hmap⟩
    · exact ⟨x, List.mem_append_right _ List.mem_cons_self, rfl, hkeep hm⟩

/-- What is declared next is not in the way of what is registered already. -/
theorem Stocked.free (h : g.Stocked n ds) (hgroup : ∀ name x, .map name x ∈ ds → name ≠ "")
    {y : Declared} (hkey : ∀ z ∈ ds, z.key ≠ y.key) :
    match y with
    | .port x => ((g.node n).registry x.direction).port? ⟨"", x.name⟩ = none ∧
        ((g.node n).registry x.direction).map? "" = none
    | .map name x => ((g.node n).registry x.direction).map? name = none ∧
        (name ≠ "" → ∀ e ∈ ((g.node n).registry x.direction).ports, e.1.group ≠ name) := by
  cases y with
  | port x =>
    constructor
    · refine Option.eq_none_iff_forall_ne_some.mpr fun p hp => ?_
      obtain ⟨z, hz, hd, hlabel, -⟩ := h.ports _ _ (mem_of_lookup_eq_some hp)
      refine hkey _ hz ?_
      have hname : x.name = z.name := congrArg PortLabel.name hlabel
      rw [Declared.key, Declared.key, hd, hname]
    · refine Option.eq_none_iff_forall_ne_some.mpr fun m hm => ?_
      obtain ⟨z, hz, -⟩ := h.maps _ _ (mem_of_lookup_eq_some hm)
      exact hgroup _ _ hz rfl
  | map name x =>
    constructor
    · refine Option.eq_none_iff_forall_ne_some.mpr fun m hm => ?_
      obtain ⟨z, hz, hd, -⟩ := h.maps _ _ (mem_of_lookup_eq_some hm)
      refine hkey _ hz ?_
      rw [Declared.key, Declared.key, hd]
    · intro hname e he heq
      obtain ⟨z, -, -, hlabel, -⟩ := h.ports _ e he
      rw [hlabel] at heq
      exact hname heq.symm

theorem Stocked.declare (h : g.Stocked n ds) (hn : g.nodes.Has n) (y : Declared)
    (hgroup : ∀ name x, .map name x ∈ ds ++ [y] → name ≠ "") (hkey : ∀ z ∈ ds, z.key ≠ y.key) :
    ∃ g', declare n g y = .ok g' ∧ g'.Stocked n (ds ++ [y]) := by
  have hfree := h.free (fun name x hx => hgroup name x (List.mem_append_left _ hx)) hkey
  cases y with
  | port x =>
    obtain ⟨g₁, p, q, hnew, hmade, hrow⟩ := g.declarePort_ok n x ⟨"", x.name⟩
    have hnode : g₁.node n = g.node n := by rw [Graph.node, hmade.nodes]; rfl
    have hn₁ : g₁.nodes.Has n := by rw [hmade.nodes]; exact hn
    have h₁ := h.declares (.of_made hmade : Declares n g g₁) fun d => by rw [hnode]
    have hport : g₁.AsDeclared n x ⟨"", x.name⟩ p :=
      ⟨hmade.has, q, by rw [hrow, PortDeclaration.row_bare]⟩
    refine ⟨_, ?_, h₁.add_port hn₁ hport⟩
    rw [Graph.declare, hnew]
    refine bind_eq_ok.mpr ⟨(g₁, p), rfl, bind_eq_ok.mpr ⟨_, ?_, rfl⟩⟩
    rw [hmade.label]
    refine Registry.addPort_new ?_ ?_
    · rw [hnode]
      exact hfree.1
    · rw [hnode]
      exact hfree.2
  | map name x =>
    obtain ⟨g₁, p, q, hnew, hmade, hrow⟩ := g.declarePort_ok n x ⟨"", x.name⟩
    have hname := hgroup name x (List.mem_append_right _ List.mem_cons_self)
    have hnode : g₁.node n = g.node n := by rw [Graph.node, hmade.nodes]; rfl
    have hn₁ : g₁.nodes.Has n := by rw [hmade.nodes]; exact hn
    set g₂ := (g₁.newPortMap name x.direction p).1 with hg₂
    set m := (g₁.newPortMap name x.direction p).2
    have hmap : g₂.portMap m = { name, direction := x.direction, template := p } :=
      Table.get_push_self _ _
    have h₂ : g₂.Stocked n ds :=
      h.declares ((Declares.of_made hmade).trans (newPortMap_declares _ n _ _ _)) fun d => by
        change (g₁.node n).registry d = _
        rw [hnode]
    have hm : g₂.MapAsDeclared n name x m := by
      refine ⟨Table.has_push_self _ _, by rw [hmap], ?_, fun e he => ?_⟩
      · rw [hmap]
        exact ⟨hmade.has, q, hrow⟩
      · rw [hmap] at he
        cases he
    refine ⟨_, ?_, h₂.add_map hn₁ hm⟩
    rw [Graph.declare, hnew]
    refine bind_eq_ok.mpr ⟨(g₁, p), rfl, bind_eq_ok.mpr ⟨_, ?_, rfl⟩⟩
    have hnode₂ : g₂.node n = g.node n := hnode
    change ((g₂.node n).registry x.direction).addMap (g₂.portMap m).name m = _
    rw [hmap, hnode₂]
    exact Registry.addMap_new hfree.1 (hfree.2 hname)

/-- All of a list is declared, by induction on the list. -/
theorem Stocked.declareAll (ys : List Declared) (h : g.Stocked n ds) (hn : g.nodes.Has n)
    (hkeys : ((ds ++ ys).map Declared.key).Nodup)
    (hgroup : ∀ name x, .map name x ∈ ds ++ ys → name ≠ "") :
    ∃ g', ys.foldlM (Graph.declare n) g = .ok g' ∧ g'.Stocked n (ds ++ ys) := by
  induction ys generalizing g ds with
  | nil =>
    rw [List.append_nil]
    exact ⟨g, rfl, h⟩
  | cons y ys ih =>
    have happend : ds ++ y :: ys = ds ++ [y] ++ ys := by rw [List.append_assoc]; rfl
    rw [happend] at hkeys hgroup ⊢
    have hone : ((ds ++ [y]).map Declared.key).Nodup := by
      rw [List.map_append] at hkeys
      exact (List.nodup_append.mp hkeys).1
    obtain ⟨g₁, hdeclare, h₁⟩ := h.declare hn y
      (fun name x hx => hgroup name x (List.mem_append_left _ hx)) fun z hz heq => by
        rw [List.map_append, List.nodup_append] at hone
        exact hone.2.2 _ (List.mem_map_of_mem hz) _ List.mem_cons_self heq
    obtain ⟨g', hrest, h'⟩ := ih h₁ ((declare_declares hdeclare).moves.kept.nodes n hn).1 hkeys hgroup
    refine ⟨g', ?_, h'⟩
    rw [List.foldlM_cons, hdeclare]
    exact hrest

/-- The ports of a kind can always be declared on a new node. -/
theorem declarePorts_stocked (hn : g.nodes.Has n) (hnone : ∀ d, (g.node n).registry d = {})
    {k : Declarations} (hk : k.Distinct) :
    ∃ g', g.declarePorts n k = .ok g' ∧ g'.Stocked n k.list := by
  have hempty : g.Stocked n [] := by
    refine ⟨nofun, nofun, fun d e he => ?_, fun d f hf => ?_⟩
    · rw [hnone] at he
      cases he
    · rw [hnone] at hf
      cases hf
  rw [declarePorts_eq]
  refine hempty.declareAll k.list hn hk.keys fun name x hx => ?_
  exact hk.group x.direction (name, x) (Declarations.mem_maps_iff.mpr ⟨hx, rfl⟩)

/-! ## Nodes with their ports -/

/-- The node exists and has the ports of its kind. -/
structure Equipped (g : Graph) (n : Ref .node) : Prop where
  has : g.nodes.Has n
  alive : (g.node n).alive = true
  stocked : g.Stocked n (g.node n).kind.declarations.list

/-- The declaration that a label of a node names. -/
abbrev declared? (g : Graph) (n : Ref .node) (d : Direction) (l : PortLabel) :
    Option PortDeclaration := (g.node n).kind.declarations.port? d l

theorem AsDeclared.node {x : PortDeclaration} {l : PortLabel} {p : Ref .port}
    (h : g.AsDeclared n x l p) : (g.port p).node = n := by
  obtain ⟨-, q, hrow⟩ := h
  rw [← Port.bare_node, hrow, PortDeclaration.row_node]

theorem AsDeclared.label {x : PortDeclaration} {l : PortLabel} {p : Ref .port}
    (h : g.AsDeclared n x l p) : (g.port p).label = l := by
  obtain ⟨-, q, hrow⟩ := h
  rw [← Port.bare_label, hrow, PortDeclaration.row_label]

theorem AsDeclared.accepts {x : PortDeclaration} {l : PortLabel} {p : Ref .port}
    (h : g.AsDeclared n x l p) : (g.port p).accepts = x.accepts := by
  obtain ⟨-, q, hrow⟩ := h
  rw [← Port.bare_accepts, hrow, PortDeclaration.row_accepts]

theorem AsDeclared.direction {x : PortDeclaration} {l : PortLabel} {p : Ref .port}
    (h : g.AsDeclared n x l p) : (g.port p).direction = x.direction := by
  obtain ⟨-, q, hrow⟩ := h
  rw [← Port.bare_direction, hrow, PortDeclaration.row_direction]

theorem AsDeclared.queueOf? {x : PortDeclaration} {l : PortLabel} {p : Ref .port}
    (h : g.AsDeclared n x l p) (hx : x.direction = .input) : ∃ q, g.queueOf? p = some q := by
  obtain ⟨-, q, hrow⟩ := h
  refine ⟨q, ?_⟩
  rw [Graph.queueOf?, ← Port.bare_queue, hrow]
  cases x with
  | input d => rfl
  | output d => cases hx

namespace Equipped

variable (h : g.Equipped n) {d : Direction} {l : PortLabel} {x : PortDeclaration}
include h

/-- What is listed on a node is what its label names. -/
theorem listed {p : Ref .port} (hp : p ∈ g.portsOf n d) :
    ∃ x, g.declared? n d (g.port p).label = some x ∧ g.AsDeclared n x (g.port p).label p := by
  have hdistinct := (g.node n).kind.declarations_distinct
  rcases mem_portsOf.mp hp with ⟨e, he, rfl⟩ | ⟨f, hf, e, he, rfl⟩
  · obtain ⟨x, hx, hd, hlabel, hport⟩ := h.stocked.ports d e he
    rw [hport.label]
    refine ⟨x, ?_, hport⟩
    rw [hlabel]
    exact hdistinct.port?_static (Declarations.mem_static_iff.mpr ⟨hx, hd⟩)
  · obtain ⟨x, hx, hd, hmap⟩ := h.stocked.maps d f hf
    have hport := hmap.entries e he
    rw [hport.label]
    exact ⟨x, hdistinct.port?_map (Declarations.mem_maps_iff.mpr ⟨hx, hd⟩) e.1, hport⟩

theorem node_of_mem {p : Ref .port} (hp : p ∈ g.portsOf n d) : (g.port p).node = n := by
  obtain ⟨x, -, hport⟩ := h.listed hp
  exact hport.node

/-- The static port that a label names is listed. -/
theorem static_mem (hx : g.declared? n d l = some x) (hgroup : l.group = "") :
    ∃ p ∈ g.portsOf n d, (g.port p).label = l := by
  rcases Declarations.port?_cases hx with ⟨-, hstatic, hname⟩ | ⟨hne, -⟩
  · obtain ⟨hlist, hd⟩ := Declarations.mem_static_iff.mp hstatic
    obtain ⟨p, hp⟩ := h.stocked.port x hlist
    rw [hd] at hp
    obtain ⟨y, -, -, -, hport⟩ := h.stocked.ports d _ hp
    refine ⟨p, mem_portsOf.mpr (Or.inl ⟨_, hp, rfl⟩), hport.label.trans ?_⟩
    rw [hname, ← hgroup]
  · exact absurd hgroup hne

/-- A registered map is what any label with its name as the group names. -/
theorem map_declared {group : String} {m : Ref .portMap} (hm : g.portMap? n d group = some m) :
    group ≠ "" ∧ ∃ x, (∀ key, g.declared? n d ⟨group, key⟩ = some x) ∧
      g.MapAsDeclared n group x m := by
  have hdistinct := (g.node n).kind.declarations_distinct
  obtain ⟨x, hx, hd, hmap⟩ := h.stocked.maps d _ (mem_of_lookup_eq_some hm)
  have hmaps := Declarations.mem_maps_iff.mpr ⟨hx, hd⟩
  exact ⟨hdistinct.group d _ hmaps, x, fun key => hdistinct.port?_map hmaps key, hmap⟩

/-- The map that a label names is registered. -/
theorem map_registered (hs : g.Sound) (hx : g.declared? n d l = some x) (hgroup : l.group ≠ "") :
    ∃ m, g.portMap? n d l.group = some m ∧ g.MapAsDeclared n l.group x m := by
  rcases Declarations.port?_cases hx with ⟨hempty, -⟩ | ⟨-, hmaps⟩
  · exact absurd hempty hgroup
  · obtain ⟨hlist, hd⟩ := Declarations.mem_maps_iff.mp hmaps
    obtain ⟨m, hm⟩ := h.stocked.map l.group x hlist
    rw [hd] at hm
    have hm' : g.portMap? n d l.group = some m := lookup_eq_some_of_mem (hs.registry n d).names hm
    obtain ⟨-, y, hy, hmap⟩ := h.map_declared hm'
    cases (hy l.name).symm.trans hx
    exact ⟨m, hm', hmap⟩

end Equipped

/-! ## Steps that keep equipment -/

/-- The nodes there are stay as they are and keep their equipment. -/
structure Grows (g g' : Graph) : Prop where
  node : ∀ n, g.nodes.Has n → g'.nodes.Has n ∧ g'.node n = g.node n
  equipped : ∀ n, g.Equipped n → g'.Equipped n

namespace Grows

theorem refl (g : Graph) : g.Grows g := ⟨fun _ h => ⟨h, rfl⟩, fun _ h => h⟩

theorem trans (h : g.Grows g') (h' : g'.Grows g'') : g.Grows g'' where
  node n hn := by
    obtain ⟨hn', hrow⟩ := h.node n hn
    obtain ⟨hn'', hrow'⟩ := h'.node n hn'
    exact ⟨hn'', hrow'.trans hrow⟩
  equipped n hn := h'.equipped n (h.equipped n hn)

theorem of_keep (hnode : ∀ n, g.nodes.Has n → g'.nodes.Has n ∧ g'.node n = g.node n)
    (hports : ∀ p, g.ports.Has p → g'.ports.Has p ∧ (g'.port p).bare = (g.port p).bare)
    (hmaps : ∀ n, g.Equipped n → ∀ group x m, .map group x ∈ (g.node n).kind.declarations.list →
      g.MapAsDeclared n group x m → g'.MapAsDeclared n group x m) : g.Grows g' := by
  refine ⟨hnode, fun n hn => ?_⟩
  obtain ⟨hhas, hrow⟩ := hnode n hn.has
  refine ⟨hhas, ?_, ?_⟩
  · rw [hrow]
    exact hn.alive
  · rw [hrow]
    exact hn.stocked.keep (fun d => by rw [hrow]) hports (hmaps n hn)

theorem of_tables (hnodes : g'.nodes = g.nodes) (hports : g'.ports = g.ports)
    (hmaps : g'.portMaps = g.portMaps) : g.Grows g' := by
  have hnode : ∀ n, g'.node n = g.node n := fun n => by rw [Graph.node, hnodes]; rfl
  have hport : ∀ p, g'.port p = g.port p := fun p => by rw [Graph.port, hports]; rfl
  have hmap : ∀ m, g'.portMap m = g.portMap m := fun m => by rw [Graph.portMap, hmaps]; rfl
  have hkeep : ∀ p, g.ports.Has p → g'.ports.Has p ∧ (g'.port p).bare = (g.port p).bare :=
    fun p hp => ⟨by rw [hports]; exact hp, by rw [hport]⟩
  refine of_keep (fun n hn => ⟨by rw [hnodes]; exact hn, hnode n⟩) hkeep fun n hn group x m _ hm => ?_
  exact hm.keep hkeep (hport _) ⟨by rw [hmaps]; exact hm.has, hmap m⟩

end Grows

theorem modifyPipeline_grows (g : Graph) (p : Ref .pipeline) (f : Pipeline → Pipeline) :
    g.Grows (g.modifyPipeline p f) := .of_tables rfl rfl rfl

theorem Noted.grows {p : Ref .pipeline} {e : Event} (h : g.Noted p e g') : g.Grows g' := by
  cases h <;> exact modifyPipeline_grows _ _ _

/-- Nothing that is listed on a node with its ports is the template of a map there. -/
theorem Equipped.ne_template (h : g.Equipped n) {d : Direction} {p : Ref .port}
    (hp : p ∈ g.portsOf n d) {m : Ref .node} {group : String} {x : PortDeclaration}
    {f : Ref .portMap} (hx : .map group x ∈ (g.node m).kind.declarations.list)
    (hf : g.MapAsDeclared m group x f) : (g.portMap f).template ≠ p := by
  rintro rfl
  obtain ⟨y, hy, -, q, hrow⟩ := h.listed hp
  obtain ⟨-, q', htemplate⟩ := hf.template
  rw [htemplate, PortDeclaration.row_bare, PortDeclaration.row_label] at hrow
  rw [htemplate, PortDeclaration.row_label] at hy
  have hnode := congrArg Port.node hrow
  have hdirection := congrArg Port.direction hrow
  rw [PortDeclaration.row_node, PortDeclaration.row_node] at hnode
  rw [PortDeclaration.row_direction, PortDeclaration.row_direction] at hdirection
  subst hnode
  have hmaps := Declarations.mem_maps_iff.mpr ⟨hx, rfl⟩
  have hnone := (g.node m).kind.declarations_distinct.port?_template hmaps
  rw [hdirection, Declarations.direction_of_port? hy] at hnone
  cases hnone.symm.trans hy

/-- Listed ports may be set up. -/
theorem Tuned.grows {d : Direction} {p : Ref .port} (h : g.Tuned p g') (hn : g.Equipped n)
    (hp : p ∈ g.portsOf n d) : g.Grows g' := by
  have hkeep : ∀ q, g.ports.Has q → g'.ports.Has q ∧ (g'.port q).bare = (g.port q).bare :=
    fun q hq => ⟨(h.ports q).mpr hq, h.bare_eq q⟩
  refine .of_keep (fun m hm => ⟨by rw [h.nodes]; exact hm, by rw [Graph.node, h.nodes]; rfl⟩) hkeep
    fun m _ group x f hx hf => ?_
  refine hf.keep hkeep (h.others _ (hn.ne_template hp hx hf)) ⟨?_, ?_⟩
  · rw [h.portMaps]
    exact hf.has
  · rw [Graph.portMap, h.portMaps]
    rfl

/-! ## Ports that maps make -/

/-- A map that was declared makes its ports as they are declared. -/
theorem MapAsDeclared.getOrCreate {x : PortDeclaration} {group : String} {m : Ref .portMap}
    (hm : g.MapAsDeclared n group x m) (hn : (g.node n).alive = true) (key : String) :
    ∃ g' p, g.getOrCreate m key = .ok (g', p) ∧
      (((g.portMap m).get? key = some p ∧ g' = g) ∨
        ((g.portMap m).get? key = none ∧ ∃ g₁ q, g.Made n ⟨group, key⟩ (g₁, p) ∧
          g₁.port p = x.row n ⟨group, key⟩ q ∧
          g' = { g₁ with portMaps := g₁.portMaps.modify m fun portMap => portMap.add key p })) := by
  cases hkey : (g.portMap m).get? key with
  | some p =>
    refine ⟨g, p, ?_, Or.inl ⟨rfl, rfl⟩⟩
    simp only [Graph.getOrCreate, hkey]
  | none =>
    obtain ⟨-, q₀, htemplate⟩ := hm.template
    obtain ⟨g₁, p, q, hnew, hmade, hrow⟩ := g.declarePort_ok n x ⟨group, key⟩
    refine ⟨_, p, ?_, Or.inr ⟨rfl, g₁, q, hmade, hrow, rfl⟩⟩
    simp only [Graph.getOrCreate, hkey, hm.name]
    rw [clonePort_eq htemplate hn, hnew]
    rfl

/-- Asking a map for a port keeps equipment, wherever the map is registered. -/
theorem getOrCreate_grows {m : Ref .portMap} {key : String} {p : Ref .port}
    (h : g.getOrCreate m key = .ok (g', p)) : g.Grows g' := by
  rcases getOrCreate_cases h with ⟨-, rfl⟩ | ⟨hnone, g₁, -, hmade, hg'⟩
  · exact .refl _
  have hrow : ∀ q, g.ports.Has q → g'.port q = g.port q := fun q hq => by
    rw [hg']
    exact hmade.others q hq
  have hkeep : ∀ q, g.ports.Has q → g'.ports.Has q ∧ (g'.port q).bare = (g.port q).bare := by
    intro q hq
    refine ⟨?_, by rw [hrow q hq]⟩
    rw [hg']
    exact (hmade.moves.kept.ports q hq).1
  have hmap : ∀ f, g'.portMap f =
      if f = m ∧ g.portMaps.Has m then (g.portMap f).add key p else g.portMap f := by
    intro f
    rw [hg', Graph.portMap, hmade.portMaps]
    exact Table.get_modify _ _ _ _
  refine .of_keep (fun n hn => ?_) hkeep fun n hn group x f _ hf => ?_
  · rw [hg']
    exact ⟨by rw [hmade.nodes]; exact hn, by rw [Graph.node, hmade.nodes]; rfl⟩
  have hhas : g'.portMaps.Has f := by
    rw [hg']
    refine Table.has_modify.mpr ?_
    rw [hmade.portMaps]
    exact hf.has
  by_cases hfm : f = m
  · subst hfm
    -- The map has one more entry, which was made after the template on this node.
    obtain ⟨_, _, hsame, ⟨hsome, -⟩ | ⟨-, g₂, q, hmade₂, hnew, hg₂⟩⟩ := hf.getOrCreate hn.alive key
    · rw [hsome] at hnone
      cases hnone
    cases h.symm.trans hsame
    have hone : g'.portMap f = (g.portMap f).add key p := by rw [hmap, if_pos ⟨rfl, hf.has⟩]
    obtain ⟨htemplate, q', hdeclared⟩ := hf.template
    refine ⟨hhas, by rw [hone]; exact hf.name, ?_, fun e he => ?_⟩
    · rw [hone]
      exact ⟨(hkeep _ htemplate).1, q', (hrow _ htemplate).trans hdeclared⟩
    · rw [hone] at he
      rcases List.mem_append.mp he with hold | hlast
      · exact (hf.entries e hold).keep hkeep
      · cases List.mem_singleton.mp hlast
        refine ⟨?_, q, ?_⟩
        · rw [hg₂]
          exact hmade₂.has
        · have hp : g'.port p = x.row n ⟨group, key⟩ q := by
            rw [hg₂]
            exact hnew
          rw [hp, PortDeclaration.row_bare]
  · exact hf.keep hkeep (hrow _ hf.template.1) ⟨hhas, by rw [hmap, if_neg fun hc => hfm hc.1]⟩

/-! ## New nodes -/

/-- A node of a kind was created in a pipeline. -/
structure Created (g : Graph) (p : Ref .pipeline) (kind : NodeKind) (g' : Graph) (n : Ref .node) :
    Prop where
  grows : g.Grows g'
  equipped : g'.Equipped n
  kind : (g'.node n).kind = kind
  id : (g'.node n).id = (g.pipeline p).nextId
  home : (g'.node n).pipeline = p
  pipelines : g'.pipelines.Has p
  row : g'.pipeline p =
    { g.pipeline p with
      nodes := (g.pipeline p).nodes ++ [((g.pipeline p).nextId, n)]
      nextId := (g.pipeline p).nextId + 1 }

/-- The ports of a new node can be declared, and then it has the ports of its kind. -/
theorem declarePorts_newNode (g : Graph) (p : Ref .pipeline) (kind : NodeKind) (settings : Entries) :
    ∃ g', ({ g with nodes := (g.nodes.push (g.newNode p kind settings)).1 } : Graph).declarePorts
        ⟨g.nodes.size⟩ kind.declarations = .ok g' ∧
      g'.Equipped ⟨g.nodes.size⟩ ∧ (g'.node ⟨g.nodes.size⟩).kind = kind := by
  set row := g.newNode p kind settings
  set n : Ref .node := ⟨g.nodes.size⟩
  set g₀ : Graph := { g with nodes := (g.nodes.push row).1 }
  have hn : g₀.nodes.Has n := Table.has_push_self _ _
  have hrow : g₀.node n = row := Table.get_push_self _ _
  have hnone : ∀ d, (g₀.node n).registry d = {} := fun d => by rw [hrow]; cases d <;> rfl
  obtain ⟨g', hports, hstocked⟩ := declarePorts_stocked hn hnone kind.declarations_distinct
  have hdeclares := declarePorts_declares hports
  have hkind : (g'.node n).kind = kind := by rw [hdeclares.kind, hrow]; rfl
  refine ⟨g', hports, ⟨(hdeclares.moves.kept.nodes n hn).1, ?_, ?_⟩, hkind⟩
  · rw [hdeclares.alive, hrow]
    rfl
  · rw [hkind]
    exact hstocked

/-- Nothing but its settings can keep a node from being created. -/
theorem create_of_settings {p : Ref .pipeline} {kind : NodeKind} {given : Value} {settings : Entries}
    (h : g.newSettings kind (g.pipeline p).nextId given = .ok settings) :
    ∃ r, g.create p kind given = .ok r := by
  obtain ⟨g₁, hports, -⟩ := g.declarePorts_newNode p kind settings
  exact ⟨_, create_eq_ok.mpr ⟨settings, g₁, h, rfl, hports, rfl⟩⟩

theorem create_equipped {p : Ref .pipeline} {kind : NodeKind} {given : Value} {n : Ref .node}
    (h : g.create p kind given = .ok (g', n)) : g'.Equipped n ∧ (g'.node n).kind = kind := by
  obtain ⟨settings, g₁, -, rfl, hports, rfl⟩ := create_eq_ok.mp h
  obtain ⟨g₂, hsame, hequipped, hkind⟩ := g.declarePorts_newNode p kind settings
  cases hports.symm.trans hsame
  exact ⟨(modifyPipeline_grows _ _ _).equipped _ hequipped, hkind⟩

theorem create_grows {p : Ref .pipeline} {kind : NodeKind} {given : Value} {n : Ref .node}
    (h : g.create p kind given = .ok (g', n)) : g.Grows g' := by
  obtain ⟨settings, g₁, -, rfl, hports, rfl⟩ := create_eq_ok.mp h
  have hdeclares := declarePorts_declares hports
  have hkept := hdeclares.moves.kept
  have hkeep : ∀ q, g.ports.Has q → g₁.ports.Has q ∧ (g₁.port q).bare = (g.port q).bare :=
    fun q hq => ⟨(hkept.ports q hq).1, congrArg Port.bare (hdeclares.row q hq)⟩
  have hgrows : g.Grows g₁ := by
    refine .of_keep (fun m hm => ⟨(hkept.nodes m (Table.has_push hm)).1, ?_⟩) hkeep
      fun m _ group x f _ hf => hf.keep hkeep (hdeclares.row _ hf.template.1) (hdeclares.map f hf.has)
    have hne : m ≠ ⟨g.nodes.size⟩ := by
      rintro rfl
      exact absurd hm (Nat.lt_irrefl _)
    exact (hdeclares.node m hne).trans (Table.get_push_of_lt _ _ hm)
  exact hgrows.trans (modifyPipeline_grows _ _ _)

theorem create_created {p : Ref .pipeline} (hp : g.pipelines.Has p) {kind : NodeKind}
    {given : Value} {n : Ref .node} (h : g.create p kind given = .ok (g', n)) :
    g.Created p kind g' n := by
  obtain ⟨hequipped, hkind⟩ := create_equipped h
  have hgrows := create_grows h
  obtain ⟨settings, g₁, -, rfl, hports, rfl⟩ := create_eq_ok.mp h
  set row := g.newNode p kind settings
  have hdeclares := declarePorts_declares hports
  have hpipelines : g₁.pipelines = g.pipelines := hdeclares.pipelines
  have hp₁ : g₁.pipelines.Has p := by rw [hpipelines]; exact hp
  obtain ⟨-, hid, hhome⟩ := hdeclares.moves.kept.nodes _ (Table.has_push_self g.nodes row)
  have hrow : ({ g with nodes := (g.nodes.push row).1 } : Graph).node (g.nodes.push row).2 = row :=
    Table.get_push_self _ _
  rw [hrow] at hid hhome
  refine ⟨hgrows, hequipped, hkind, hid, hhome, Table.has_modify.mpr hp₁, ?_⟩
  rw [pipeline_modifyPipeline_self hp₁, Graph.pipeline, hpipelines]
  rfl

end FrameGraph.Graph
