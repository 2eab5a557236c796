import FrameGraph.Proofs.Graph.Frame
import FrameGraph.Proofs.Graph.Identity
import Mathlib.Data.List.Induction

/-!
# The listing of a node's ports

Static ports and port maps are registered through different checks, and the ports of a map appear
later without any. Together they exclude that a label occurs twice, so that going through all ports
finds the same port as the tables by key do.

* `Operation.ports`, `Operation.maps`, `Operation.requests`: what an operation registers and what is
  asked of a port map, `log`: the same for operations in order.
* `Operation.listing`: the ports of a node as the logs give them.
* `Operation.Listed`: each list grows by what is new in the log of an operation.
* `keyed?`: the port that the tables give for a label.
* `run_listing`: the listing of a node, which is determined by the logs, and the look-up in it.
-/

namespace FrameGraph

/-! ## Lists without repetitions -/

section Distinct

variable {α : Type} [BEq α] [LawfulBEq α] {l : List α}

theorem eraseDups_concat (l : List α) (a : α) :
    (l ++ [a]).eraseDups = if a ∈ l then l.eraseDups else l.eraseDups ++ [a] := by
  rw [List.eraseDups_append]
  by_cases ha : a ∈ l
  · simp [ha, List.removeAll]
  · simp only [ha, List.removeAll, if_false]
    rw [List.filter_cons_of_pos (by simp [ha])]
    rfl

theorem nodup_eraseDups (l : List α) : l.eraseDups.Nodup := by
  induction l using List.reverseRecOn with
  | nil => exact List.nodup_nil
  | append_singleton l a ih =>
    rw [eraseDups_concat]
    split
    · exact ih
    · next ha =>
      refine List.nodup_append.mpr ⟨ih, List.nodup_singleton a, fun b hb c hc hbc => ha ?_⟩
      rw [← List.mem_singleton.mp hc, ← hbc]
      exact List.mem_eraseDups.mp hb

theorem eraseDups_of_nodup (h : l.Nodup) : l.eraseDups = l := by
  induction l using List.reverseRecOn with
  | nil => rfl
  | append_singleton l a ih =>
    obtain ⟨hl, -, hne⟩ := List.nodup_append.mp h
    rw [eraseDups_concat, ih hl, if_neg fun ha => hne a ha a List.mem_cons_self rfl]

/-- What was left out before can be left out again. -/
theorem eraseDups_eraseDups_append (l l' : List α) :
    (l.eraseDups ++ l').eraseDups = (l ++ l').eraseDups := by
  have hmem : l'.removeAll l.eraseDups = l'.removeAll l := by
    refine List.filter_congr fun a _ => ?_
    rw [Bool.eq_iff_iff]
    simp
  rw [List.eraseDups_append, List.eraseDups_append, eraseDups_of_nodup (nodup_eraseDups l), hmem]

/-- Nothing new was added. -/
theorem eq_eraseDups_append_nil (h : l.Nodup) {l' new : List α} (hl : l' = l) (hnew : new = []) :
    l' = (l ++ new).eraseDups := by
  rw [hl, hnew, List.append_nil, eraseDups_of_nodup h]

theorem eraseDups_append_of_mem (h : l.Nodup) {a : α} (ha : a ∈ l) : (l ++ [a]).eraseDups = l := by
  rw [eraseDups_concat, if_pos ha, eraseDups_of_nodup h]

theorem eraseDups_append_of_not_mem (h : l.Nodup) {a : α} (ha : a ∉ l) :
    (l ++ [a]).eraseDups = l ++ [a] := by
  rw [eraseDups_concat, if_neg ha, eraseDups_of_nodup h]

end Distinct

/-! ## Values that know their keys -/

section Values

variable {κ α : Type} {l l' : List (κ × α)} (key : α → κ)

theorem nodup_values (hkeys : (l.map Prod.fst).Nodup) (hkey : ∀ e ∈ l, key e.2 = e.1) :
    (l.map Prod.snd).Nodup := by
  have hmap : (l.map Prod.snd).map key = l.map Prod.fst := by
    rw [List.map_map]
    exact List.map_congr_left hkey
  refine List.Nodup.of_map key ?_
  rw [hmap]
  exact hkeys

variable [DecidableEq κ]

theorem mem_values_iff (hkeys : (l.map Prod.fst).Nodup) (hkey : ∀ e ∈ l, key e.2 = e.1) {a : α} :
    a ∈ l.map Prod.snd ↔ l.lookup (key a) = some a := by
  constructor
  · intro ha
    obtain ⟨e, he, rfl⟩ := List.mem_map.mp ha
    rw [hkey e he]
    exact lookup_eq_some_of_mem hkeys he
  · intro ha
    exact List.mem_map.mpr ⟨_, mem_of_lookup_eq_some ha, rfl⟩

/-- A value was added under its key, unless it was there. -/
theorem values_eraseDups [BEq α] [LawfulBEq α] (hkeys : (l.map Prod.fst).Nodup)
    (hkey : ∀ e ∈ l, key e.2 = e.1) {a : α}
    (hadd : (l.lookup (key a) = some a ∧ l' = l) ∨
      (l.lookup (key a) = none ∧ l' = l ++ [(key a, a)])) :
    l'.map Prod.snd = (l.map Prod.snd ++ [a]).eraseDups := by
  have hnodup := nodup_values key hkeys hkey
  rcases hadd with ⟨hold, rfl⟩ | ⟨hnew, rfl⟩
  · have ha := (mem_values_iff key hkeys hkey).mpr hold
    rw [eraseDups_append_of_mem hnodup ha]
  · have ha : a ∉ l.map Prod.snd := fun ha => by
      rw [(mem_values_iff key hkeys hkey).mp ha] at hnew
      cases hnew
    rw [eraseDups_append_of_not_mem hnodup ha, List.map_append]
    rfl

end Values

namespace Graph

variable {g g' : Graph} {n : Ref .node} {d : Direction}

/-! ## Static ports and port maps -/

/-- The static ports of a node in the order of registration. -/
def staticPorts (g : Graph) (n : Ref .node) (d : Direction) : List (Ref .port) :=
  ((g.node n).registry d).ports.map Prod.snd

theorem portsOf_eq (g : Graph) (n : Ref .node) (d : Direction) :
    g.portsOf n d = g.staticPorts n d ++
      (g.portMapsOf n d).flatMap fun m => (g.portMap m).entries.map Prod.snd := by
  rw [portMapsOf, List.flatMap_map]
  rfl

/-- A node lists the same ports while its registries and port maps stay as they are. -/
theorem portsOf_congr (hnode : g'.node n = g.node n)
    (hmaps : ∀ f ∈ ((g.node n).registry d).maps, g'.portMap f.2 = g.portMap f.2) :
    g'.portsOf n d = g.portsOf n d := by
  rw [portsOf_eq, portsOf_eq, staticPorts, staticPorts, portMapsOf, portMapsOf, hnode]
  refine congrArg (_ ++ ·) (List.flatMap_congr fun k hk => ?_)
  obtain ⟨f, hf, rfl⟩ := List.mem_map.mp hk
  rw [hmaps f hf]

theorem Sound.nodup_staticPorts (h : g.Sound) (n : Ref .node) (d : Direction) :
    (g.staticPorts n d).Nodup :=
  have hr := h.registry n d
  nodup_values (fun p => (g.port p).label) hr.labels fun e he => (hr.port e he).2

theorem Sound.nodup_portMapsOf (h : g.Sound) (n : Ref .node) (d : Direction) :
    (g.portMapsOf n d).Nodup :=
  have hr := h.registry n d
  nodup_values (fun m => (g.portMap m).name) hr.names fun f hf => (hr.map f hf).2

theorem Sound.nodup_entries (h : g.Sound) (m : Ref .portMap) : (g.portMap m).entries.Nodup :=
  (h.portMap m).keys.of_map

theorem Sound.mem_staticPorts (h : g.Sound) {p : Ref .port} :
    p ∈ g.staticPorts n d ↔ ((g.node n).registry d).port? (g.port p).label = some p :=
  have hr := h.registry n d
  mem_values_iff (fun p => (g.port p).label) hr.labels fun e he => (hr.port e he).2

theorem Sound.mem_portMapsOf (h : g.Sound) {m : Ref .portMap} :
    m ∈ g.portMapsOf n d ↔ g.portMap? n d (g.portMap m).name = some m :=
  have hr := h.registry n d
  mem_values_iff (fun m => (g.portMap m).name) hr.names fun f hf => (hr.map f hf).2

/-- A port map has the keys of the ports that are listed under its name. -/
theorem Sound.key_of_listed (h : g.Sound) {p : Ref .port} (hp : p ∈ g.portsOf n d) {m : Ref .portMap}
    (hm : g.portMap? n d (g.port p).label.group = some m) :
    (g.port p).label.name ∈ (g.portMap m).entries.map Prod.fst := by
  have hregistry := h.registry n d
  rcases mem_portsOf.mp hp with ⟨e, he, rfl⟩ | ⟨f, hf, e, he, rfl⟩
  · -- Static ports have labels without the name of a map.
    refine absurd ?_ (hregistry.apart e he _ (mem_of_lookup_eq_some hm))
    rw [← (hregistry.port e he).2]
    rfl
  · have hlabel : (g.port e.2).label = ⟨(g.portMap f.2).name, e.1⟩ := ((h.portMap f.2).entry e he).2
    have hname : (g.portMap f.2).name = f.1 := (hregistry.map f hf).2
    have hsame : g.portMap? n d f.1 = some f.2 := lookup_eq_some_of_mem hregistry.names hf
    rw [hlabel] at hm ⊢
    rw [hname, hsame] at hm
    cases hm
    exact List.mem_map_of_mem he

/-! ## One registration -/

theorem registerPort_staticPorts (h : g.Sound) (hn : g.nodes.Has n) {p : Ref .port}
    (hok : g.registerPort n d p = .ok g') :
    g'.staticPorts n d = (g.staticPorts n d ++ [p]).eraseDups := by
  have hsound := h.registry n d
  obtain ⟨r, hr, hok⟩ := bind_eq_ok.mp hok
  cases hok
  rw [staticPorts, registry_modifyNode, if_pos ⟨rfl, rfl, hn⟩]
  obtain ⟨-, hadd⟩ := Registry.addPort_ok hr
  refine values_eraseDups (fun p => (g.port p).label) hsound.labels
    (fun e he => (hsound.port e he).2) ?_
  exact hadd.imp (fun hold => ⟨hold.1, congrArg _ hold.2⟩) fun hnew => ⟨hnew.1, congrArg _ hnew.2⟩

theorem registerMap_portMapsOf (h : g.Sound) (hn : g.nodes.Has n) {m : Ref .portMap}
    (hok : g.registerMap n d m = .ok g') :
    g'.portMapsOf n d = (g.portMapsOf n d ++ [m]).eraseDups := by
  have hsound := h.registry n d
  obtain ⟨r, hr, hok⟩ := bind_eq_ok.mp hok
  cases hok
  rw [portMapsOf, registry_modifyNode, if_pos ⟨rfl, rfl, hn⟩]
  obtain ⟨-, hadd⟩ := Registry.addMap_ok hr
  refine values_eraseDups (fun m => (g.portMap m).name) hsound.names
    (fun f hf => (hsound.map f hf).2) ?_
  exact hadd.imp (fun hold => ⟨hold.1, congrArg _ hold.2⟩) fun hnew => ⟨hnew.1, congrArg _ hnew.2⟩

theorem registerPort_portMapsOf {m : Ref .node} {e : Direction} {p : Ref .port}
    (hok : g.registerPort m e p = .ok g') : g'.portMapsOf n d = g.portMapsOf n d := by
  obtain ⟨r, hr, hok⟩ := bind_eq_ok.mp hok
  cases hok
  rw [portMapsOf, registry_modifyNode]
  split
  · next hc =>
    obtain ⟨rfl, rfl, -⟩ := hc
    obtain ⟨-, ⟨-, rfl⟩ | ⟨-, rfl⟩⟩ := Registry.addPort_ok hr <;> rfl
  · rfl

theorem registerMap_staticPorts {m : Ref .node} {e : Direction} {f : Ref .portMap}
    (hok : g.registerMap m e f = .ok g') : g'.staticPorts n d = g.staticPorts n d := by
  obtain ⟨r, hr, hok⟩ := bind_eq_ok.mp hok
  cases hok
  rw [staticPorts, registry_modifyNode]
  split
  · next hc =>
    obtain ⟨rfl, rfl, -⟩ := hc
    obtain ⟨-, ⟨-, rfl⟩ | ⟨-, rfl⟩⟩ := Registry.addMap_ok hr <;> rfl
  · rfl

theorem registry_of_elsewhere {m : Ref .node} {e : Direction} (hne : ¬(n = m ∧ d = e))
    (r : Registry) :
    ((g.modifyNode m fun node => node.setRegistry e r).node n).registry d =
      (g.node n).registry d := by
  rw [registry_modifyNode, if_neg fun hc => hne ⟨hc.1, hc.2.1⟩]

/-! ## Registering several objects -/

section Several

variable {kind : Kind} {register : Graph → Ref kind → Except Fault Graph}

/-- The objects of a list that are registered: those up to the first that is refused. -/
def registered (register : Graph → Ref kind → Except Fault Graph) (g : Graph) :
    List (Ref kind) → List (Ref kind)
  | [] => []
  | r :: rest =>
    match register g r with
    | .ok g' => r :: registered register g' rest
    | .error _ => []

theorem registerEach_listed {view : Graph → List (Ref kind)} {P : Graph → Prop}
    (hnodup : ∀ g, P g → (view g).Nodup) (refs : List (Ref kind))
    (hstep : ∀ g g', ∀ r ∈ refs, P g → register g r = .ok g' →
      P g' ∧ view g' = (view g ++ [r]).eraseDups) (hg : P g) :
    view (registerEach register g refs).1 = (view g ++ registered register g refs).eraseDups := by
  induction refs generalizing g with
  | nil =>
    rw [registered, List.append_nil]
    exact (eraseDups_of_nodup (hnodup g hg)).symm
  | cons r refs ih =>
    cases hr : register g r with
    | ok g₁ =>
      obtain ⟨hg₁, hview⟩ := hstep g g₁ r List.mem_cons_self hg hr
      have hrest := ih (fun g g' s hs => hstep g g' s (List.mem_cons_of_mem r hs)) hg₁
      simp only [registerEach, registered, hr]
      rw [hrest, hview, eraseDups_eraseDups_append, List.append_assoc, List.singleton_append]
    | error fault =>
      simp only [registerEach, registered, hr, List.append_nil]
      exact (eraseDups_of_nodup (hnodup g hg)).symm

end Several

end Graph

/-! ## Operations -/

namespace Operation

open FrameGraph.Graph

/-- The ports that an operation registers on a node in a direction. A new node registers those of its
kind. -/
def ports (g : Graph) (n : Ref .node) (d : Direction) : Operation → List (Ref .port)
  | .create p kind given =>
    match g.create p kind given with
    | .ok (g', m) => if n = m then g'.staticPorts n d else []
    | .error _ => []
  | .registerPorts m e refs =>
    if n = m ∧ d = e then g.registered (fun g p => g.registerPort m e p) refs else []
  | _ => []

/-- The port maps that an operation registers on a node in a direction. -/
def maps (g : Graph) (n : Ref .node) (d : Direction) : Operation → List (Ref .portMap)
  | .create p kind given =>
    match g.create p kind given with
    | .ok (g', m) => if n = m then g'.portMapsOf n d else []
    | .error _ => []
  | .registerMaps m e refs =>
    if n = m ∧ d = e then g.registered (fun g f => g.registerMap m e f) refs else []
  | _ => []

/-- The key that is asked of a port map, with the port that is given for it. -/
def requests (g : Graph) (m : Ref .portMap) : Operation → List (String × Ref .port)
  | .getOrCreate f key =>
    if m = f then
      match g.getOrCreate f key with
      | .ok (_, p) => [(key, p)]
      | .error _ => []
    else []
  | _ => []

/-- What operations in order add to a log. -/
def log {α : Type} (f : Graph → Operation → List α) : Graph → List Operation → List α
  | _, [] => []
  | g, op :: ops => f g op ++ log f (op.after g) ops

/-- The ports of a node that the logs of operations give: the static ports as they were first
registered, then those of each map, the maps as they were first registered and the keys as they were
first asked for. -/
def listing (g : Graph) (ops : List Operation) (n : Ref .node) (d : Direction) :
    List (Ref .port) :=
  (g.staticPorts n d ++ log (fun g => ports g n d) g ops).eraseDups ++
    (g.portMapsOf n d ++ log (fun g => maps g n d) g ops).eraseDups.flatMap fun m =>
      ((g.portMap m).entries ++ log (fun g => requests g m) g ops).eraseDups.map Prod.snd

variable {g : Graph} {n : Ref .node} {d : Direction}

/-- The lists of a node and of port maps after an operation: what is new in the log is added at the
end. -/
structure Listed (n : Ref .node) (d : Direction) (g : Graph) (op : Operation) : Prop where
  ports : (op.after g).staticPorts n d = (g.staticPorts n d ++ op.ports g n d).eraseDups
  maps : (op.after g).portMapsOf n d = (g.portMapsOf n d ++ op.maps g n d).eraseDups
  entries : ∀ m, ((op.after g).portMap m).entries =
    ((g.portMap m).entries ++ op.requests g m).eraseDups

namespace Listed

variable {op : Operation}

theorem of_quiet (hs : g.Sound) (hquiet : Quiet n g (op.after g)) (hports : op.ports g n d = [])
    (hmaps : op.maps g n d = []) (hrequests : ∀ m, op.requests g m = []) : Listed n d g op := by
  refine ⟨eq_eraseDups_append_nil (hs.nodup_staticPorts n d) ?_ hports,
    eq_eraseDups_append_nil (hs.nodup_portMapsOf n d) ?_ hmaps,
    fun m => eq_eraseDups_append_nil (hs.nodup_entries m) (hquiet.entries m) (hrequests m)⟩
  · rw [staticPorts, hquiet.registry]
    rfl
  · rw [portMapsOf, hquiet.registry]
    rfl

end Listed

theorem create_listed (hs : g.Sound) {p : Ref .pipeline} (hp : g.pipelines.Has p) (kind : NodeKind)
    (given : Value) : Listed n d g (.create p kind given) := by
  cases h : g.create p kind given with
  | error fault =>
    have hsame : (create p kind given).after g = g := by rw [after, h]; rfl
    refine .of_quiet hs ?_ (by rw [ports, h]) (by rw [maps, h]) fun m => rfl
    rw [hsame]
    exact .refl g n
  | ok r =>
    obtain ⟨g', m⟩ := r
    have hafter : (create p kind given).after g = g' := by rw [after, h]; rfl
    by_cases hnm : n = m
    · subst hnm
      obtain ⟨settings, g₁, -, hn, hports, hg'⟩ := create_eq_ok.mp h
      have hs' : g'.Sound := by
        rw [← hafter]
        exact hs.after hp
      -- The node is new, so nothing was registered on it before.
      have hnone : (g.node n).registry d = {} := by
        have hdefault : g.node n = default := by
          rw [hn]
          exact Table.get_of_size_le _ (Nat.le_refl _)
        rw [hdefault]
        cases d <;> rfl
      refine ⟨?_, ?_, fun f => ?_⟩
      · rw [hafter, ports, h, staticPorts, staticPorts, hnone]
        simp only [if_true, List.map_nil, List.nil_append]
        exact (eraseDups_of_nodup (hs'.nodup_staticPorts n d)).symm
      · rw [hafter, maps, h, portMapsOf, portMapsOf, hnone]
        simp only [if_true, List.map_nil, List.nil_append]
        exact (eraseDups_of_nodup (hs'.nodup_portMapsOf n d)).symm
      · refine eq_eraseDups_append_nil (hs.nodup_entries f) ?_ rfl
        rw [hafter, hg']
        exact (declarePorts_declares hports).entries f
    · refine .of_quiet hs ?_ (by rw [ports, h]; exact if_neg hnm) (by rw [maps, h]; exact if_neg hnm)
        fun f => rfl
      rw [hafter]
      exact create_quiet h hnm

theorem registerPorts_listed (hs : g.Sound) {m : Ref .node} {e : Direction}
    {refs : List (Ref .port)} (hfits : (registerPorts m e refs).Fits g) :
    Listed n d g (.registerPorts m e refs) := by
  refine ⟨?_, ?_, fun f => ?_⟩
  · rw [after, ports]
    by_cases hc : n = m ∧ d = e
    · obtain ⟨rfl, rfl⟩ := hc
      rw [if_pos ⟨rfl, rfl⟩]
      refine registerEach_listed
        (P := fun g => g.Sound ∧ g.nodes.Has n ∧ ∀ p ∈ refs, g.ports.Has p)
        (fun g hg => hg.1.nodup_staticPorts n d) refs ?_ ⟨hs, hfits⟩
      rintro g g' p hp ⟨hs, hn, hrefs⟩ hok
      have hmove := registerPort_move (hrefs p hp) hok
      have hkept := hmove.kept
      refine ⟨⟨hs.move hmove, (hkept.nodes n hn).1, fun q hq => ?_⟩,
        registerPort_staticPorts hs hn hok⟩
      exact (hkept.ports q (hrefs q hq)).1
    · refine eq_eraseDups_append_nil (hs.nodup_staticPorts n d) ?_ (if_neg hc)
      refine registerEach_same (fun g => g.staticPorts n d) (fun g g' p hok => ?_) refs
      obtain ⟨r, -, hok⟩ := bind_eq_ok.mp hok
      cases hok
      rw [staticPorts, registry_of_elsewhere hc]
      rfl
  · refine eq_eraseDups_append_nil (hs.nodup_portMapsOf n d) ?_ rfl
    exact registerEach_same (fun g => g.portMapsOf n d)
      (fun _ _ _ hok => registerPort_portMapsOf hok) refs
  · refine eq_eraseDups_append_nil (hs.nodup_entries f) ?_ rfl
    rw [Graph.portMap, framed _ hfits .portMaps rfl]
    rfl

theorem registerMaps_listed (hs : g.Sound) {m : Ref .node} {e : Direction}
    {refs : List (Ref .portMap)} (hfits : (registerMaps m e refs).Fits g) :
    Listed n d g (.registerMaps m e refs) := by
  refine ⟨?_, ?_, fun f => ?_⟩
  · refine eq_eraseDups_append_nil (hs.nodup_staticPorts n d) ?_ rfl
    exact registerEach_same (fun g => g.staticPorts n d)
      (fun _ _ _ hok => registerMap_staticPorts hok) refs
  · rw [after, maps]
    by_cases hc : n = m ∧ d = e
    · obtain ⟨rfl, rfl⟩ := hc
      rw [if_pos ⟨rfl, rfl⟩]
      refine registerEach_listed
        (P := fun g => g.Sound ∧ g.nodes.Has n ∧ ∀ f ∈ refs, g.portMaps.Has f)
        (fun g hg => hg.1.nodup_portMapsOf n d) refs ?_ ⟨hs, hfits⟩
      rintro g g' f hf ⟨hs, hn, hrefs⟩ hok
      have hmove := registerMap_move (hrefs f hf) hok
      refine ⟨⟨hs.move hmove, (hmove.kept.nodes n hn).1, fun f' hf' => ?_⟩,
        registerMap_portMapsOf hs hn hok⟩
      exact (hmove.map_kept (hrefs f' hf')).1
    · refine eq_eraseDups_append_nil (hs.nodup_portMapsOf n d) ?_ (if_neg hc)
      refine registerEach_same (fun g => g.portMapsOf n d) (fun g g' f hok => ?_) refs
      obtain ⟨r, -, hok⟩ := bind_eq_ok.mp hok
      cases hok
      rw [portMapsOf, registry_of_elsewhere hc]
      rfl
  · refine eq_eraseDups_append_nil (hs.nodup_entries f) ?_ rfl
    rw [Graph.portMap, framed _ hfits .portMaps rfl]
    rfl

theorem getOrCreate_listed (hs : g.Sound) {f : Ref .portMap} (hf : g.portMaps.Has f)
    (key : String) : Listed n d g (.getOrCreate f key) := by
  cases h : g.getOrCreate f key with
  | error fault =>
    have hsame : (getOrCreate f key).after g = g := by rw [after, h]; rfl
    refine .of_quiet hs ?_ rfl rfl fun m => ?_
    · rw [hsame]
      exact .refl g n
    · rw [requests, h]
      exact ite_self _
  | ok r =>
    obtain ⟨g', p⟩ := r
    have hafter : (getOrCreate f key).after g = g' := by rw [after, h]; rfl
    have hrequests : ∀ m, requests g m (.getOrCreate f key) = if m = f then [(key, p)] else [] :=
      fun m => by rw [requests, h]
    have hnodes : g'.nodes = g.nodes := by
      rcases getOrCreate_cases h with ⟨-, hsame⟩ | ⟨-, g₁, -, hmade, hg'⟩
      · rw [hsame]
      · rw [hg']
        exact hmade.nodes
    have hentries : ∀ m, (g'.portMap m).entries =
        ((g.portMap m).entries ++ requests g m (.getOrCreate f key)).eraseDups := by
      intro m
      have hnodup := hs.nodup_entries m
      rw [hrequests]
      by_cases hm : m = f
      · subst hm
        rw [if_pos rfl]
        rcases getOrCreate_cases h with ⟨hkey, hsame⟩ | ⟨hkey, g₁, -, hmade, hg'⟩
        · rw [hsame, eraseDups_append_of_mem hnodup (mem_of_lookup_eq_some hkey)]
        · have hnew : (key, p) ∉ (g.portMap m).entries := fun hmem =>
            ne_of_lookup_eq_none hkey _ hmem rfl
          rw [eraseDups_append_of_not_mem hnodup hnew, hg', Graph.portMap, hmade.portMaps,
            Table.get_modify_self _ _ hf]
          rfl
      · refine eq_eraseDups_append_nil hnodup ?_ (if_neg hm)
        rcases getOrCreate_cases h with ⟨-, hsame⟩ | ⟨-, g₁, -, hmade, hg'⟩
        · rw [hsame]
        · rw [hg', Graph.portMap, hmade.portMaps, Table.get_modify_of_ne _ _ (Ne.symm hm)]
          rfl
    refine ⟨?_, ?_, fun m => ?_⟩
    · refine eq_eraseDups_append_nil (hs.nodup_staticPorts n d) ?_ rfl
      rw [hafter, staticPorts, Graph.node, hnodes]
      rfl
    · refine eq_eraseDups_append_nil (hs.nodup_portMapsOf n d) ?_ rfl
      rw [hafter, portMapsOf, Graph.node, hnodes]
      rfl
    · rw [hafter]
      exact hentries m

theorem listed (op : Operation) (hs : g.Sound) (hfits : op.Fits g) (n : Ref .node) (d : Direction) :
    Listed n d g op := by
  cases op with
  | create p kind given => exact create_listed hs hfits kind given
  | registerPorts m e refs => exact registerPorts_listed hs hfits
  | registerMaps m e refs => exact registerMaps_listed hs hfits
  | getOrCreate f key => exact getOrCreate_listed hs hfits key
  | _ => exact .of_quiet hs (quiet _ hfits rfl) rfl rfl fun _ => rfl

/-- A list that grows by what is new in the log of each operation is determined by the log of all. -/
theorem afterAll_listed {α : Type} [BEq α] [LawfulBEq α] (view : Graph → List α)
    {f : Graph → Operation → List α} (hnodup : ∀ g, g.Sound → (view g).Nodup)
    (hstep : ∀ g op, g.Sound → op.Fits g → view (op.after g) = (view g ++ f g op).eraseDups)
    (hs : g.Sound) (h : History) {ops : List Operation} (hfits : AllFit g ops) :
    view (afterAll (g, h) ops).1 = (view g ++ log f g ops).eraseDups := by
  induction ops generalizing g h with
  | nil =>
    rw [log, List.append_nil]
    exact (eraseDups_of_nodup (hnodup g hs)).symm
  | cons op ops ih =>
    have hrest := ih (hs.after hfits.1) (h ++ (op.event? g).toList) hfits.2
    rw [afterAll, hrest, hstep g op hs hfits.1, eraseDups_eraseDups_append, log, List.append_assoc]

end Operation

namespace Graph

variable {g : Graph} {n : Ref .node} {d : Direction}

/-! ## Look-up -/

/-- The port that the tables of a node give for a label: the one under the name as its key in the map
that the group names, or else the static port registered under the label. -/
def keyed? (g : Graph) (n : Ref .node) (d : Direction) (l : PortLabel) : Option (Ref .port) :=
  match g.portMap? n d l.group with
  | some m => (g.portMap m).get? l.name
  | none => ((g.node n).registry d).port? l

theorem Sound.keyed?_eq_some_iff (h : g.Sound) {l : PortLabel} {p : Ref .port} :
    g.keyed? n d l = some p ↔ p ∈ g.portsOf n d ∧ (g.port p).label = l := by
  have hr := h.registry n d
  rw [keyed?]
  cases hmap : g.portMap? n d l.group with
  | some m =>
    have hm := mem_of_lookup_eq_some hmap
    have hname : (g.portMap m).name = l.group := (hr.map _ hm).2
    dsimp only
    constructor
    · intro hkey
      have he := mem_of_lookup_eq_some hkey
      refine ⟨mem_portsOf.mpr (Or.inr ⟨_, hm, _, he, rfl⟩), ?_⟩
      have hlabel : (g.port p).label = ⟨(g.portMap m).name, l.name⟩ := ((h.portMap m).entry _ he).2
      rw [hlabel, hname]
    · rintro ⟨hp, hl⟩
      rcases mem_portsOf.mp hp with ⟨e, he, rfl⟩ | ⟨f, hf, e, he, rfl⟩
      · -- No static port has the name of a map as its group.
        have hlabel : (g.port e.2).label = e.1 := (hr.port e he).2
        exact absurd (by rw [← hlabel, hl]) (hr.apart e he _ hm)
      · have hlabel : (g.port e.2).label = ⟨(g.portMap f.2).name, e.1⟩ :=
          ((h.portMap f.2).entry e he).2
        have hfname : (g.portMap f.2).name = f.1 := (hr.map f hf).2
        rw [hlabel, hfname] at hl
        subst hl
        have hsame : g.portMap? n d f.1 = some f.2 := lookup_eq_some_of_mem hr.names hf
        cases hmap.symm.trans hsame
        exact lookup_eq_some_of_mem (h.portMap f.2).keys he
  | none =>
    dsimp only
    constructor
    · intro hport
      have he := mem_of_lookup_eq_some hport
      exact ⟨mem_portsOf.mpr (Or.inl ⟨_, he, rfl⟩), (hr.port _ he).2⟩
    · rintro ⟨hp, hl⟩
      rcases mem_portsOf.mp hp with ⟨e, he, rfl⟩ | ⟨f, hf, e, he, rfl⟩
      · have hlabel : (g.port e.2).label = e.1 := (hr.port e he).2
        rw [← hl, hlabel]
        exact lookup_eq_some_of_mem hr.labels he
      · have hlabel : (g.port e.2).label = ⟨(g.portMap f.2).name, e.1⟩ :=
          ((h.portMap f.2).entry e he).2
        have hfname : (g.portMap f.2).name = f.1 := (hr.map f hf).2
        rw [hlabel, hfname] at hl
        subst hl
        exact absurd rfl (ne_of_lookup_eq_none hmap f hf)

theorem Sound.port?_eq_keyed? (h : g.Sound) (n : Ref .node) (d : Direction) (l : PortLabel) :
    g.port? n d l = g.keyed? n d l := by
  refine Option.ext fun p => ?_
  rw [h.port?_eq_some_iff, h.keyed?_eq_some_iff]

/-! ## Registering again -/

theorem setRegistry_same (g : Graph) (n : Ref .node) (d : Direction) :
    (g.modifyNode n fun node => node.setRegistry d ((g.node n).registry d)) = g := by
  have hnodes : g.nodes.modify n (fun node => node.setRegistry d ((g.node n).registry d)) =
      g.nodes := Table.modify_eq_self _ (Node.setRegistry_self _ _)
  rw [modifyNode, hnodes]

theorem Sound.registerPort_of_mem (h : g.Sound) {p : Ref .port} (hp : p ∈ g.staticPorts n d) :
    g.registerPort n d p = .ok g := by
  have hr := h.registry n d
  have hport := h.mem_staticPorts.mp hp
  have he := mem_of_lookup_eq_some hport
  have hmap : ((g.node n).registry d).map? (g.port p).label.group = none := by
    refine List.lookup_eq_none_iff.mpr fun f hf => ?_
    exact bne_iff_ne.mpr (hr.apart _ he f hf)
  rw [registerPort, Registry.addPort_self hport hmap]
  exact congrArg Except.ok (g.setRegistry_same n d)

theorem Sound.registerMap_of_mem (h : g.Sound) {m : Ref .portMap} (hm : m ∈ g.portMapsOf n d) :
    g.registerMap n d m = .ok g := by
  have hr := h.registry n d
  have hmap := h.mem_portMapsOf.mp hm
  have hf := mem_of_lookup_eq_some hmap
  have hports : ∀ e ∈ ((g.node n).registry d).ports, e.1.group ≠ (g.portMap m).name :=
    fun e he => hr.apart e he _ hf
  rw [registerMap, Registry.addMap_self hmap hports]
  exact congrArg Except.ok (g.setRegistry_same n d)

theorem registerEach_refused {kind : Kind} {register : Graph → Ref kind → Except Fault Graph}
    {r : Ref kind} {fault : Fault} (h : register g r = .error fault) :
    registerEach register g [r] = (g, some fault) := by
  rw [registerEach, h]

/-! ## Runs -/

/-- The ports of a node in a direction after any operations. No two have the same label. They are the
static ports in the order in which they were first registered, then those of each map in the order in
which the maps were first registered and the keys first asked for. Going through them finds what the
tables give for a label, and so every port under its own label. A registration of one object that is
refused, and one of an object that is registered, change nothing. -/
theorem run_listing {h : History} (hrun : Run g h) {ops : List Operation}
    (hfits : Operation.AllFit g ops) (n : Ref .node) (d : Direction) :
    let g' := (Operation.afterAll (g, h) ops).1
    ((g'.portsOf n d).map fun p => (g'.port p).label).Nodup ∧
      g'.portsOf n d = Operation.listing g ops n d ∧
      (∀ l, g'.port? n d l = g'.keyed? n d l) ∧
      (∀ p ∈ g'.portsOf n d, g'.port? n d (g'.port p).label = some p) ∧
      (∀ p fault, g'.registerPort n d p = .error fault →
        (Operation.registerPorts n d [p]).after g' = g') ∧
      (∀ m fault, g'.registerMap n d m = .error fault →
        (Operation.registerMaps n d [m]).after g' = g') ∧
      (∀ p ∈ g'.staticPorts n d, g'.registerPort n d p = .ok g') ∧
      ∀ m ∈ g'.portMapsOf n d, g'.registerMap n d m = .ok g' := by
  intro g'
  have hs := hrun.sound
  have hs' : g'.Sound := (hrun.all hfits).sound
  have hports := Operation.afterAll_listed (fun g => g.staticPorts n d)
    (fun _ hs => hs.nodup_staticPorts n d)
    (fun _ op hs hfits => (op.listed hs hfits n d).ports) hs h hfits
  have hmaps := Operation.afterAll_listed (fun g => g.portMapsOf n d)
    (fun _ hs => hs.nodup_portMapsOf n d)
    (fun _ op hs hfits => (op.listed hs hfits n d).maps) hs h hfits
  have hentries := fun m => Operation.afterAll_listed (fun g => (g.portMap m).entries)
    (fun _ hs => hs.nodup_entries m)
    (fun _ op hs hfits => (op.listed hs hfits n d).entries m) hs h hfits
  refine ⟨hs'.labels_nodup n d, ?_, hs'.port?_eq_keyed? n d, fun _ => hs'.port?_of_mem, ?_, ?_,
    fun _ => hs'.registerPort_of_mem, fun _ => hs'.registerMap_of_mem⟩
  · rw [portsOf_eq, hports, hmaps]
    refine congrArg (_ ++ ·) (List.flatMap_congr fun m _ => ?_)
    exact congrArg (List.map Prod.snd) (hentries m)
  · intro p fault hfault
    rw [Operation.after, registerEach_refused hfault]
  · intro m fault hfault
    rw [Operation.after, registerEach_refused hfault]

/-- An input is registered beside a map after a port of the map was asked for, an input that would
take a label of the map is refused, and a key is asked for again. -/
def besideMap : List Operation :=
  [.newPipeline (.text "p"), .create ⟨0⟩ .frameSync .null,
    .newInput ⟨0⟩ ⟨"", "extra"⟩ .single [] (.bool true) (.int 1) (.bool true), .getOrCreate ⟨0⟩ "b",
    .newInput ⟨0⟩ ⟨"inputs", "a"⟩ .single [] (.bool true) (.int 1) (.bool true),
    .registerPorts ⟨0⟩ .input [⟨2⟩, ⟨4⟩], .getOrCreate ⟨0⟩ "a", .getOrCreate ⟨0⟩ "b"]

theorem fit_besideMap : Operation.AllFit {} besideMap := by
  refine ⟨trivial, ?_, ?_, ?_, ?_, ?_, ?_, ?_, trivial⟩
  all_goals
    simp only [Operation.Fits]
    decide +kernel

theorem besideMap_listing :
    (Operation.afterAll ({}, []) besideMap).1.portsOf ⟨0⟩ .input = [⟨2⟩, ⟨3⟩, ⟨5⟩] ∧
      (Operation.afterAll ({}, []) besideMap).1.port? ⟨0⟩ .input ⟨"inputs", "a"⟩ = some ⟨5⟩ := by
  obtain ⟨-, hports, hlookup, -⟩ := run_listing Run.start fit_besideMap ⟨0⟩ .input
  refine ⟨hports.trans ?_, (hlookup ⟨"inputs", "a"⟩).trans ?_⟩
  all_goals decide +kernel

end Graph

end FrameGraph
