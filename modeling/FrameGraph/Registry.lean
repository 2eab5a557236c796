import FrameGraph.Port

/-!
# Registries

A node registers its ports in each direction: static ports under the label they have at that time,
and port maps under their name. No label is registered twice, and no static port has the name of a
registered map as its group, so a label names at most one port.

* `addPort_ok`, `addMap_ok`: what a registration that is not refused needs and does.
* `addPort_new`, `addMap_new`: what is new and in nobody's way is registered.
* `addPort_self`, `addMap_self`: what is registered can be registered again, which changes nothing.
-/

namespace FrameGraph

structure Registry where
  /-- Static ports by the label under which they were registered. -/
  ports : List (PortLabel × Ref .port) := []
  maps : List (String × Ref .portMap) := []
  deriving Inhabited

namespace Registry

def port? (r : Registry) (l : PortLabel) : Option (Ref .port) := r.ports.lookup l

def map? (r : Registry) (name : String) : Option (Ref .portMap) := r.maps.lookup name

/-- Registers a static port. Registering it again under the same label changes nothing. -/
def addPort (r : Registry) (l : PortLabel) (p : Ref .port) : Except Fault Registry :=
  match r.port? l with
  | some q =>
    if q ≠ p then .error (.refused (.portExists l.text))
    else if (r.map? l.group).isSome then .error (.refused (.portInGroup l.text l.group))
    else .ok r
  | none =>
    if (r.map? l.group).isSome then .error (.refused (.portInGroup l.text l.group))
    else .ok { r with ports := r.ports ++ [(l, p)] }

/-- Registers a port map. Registering it again under the same name changes nothing. -/
def addMap (r : Registry) (name : String) (m : Ref .portMap) : Except Fault Registry :=
  let overPort := r.ports.any fun e => e.1.group = name
  match r.map? name with
  | some n =>
    if n ≠ m then .error (.refused (.groupExists name))
    else if overPort then .error (.refused (.groupOverPort name))
    else .ok r
  | none =>
    if overPort then .error (.refused (.groupOverPort name))
    else .ok { r with maps := r.maps ++ [(name, m)] }

/-- All ports: the static ones in the order of registration, then those of each map. -/
def enumerate (r : Registry) (portMaps : Table .portMap PortMap) : List (Ref .port) :=
  r.ports.map Prod.snd ++ r.maps.flatMap fun e => (portMaps.get e.2).ports

theorem addPort_ok {r r' : Registry} {l : PortLabel} {p : Ref .port} (h : r.addPort l p = .ok r') :
    r.map? l.group = none ∧
      ((r.port? l = some p ∧ r' = r) ∨
        (r.port? l = none ∧ r' = { r with ports := r.ports ++ [(l, p)] })) := by
  unfold addPort at h
  split at h
  · split at h
    · cases h
    · split at h
      · cases h
      · cases h
        simp_all
  · split at h
    · cases h
    · cases h
      simp_all

theorem addMap_ok {r r' : Registry} {name : String} {m : Ref .portMap}
    (h : r.addMap name m = .ok r') :
    (∀ e ∈ r.ports, e.1.group ≠ name) ∧
      ((r.map? name = some m ∧ r' = r) ∨
        (r.map? name = none ∧ r' = { r with maps := r.maps ++ [(name, m)] })) := by
  unfold addMap at h
  by_cases hover : (r.ports.any fun e => e.1.group = name) = true
  · simp only [hover, if_true] at h
    split at h
    · split at h <;> cases h
    · cases h
  · simp only [hover, if_false, Bool.false_eq_true] at h
    refine ⟨fun e he hg => hover (List.any_eq_true.mpr ⟨e, he, by simp [hg]⟩), ?_⟩
    split at h
    · split at h
      · cases h
      · cases h
        simp_all
    · cases h
      simp_all

theorem addPort_new {r : Registry} {l : PortLabel} {p : Ref .port} (hport : r.port? l = none)
    (hmap : r.map? l.group = none) : r.addPort l p = .ok { r with ports := r.ports ++ [(l, p)] } := by
  simp [addPort, hport, hmap]

theorem addPort_self {r : Registry} {l : PortLabel} {p : Ref .port} (hport : r.port? l = some p)
    (hmap : r.map? l.group = none) : r.addPort l p = .ok r := by
  simp [addPort, hport, hmap]

theorem any_group_eq_false {r : Registry} {name : String}
    (hports : ∀ e ∈ r.ports, e.1.group ≠ name) :
    (r.ports.any fun e => e.1.group = name) = false := by
  rw [List.any_eq_false]
  exact fun e he => by simpa using hports e he

theorem addMap_self {r : Registry} {name : String} {m : Ref .portMap} (hmap : r.map? name = some m)
    (hports : ∀ e ∈ r.ports, e.1.group ≠ name) : r.addMap name m = .ok r := by
  simp [addMap, hmap, any_group_eq_false hports]

theorem addMap_new {r : Registry} {name : String} {m : Ref .portMap} (hmap : r.map? name = none)
    (hports : ∀ e ∈ r.ports, e.1.group ≠ name) :
    r.addMap name m = .ok { r with maps := r.maps ++ [(name, m)] } := by
  simp [addMap, hmap, any_group_eq_false hports]

end Registry

end FrameGraph
