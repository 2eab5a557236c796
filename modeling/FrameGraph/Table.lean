/-!
# Tables of objects

A graph keeps every object in a table and names it by a reference, the row's number. Rows are only
ever added and changed in place, so a reference stays valid and two objects never share one.

* `get_push_self`, `get_push_of_lt`: a new row gets a new reference and moves no other row.
* `get_modify_self`, `get_modify_of_ne`: a change touches the named row alone.
* `get_push`, `get_modify`: the same for every reference, whether it names a row or not.
* `modify_eq_self`: a change that leaves the row as it is.
-/

namespace FrameGraph

/-- The kinds of object a reference can name. -/
inductive Kind where
  | pipeline
  | node
  | port
  | portMap
  | queue
  | message
  | shelf
  deriving DecidableEq, Repr

/-- A reference to an object of one kind: the number of its row. -/
structure Ref (kind : Kind) where
  index : Nat
  deriving DecidableEq, Repr, Inhabited

structure Table (kind : Kind) (α : Type) where
  rows : Array α := #[]

namespace Table

variable {kind : Kind} {α : Type}

instance : Inhabited (Table kind α) := ⟨{}⟩

/-- The number of rows, which is also the number of the next row. -/
def size (t : Table kind α) : Nat := t.rows.size

/-- The row named by a reference. Every reference a graph hands out names a row of its table; for
any other the default row is read. -/
def get [Inhabited α] (t : Table kind α) (r : Ref kind) : α := t.rows[r.index]?.getD default

def push (t : Table kind α) (a : α) : Table kind α × Ref kind := (⟨t.rows.push a⟩, ⟨t.size⟩)

def modify (t : Table kind α) (r : Ref kind) (f : α → α) : Table kind α :=
  ⟨t.rows.modify r.index f⟩

def set (t : Table kind α) (r : Ref kind) (a : α) : Table kind α := t.modify r fun _ => a

def Has (t : Table kind α) (r : Ref kind) : Prop := r.index < t.size

instance (t : Table kind α) (r : Ref kind) : Decidable (t.Has r) := Nat.decLt _ _

/-- The references of all rows, oldest first. -/
def refs (t : Table kind α) : List (Ref kind) := (List.range t.size).map Ref.mk

/-! ## One equation per operation -/

@[simp] theorem size_push (t : Table kind α) (a : α) : (t.push a).1.size = t.size + 1 := by
  simp [push, size]

@[simp] theorem size_modify (t : Table kind α) (r : Ref kind) (f : α → α) :
    (t.modify r f).size = t.size := by
  simp [modify, size]

@[simp] theorem get_push_self [Inhabited α] (t : Table kind α) (a : α) :
    (t.push a).1.get (t.push a).2 = a := by
  simp [push, get, size]

theorem get_push_of_lt [Inhabited α] (t : Table kind α) (a : α) {r : Ref kind}
    (h : r.index < t.size) : (t.push a).1.get r = t.get r := by
  have hne : r.index ≠ t.rows.size := Nat.ne_of_lt h
  simp [push, get, Array.getElem?_push, hne]

theorem get_modify_self [Inhabited α] (t : Table kind α) {r : Ref kind} (f : α → α)
    (h : r.index < t.size) : (t.modify r f).get r = f (t.get r) := by
  have h' : r.index < t.rows.size := h
  simp only [modify, get]
  rw [Array.getElem?_modify, if_pos rfl, Array.getElem?_eq_getElem h']
  rfl

theorem get_modify_of_ne [Inhabited α] (t : Table kind α) {r s : Ref kind} (f : α → α)
    (h : r ≠ s) : (t.modify r f).get s = t.get s := by
  have hne : r.index ≠ s.index := fun he => h (by cases r; cases s; simp_all)
  simp [modify, get, Array.getElem?_modify, hne]

theorem has_modify {t : Table kind α} {r s : Ref kind} {f : α → α} :
    (t.modify r f).Has s ↔ t.Has s := by
  rw [Has, size_modify]
  rfl

theorem has_push {t : Table kind α} {a : α} {s : Ref kind} (h : t.Has s) : (t.push a).1.Has s := by
  rw [Has, size_push]
  exact Nat.lt_succ_of_lt h

theorem has_push_self (t : Table kind α) (a : α) : (t.push a).1.Has (t.push a).2 := by
  rw [Has, size_push]
  exact Nat.lt_succ_self _

/-- A pushed row is the only new one. -/
theorem eq_of_has_push {t : Table kind α} {a : α} {s : Ref kind} (h : (t.push a).1.Has s)
    (hnew : ¬t.Has s) : s = (t.push a).2 := by
  rw [Has, size_push] at h
  have hindex : s.index = t.size := Nat.le_antisymm (Nat.le_of_lt_succ h) (Nat.le_of_not_lt hnew)
  exact congrArg Ref.mk hindex

theorem has_or_eq_of_push {t : Table kind α} {a : α} {s : Ref kind} (h : (t.push a).1.Has s) :
    t.Has s ∨ s = (t.push a).2 := by
  by_cases hold : t.Has s
  · exact Or.inl hold
  · exact Or.inr (eq_of_has_push h hold)

theorem get_of_size_le [Inhabited α] (t : Table kind α) {r : Ref kind} (h : t.size ≤ r.index) :
    t.get r = default := by
  have h' : t.rows.size ≤ r.index := h
  simp [get, h']

theorem get_push [Inhabited α] (t : Table kind α) (a : α) (r : Ref kind) :
    (t.push a).1.get r = if r.index = t.size then a else t.get r := by
  by_cases h : r.index = t.size
  · have hr : r = (t.push a).2 := by cases r; exact congrArg Ref.mk h
    rw [if_pos h, hr, get_push_self]
  · have h' : r.index ≠ t.rows.size := h
    simp [push, get, Array.getElem?_push, h, h']

theorem get_modify [Inhabited α] (t : Table kind α) (r s : Ref kind) (f : α → α) :
    (t.modify r f).get s = if s = r ∧ t.Has r then f (t.get s) else t.get s := by
  by_cases hsr : s = r
  · subst hsr
    by_cases h : s.index < t.size
    · rw [get_modify_self t f h, if_pos ⟨rfl, h⟩]
    · rw [if_neg fun hc => h hc.2, get_of_size_le t (Nat.le_of_not_lt h),
        get_of_size_le _ (by rw [size_modify]; exact Nat.le_of_not_lt h)]
  · rw [get_modify_of_ne t f fun he => hsr he.symm, if_neg fun hc => hsr hc.1]

theorem modify_eq_self [Inhabited α] (t : Table kind α) {r : Ref kind} {f : α → α}
    (h : f (t.get r) = t.get r) : t.modify r f = t := by
  obtain ⟨rows⟩ := t
  refine congrArg Table.mk (Array.ext_getElem? fun i => ?_)
  rw [Array.getElem?_modify]
  split
  · next hi =>
    subst hi
    cases hrow : rows[r.index]? with
    | none => rfl
    | some a =>
      simp only [get, hrow, Option.getD_some] at h
      rw [Option.map_some, h]
  · rfl

end Table

end FrameGraph
