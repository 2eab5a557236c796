import FrameGraph.Session.Command
import Mathlib.Tactic.SplitIfs

/-!
# Arrays hold elements of their type

An array has as many elements as its shape says, and the elements of an integer type are integers
of its range. Pixels that are given make such an array, whatever they are given as.

* `ElementType.holds_of_store`: what is stored is in range.
* `PixelArray.Sound`: what is true of an array; `PixelSource.array_sound`: of one that is given.
-/

namespace FrameGraph

/-! ## Elements -/

namespace ElementType

variable {t : ElementType} {v e : Value} {low high : Int}

/-- An element of an integer type is an integer of its range. -/
def Holds (t : ElementType) (v : Value) : Prop :=
  ∀ low high, t.range? = some (low, high) → ∃ n, v = .int n ∧ low ≤ n ∧ n ≤ high

theorem zero_of_range? (h : t.range? = some (low, high)) : low ≤ 0 ∧ 0 ≤ high := by
  cases t <;> simp [range?] at h <;> omega

theorem store_of_range? (h : t.range? = some (low, high)) :
    t.store v = t.storeInteger (low, high) v := by
  cases t <;> cases h <;> rfl

/-- An integer beyond the range is brought back into it. -/
theorem wrap_bounds (n : Int) (h : low ≤ high) :
    low ≤ low + (n - low) % (high - low + 1) ∧ low + (n - low) % (high - low + 1) ≤ high := by
  have hne : high - low + 1 ≠ 0 := by omega
  have hnonneg := Int.emod_nonneg (n - low) hne
  have hlt := Int.emod_lt_of_pos (n - low) (by omega : 0 < high - low + 1)
  omega

theorem storeInteger_bounds (h : low ≤ high) (he : t.storeInteger (low, high) v = .ok e) :
    ∃ n, e = .int n ∧ low ≤ n ∧ n ≤ high := by
  obtain ⟨n, -, he⟩ := bind_eq_ok.mp he
  by_cases hn : low ≤ n ∧ n ≤ high
  · simp only [if_pos hn] at he
    cases he
    exact ⟨n, rfl, hn⟩
  · simp only [if_neg hn] at he
    split_ifs at he
    cases he
    exact ⟨_, rfl, wrap_bounds n h⟩

theorem holds_of_store (h : t.store v = .ok e) : t.Holds e := by
  intro low high hr
  rw [store_of_range? hr] at h
  obtain ⟨hlow, hhigh⟩ := zero_of_range? hr
  exact storeInteger_bounds (Int.le_trans hlow hhigh) h

end ElementType

namespace PixelArray

variable {a : PixelArray} {t : ElementType} {vs stored : List Value}

theorem holds_of_mapM (h : vs.mapM t.store = .ok stored) :
    stored.length = vs.length ∧ ∀ e ∈ stored, t.Holds e := by
  induction vs generalizing stored with
  | nil =>
    cases h
    exact ⟨rfl, nofun⟩
  | cons v vs ih =>
    rw [List.mapM_cons] at h
    obtain ⟨e, he, h⟩ := bind_eq_ok.mp h
    obtain ⟨rest, hrest, h⟩ := bind_eq_ok.mp h
    cases h
    obtain ⟨hlength, hholds⟩ := ih hrest
    refine ⟨congrArg Nat.succ hlength, fun e' he' => ?_⟩
    rcases List.mem_cons.mp he' with rfl | he'
    · exact ElementType.holds_of_store he
    · exact hholds e' he'

/-! ## Numbers of elements -/

theorem count_cons (n : Nat) (shape : List Nat) : count (n :: shape) = n * count shape := by
  have h : ∀ (l : List Nat) (k : Nat), l.foldl (· * ·) k = k * l.foldl (· * ·) 1 := by
    intro l
    induction l with
    | nil => simp
    | cons m l ih =>
      intro k
      rw [List.foldl_cons, List.foldl_cons, ih (k * m), ih (1 * m), Nat.one_mul, Nat.mul_assoc]
  unfold count
  rw [List.foldl_cons, h, Nat.one_mul]

mutual

/-- Nested lists of a shape have as many values as the shape says. -/
theorem length_flatten : ∀ {shape : List Nat} {v : Value} {vs : List Value},
    flatten shape v = .ok vs → vs.length = count shape
  | [], v, vs, h => by
    cases v <;> cases h <;> rfl
  | n :: shape, .list items, vs, h => by
    unfold flatten at h
    split at h
    · rename_i hn
      rw [length_flattenItems h, hn, count_cons]
    · cases h

theorem length_flattenItems : ∀ {shape : List Nat} {items vs : List Value},
    flattenItems shape items = .ok vs → vs.length = items.length * count shape
  | _, [], vs, h => by
    cases h
    simp
  | shape, x :: rest, vs, h => by
    unfold flattenItems at h
    obtain ⟨first, hfirst, h⟩ := bind_eq_ok.mp h
    obtain ⟨others, hothers, h⟩ := bind_eq_ok.mp h
    cases h
    rw [List.length_append, length_flatten hfirst, length_flattenItems hothers,
      List.length_cons, Nat.succ_mul, Nat.add_comm]

end

theorem length_nested {most : Nat} {v : Value} {shape : List Nat}
    (h : nested most v = .ok (shape, vs)) : vs.length = count shape := by
  obtain ⟨values, hvalues, h⟩ := bind_eq_ok.mp h
  split at h
  · cases h
    exact length_flatten hvalues
  · cases h

/-! ## Sound arrays -/

/-- An array has the number of elements that its shape says, all of them of its type. -/
structure Sound (a : PixelArray) : Prop where
  size : a.size = count a.shape
  holds : ∀ v ∈ a.data, a.type.Holds v

theorem sound_empty : empty.Sound := ⟨rfl, by simp [empty]⟩

theorem ofValue_sound {v : Value} (h : ofValue v = .ok a) : a.Sound := by
  obtain ⟨⟨shape, values⟩, hnested, h⟩ := bind_eq_ok.mp h
  obtain ⟨stored, hstored, h⟩ := bind_eq_ok.mp h
  cases h
  obtain ⟨hlength, hholds⟩ := holds_of_mapM hstored
  exact ⟨hlength.trans (length_nested hnested), by simpa using hholds⟩

theorem ofElements_sound {shape : List Nat} {v : Value} (h : ofElements shape t v = .ok a) :
    a.Sound := by
  obtain ⟨⟨_, values⟩, -, h⟩ := bind_eq_ok.mp h
  obtain ⟨stored, hstored, h⟩ := bind_eq_ok.mp h
  split at h
  · rename_i hlength
    cases h
    exact ⟨hlength, by simpa using (holds_of_mapM hstored).2⟩
  · cases h

end PixelArray

theorem PixelSource.array_sound {s : PixelSource} {a : PixelArray} (h : s.array = .ok a) :
    a.Sound := by
  unfold array at h
  split at h
  · cases h
    exact PixelArray.sound_empty
  · exact PixelArray.ofElements_sound h
  · cases h
    exact PixelArray.sound_empty
  · exact PixelArray.ofValue_sound h

end FrameGraph
