import FrameGraph.Proofs.Queue.Calls

/-!
# The bound of a queue

A sender that finds a full queue which does not block takes the oldest message away and stores its
own, without asking once more whether there is room. This is right because a queue never holds more
than its capacity, whatever is done while the sender waits.

* `Queue.Fits`: every message found room behind the older ones. All runs keep this, with capacities
  of every sort (`Run.fits`).
* `Line.follow`: runs made of what happens in them one after another, `run_iff_follow`: they are all
  of the runs.
* `Queue.Within`: the capacity is an integer, and the content is not longer.
* `run_within_capacity`: the bound in runs with integer sizes, and what follows from it for senders.
-/

namespace FrameGraph

/-! ## Numbers equal to an integer -/

namespace Number

variable {c : Number} {k : Int}

theorem le_int_iff_of_equal (h : c.equal (.int k) = true) (n : Int) :
    c.le (.int n) = true ↔ k ≤ n := by
  have heq : c.compare? (.int k) = some .eq := beq_iff_eq.mp h
  have hle : c.le (.int k) = true := by simp [le, heq]
  constructor
  · intro hn
    refine Int.not_lt.mp fun hlt => ?_
    have hbelow : c.lt (.int k) = true := lt_int_of_le_int hn hlt
    simp [lt, heq] at hbelow
  · intro hn
    rcases Int.lt_or_eq_of_le hn with hlt | rfl
    · have habove := lt_int_of_le_int hle hlt
      rw [le, Bool.or_eq_true]
      exact Or.inl habove
    · exact hle

theorem lt_int_iff_of_equal (h : c.equal (.int k) = true) (n : Int) :
    c.lt (.int n) = true ↔ k < n := by
  have heq : c.compare? (.int k) = some .eq := beq_iff_eq.mp h
  constructor
  · intro hn
    have hle : k ≤ n := (le_int_iff_of_equal h n).mp (by rw [le, Bool.or_eq_true]; exact Or.inl hn)
    rcases Int.lt_or_eq_of_le hle with hlt | rfl
    · exact hlt
    · simp [lt, heq] at hn
  · exact lt_int_of_le_int ((le_int_iff_of_equal h k).mpr (Int.le_refl k))

end Number

/-- A number equal to the integer `k`. -/
def Value.IsInteger (v : Value) (k : Int) : Prop :=
  ∃ n, v.content = .number n ∧ n.equal (.int k) = true

namespace Queue

variable {α : Type} {q : Queue α} {c : Call α} {t : Attempt α}

/-! ## Content that fits -/

/-- Every message found room behind the older ones. With a capacity of 2.5 these may be three. -/
def Fits (q : Queue α) : Prop := ∀ n < q.size, fills q.capacity n = false

theorem Fits.of_size_le {q' : Queue α} (h : q.Fits) (hcap : q'.capacity = q.capacity)
    (hsize : q'.size ≤ q.size) : q'.Fits := by
  intro n hn
  rw [hcap]
  exact h n (Nat.lt_of_lt_of_le hn hsize)

/-- A message that is stored where there is room. -/
theorem Fits.append (h : q.Fits) (hroom : q.isFull = false) (m : α) :
    Fits { q with items := q.items ++ [m] } := by
  intro n hn
  rw [size, List.length_append, List.length_singleton, Nat.lt_succ_iff_lt_or_eq] at hn
  rcases hn with hn | rfl
  · exact h n hn
  · exact hroom

/-- What a change of the capacity leaves is not longer than the capacity, so that the queue was not
full before its newest message. -/
theorem fills_dropExcess (c : Number) (items : List α) :
    ∀ n < (dropExcess c items).length, fills c n = false := by
  induction items with
  | nil => exact nofun
  | cons x rest ih =>
    unfold dropExcess
    split
    · exact ih
    · rename_i hkept
      intro n hn
      refine Bool.eq_false_iff.mpr fun hfills => hkept ?_
      have hn' : n < rest.length + 1 := hn
      exact Number.lt_int_of_le_int hfills (by omega)

theorem Rule.fits (h : Rule q c t) (hq : q.Fits) (hc : ∀ size, c ≠ .resize size) :
    t.queue.Fits := by
  cases h with
  | sent hroom | stored hroom => exact hq.append hroom _
  | overflowed _ _ hitems =>
    refine hq.of_size_le rfl ?_
    simp [size, hitems]
  | got hitems | tried hitems =>
    refine hq.of_size_le rfl ?_
    simp [size, hitems]
  | emptied => exact hq.of_size_le rfl (Nat.zero_le _)
  | switched => exact hq.of_size_le rfl (Nat.le_refl _)
  | held | rejected | starved | empty => exact hq
  | resized | tooSmall | resizedOther | refusedOther => exact absurd rfl (hc _)

theorem attempt_fits (hroomy : q.Roomy) (hq : q.Fits) (c : Call α) : (q.attempt c).queue.Fits := by
  cases c with
  | resize size =>
    -- Of sizes that are no integers the rule does not say how much they leave.
    rcases attempt_resize_queue q size with ⟨n, -, hqueue⟩ | hqueue <;> rw [hqueue]
    · exact fills_dropExcess n q.items
    · exact hq
  | _ =>
    refine (attempt_rule hroomy _).fits hq ?_
    rintro size ⟨⟩

/-- Every queue of a run fits, also with capacities that are no integers. -/
theorem Run.fits {l : Line α} {es : List (Entry α)} (h : Run l es) : l.queue.Fits := by
  refine (h.attempts (P := fun q _ => q.Roomy ∧ q.Fits) ?_ ?_).2
  · intro name size policy q hq
    refine ⟨roomy_of_make hq, ?_⟩
    obtain ⟨n, -, rfl⟩ := make_eq_ok hq
    exact nofun
  · intro q _ c ⟨hroomy, hq⟩
    exact ⟨(attempt_rule hroomy c).roomy hroomy, attempt_fits hroomy hq c⟩

/-! ## Runs one event after another -/

/-- What happens next in a run. -/
inductive Event (α : Type) where
  | call (c : Call α)
  /-- The caller that waits tries again. -/
  | wake
  /-- The receiver that waits gives up. -/
  | giveUp

def Line.next (l : Line α) : Event α → Option (Line α × List (Entry α))
  | .call c => l.call c
  | .wake => some l.wake
  | .giveUp =>
    match l.waiting with
    | some .get => some (⟨l.queue, none⟩, [])
    | _ => none

/-- The line after all of the events, and the ledger continued. -/
def Line.follow (l : Line α) (es : List (Entry α)) :
    List (Event α) → Option (Line α × List (Entry α))
  | [] => some (l, es)
  | e :: events => (l.next e).bind fun (l', new) => l'.follow (es ++ new) events

section Follow

variable {l l' : Line α} {es es' new : List (Entry α)} {e : Event α} {events : List (Event α)}

theorem Run.next (hrun : Run l es) (h : l.next e = some (l', new)) : Run l' (es ++ new) := by
  cases e with
  | call c => exact hrun.call c h
  | wake =>
    obtain ⟨rfl, rfl⟩ := Prod.mk.inj (Option.some.inj h)
    exact hrun.wake
  | giveUp =>
    obtain ⟨q, waiting⟩ := l
    simp only [Line.next] at h
    split at h
    · cases h
      rw [List.append_nil]
      exact hrun.giveUp
    · cases h

/-- What each of the events preserves is preserved by all of them. -/
theorem follow_preserves {P : Line α → List (Entry α) → Prop}
    (h : l.follow es events = some (l', es'))
    (step : ∀ e ∈ events, ∀ l es l' new, P l es → l.next e = some (l', new) → P l' (es ++ new))
    (start : P l es) : P l' es' := by
  induction events generalizing l es with
  | nil =>
    cases h
    exact start
  | cons e events ih =>
    obtain ⟨⟨l₁, new⟩, hnext, hrest⟩ := Option.bind_eq_some_iff.mp h
    have hfirst : P l₁ (es ++ new) := step e List.mem_cons_self l es l₁ new start hnext
    exact ih hrest (fun e' he' => step e' (List.mem_cons_of_mem e he')) hfirst

theorem Run.follow (hrun : Run l es) (h : l.follow es events = some (l', es')) : Run l' es' :=
  follow_preserves h (fun _ _ _ _ _ _ hrun hnext => hrun.next hnext) hrun

theorem follow_concat (h : l.follow es events = some (l', es')) (e : Event α) :
    l.follow es (events ++ [e]) = (l'.next e).map fun r => (r.1, es' ++ r.2) := by
  induction events generalizing l es with
  | nil =>
    obtain ⟨rfl, rfl⟩ := Prod.mk.inj (Option.some.inj h)
    cases hnext : l.next e <;> simp [Line.follow, hnext]
  | cons e₁ events ih =>
    obtain ⟨⟨l₁, new⟩, hnext, hrest⟩ := Option.bind_eq_some_iff.mp h
    simp only [List.cons_append, Line.follow, hnext, Option.bind_some]
    exact ih hrest

/-- The runs are what follows events, one after another, on a new queue. -/
theorem run_iff_follow :
    Run l es ↔ ∃ name size policy q events, make name size policy = .ok q ∧
      Line.follow ⟨q, none⟩ [] events = some (l, es) := by
  constructor
  · intro hrun
    induction hrun with
    | start hmake => exact ⟨_, _, _, _, [], hmake, rfl⟩
    | call c _ hcall ih =>
      obtain ⟨name, size, policy, q, events, hmake, hfollow⟩ := ih
      refine ⟨name, size, policy, q, events ++ [.call c], hmake, ?_⟩
      rw [follow_concat hfollow, Line.next, hcall, Option.map_some]
    | wake _ ih =>
      obtain ⟨name, size, policy, q, events, hmake, hfollow⟩ := ih
      refine ⟨name, size, policy, q, events ++ [.wake], hmake, ?_⟩
      rw [follow_concat hfollow, Line.next, Option.map_some]
    | giveUp _ ih =>
      obtain ⟨name, size, policy, q, events, hmake, hfollow⟩ := ih
      refine ⟨name, size, policy, q, events ++ [.giveUp], hmake, ?_⟩
      rw [follow_concat hfollow]
      simp only [Line.next, Option.map_some, List.append_nil]
  · rintro ⟨name, size, policy, q, events, hmake, hfollow⟩
    exact (Run.start hmake).follow hfollow

end Follow

/-! ## Integer sizes -/

/-- A call whose size, if it has one, is an integer. -/
def Call.IsWhole : Call α → Prop
  | .resize size => ∃ k, size.IsInteger k
  | _ => True

/-- The capacity is an integer, and the caller that waits will not change that. -/
structure Line.IsWhole (l : Line α) : Prop where
  capacity : ∃ k, l.queue.capacity.equal (.int k) = true
  waiting : ∀ c, l.waiting = some c → c.IsWhole

theorem capacityOf_whole {size : Value} {n : Number} (hsize : ∃ k, size.IsInteger k)
    (h : capacityOf size = .ok n) : ∃ k, n.equal (.int k) = true := by
  obtain ⟨k, m, hm, hk⟩ := hsize
  obtain ⟨hn, -⟩ := capacityOf_eq_ok h
  rw [hm] at hn
  cases hn
  exact ⟨k, hk⟩

theorem attempt_whole (hq : ∃ k, q.capacity.equal (.int k) = true) (hc : c.IsWhole) :
    ∃ k, (q.attempt c).queue.capacity.equal (.int k) = true := by
  cases c with
  | resize size =>
    rcases attempt_resize_queue q size with ⟨n, hcap, hqueue⟩ | hqueue <;> rw [hqueue]
    · exact capacityOf_whole hc hcap
    · exact hq
  | setBlocking policy => exact hq
  | _ =>
    rw [(q.attempt_keeps rfl).1]
    exact hq

section Follow

variable {l l' : Line α} {es es' new : List (Entry α)} {e : Event α} {events : List (Event α)}

theorem Line.IsWhole.call (h : l.IsWhole) (hc : c.IsWhole) (hcall : l.call c = some (l', new)) :
    l'.IsWhole := by
  have hcapacity := attempt_whole h.capacity hc
  unfold Line.call at hcall
  dsimp only at hcall
  split at hcall <;> cases hcall
  · exact ⟨hcapacity, h.waiting⟩
  · refine ⟨hcapacity, ?_⟩
    rintro _ ⟨⟩
    exact hc

theorem Line.IsWhole.wake (h : l.IsWhole) : l.wake.1.IsWhole := by
  unfold Line.wake
  cases hw : l.waiting with
  | none => exact h
  | some w =>
    refine ⟨attempt_whole h.capacity (h.waiting w hw), ?_⟩
    intro c hc
    dsimp only at hc
    split at hc <;> cases hc
    exact h.waiting w hw

theorem Line.IsWhole.next (h : l.IsWhole) (he : ∀ c, e = .call c → c.IsWhole)
    (hnext : l.next e = some (l', new)) : l'.IsWhole := by
  cases e with
  | call c => exact h.call (he c rfl) hnext
  | wake =>
    obtain ⟨rfl, rfl⟩ := Prod.mk.inj (Option.some.inj hnext)
    exact h.wake
  | giveUp =>
    simp only [Line.next] at hnext
    split at hnext <;> cases hnext
    exact ⟨h.capacity, nofun⟩

theorem Line.IsWhole.follow (h : l.IsWhole) (hevents : ∀ c, .call c ∈ events → c.IsWhole)
    (hfollow : l.follow es events = some (l', es')) : l'.IsWhole := by
  refine follow_preserves (P := fun l _ => l.IsWhole) hfollow ?_ h
  intro e he l _ l' new hl hnext
  refine hl.next ?_ hnext
  rintro c rfl
  exact hevents c he

end Follow

theorem whole_of_make {name : String} {size policy : Value} (hsize : ∃ k, size.IsInteger k)
    (h : make name size policy = .ok q) : Line.IsWhole ⟨q, none⟩ := by
  obtain ⟨n, hcap, rfl⟩ := make_eq_ok h
  exact ⟨capacityOf_whole hsize hcap, nofun⟩

/-! ## The bound -/

/-- The capacity is an integer of at least one, and the content is not longer. -/
structure Within (q : Queue α) (k : Nat) : Prop where
  capacity : q.capacity.equal (.int k) = true
  pos : 1 ≤ k
  size_le : q.size ≤ k

theorem Fits.within (h : q.Fits) (hroomy : q.Roomy) (hq : ∃ k, q.capacity.equal (.int k) = true) :
    ∃ k, q.Within k := by
  obtain ⟨k, hk⟩ := hq
  have hpos : 1 ≤ k := by
    refine Int.not_lt.mp fun hlt => ?_
    have hbelow := (Number.lt_int_iff_of_equal hk 1).mpr hlt
    rw [hroomy] at hbelow
    cases hbelow
  obtain ⟨k, rfl⟩ := Int.eq_ofNat_of_zero_le (by omega : 0 ≤ k)
  refine ⟨k, hk, by omega, ?_⟩
  refine Nat.not_lt.mp fun hlt => ?_
  have hfills : fills q.capacity k = true := (Number.le_int_iff_of_equal hk k).mpr (Int.le_refl k)
  rw [h k hlt] at hfills
  cases hfills

section Within

variable {k : Nat}

theorem Within.isFull_iff (h : q.Within k) : q.isFull = true ↔ q.size = k := by
  have hsize := h.size_le
  rw [isFull, fills, Number.le_int_iff_of_equal h.capacity]
  omega

/-- One message less, and a full queue has room. -/
theorem Within.room (h : q.Within k) (hfull : q.isFull = true) :
    ∃ oldest rest, q.items = oldest :: rest ∧ Queue.isFull { q with items := rest } = false := by
  have hsize := h.isFull_iff.mp hfull
  have hpos := h.pos
  cases hitems : q.items with
  | nil =>
    rw [size, hitems, List.length_nil] at hsize
    omega
  | cons oldest rest =>
    refine ⟨oldest, rest, rfl, Bool.eq_false_iff.mpr fun hstill => ?_⟩
    have hle : (k : Int) ≤ rest.length := (Number.le_int_iff_of_equal h.capacity _).mp hstill
    rw [size, hitems, List.length_cons] at hsize
    omega

end Within

/-- Sizes below one are refused, by a new queue and by any other. -/
theorem refused_of_lt_one {size : Value} {j : Int} (hsize : size.IsInteger j) (hj : j < 1) :
    ∃ cause, cause.isBadValue = true ∧
      (∀ name policy, (make name size policy : Except Fault (Queue α)) = .error cause) ∧
      ∀ q : Queue α, q.attempt (.resize size) = ⟨q, [], some (.refused cause)⟩ := by
  obtain ⟨n, hn, hequal⟩ := hsize
  have hbelow : n.lt (.int 1) = true := (Number.lt_int_iff_of_equal hequal 1).mpr hj
  rcases capacityOf_number hn with ⟨hnot, -⟩ | ⟨-, cause, hcap, hbad⟩
  · rw [hbelow] at hnot
    cases hnot
  · exact ⟨cause, hbad, fun _ _ => make_error hcap, fun q => attempt_resize_error q hcap⟩

/-- A sender for whom a message is dropped found the queue full and leaves it as long as it was. -/
theorem Rule.full_of_dropped {m lost : α} (h : Rule q (.send m) t)
    (hlost : .dropped lost ∈ t.entries) :
    q.isFull = true ∧ t.queue.capacity = q.capacity ∧ t.queue.size = q.size := by
  cases h with
  | sent | held => simp at hlost
  | overflowed hfull _ hitems => exact ⟨hfull, rfl, by simp [size, hitems]⟩

/-- With integer sizes, at every point of a run the capacity is at least one and the queue holds no
more messages than that, so that it is full exactly when it holds as many. Where a sender takes the
oldest message of a full queue away there is room for its own, and the queue is exactly full
afterwards. Sizes below one are refused, and nothing changes. -/
theorem run_within_capacity {name : String} {size policy : Value} {events : List (Event α)}
    {l : Line α} {es : List (Entry α)} (hmake : make name size policy = .ok q)
    (hsize : ∃ k, size.IsInteger k) (hcalls : ∀ c, .call c ∈ events → c.IsWhole)
    (hfollow : Line.follow ⟨q, none⟩ [] events = some (l, es)) :
    ∃ k, l.queue.Within k ∧ (l.queue.isFull = true ↔ l.queue.size = k) ∧
      (l.queue.isFull = true → l.queue.isBlocking = false → ∃ oldest rest,
        l.queue.items = oldest :: rest ∧ Queue.isFull { l.queue with items := rest } = false ∧
        ∀ m, l.queue.attempt (.send m) = ⟨{ l.queue with items := rest ++ [m] },
          [.dropped oldest, .accepted m], some .done⟩) ∧
      (∀ m lost, .dropped lost ∈ (l.queue.attempt (.send m)).entries →
        (l.queue.attempt (.send m)).queue.Within k ∧
          (l.queue.attempt (.send m)).queue.size = k) ∧
      ∀ size j, size.IsInteger j → j < 1 → ∃ cause, cause.isBadValue = true ∧
        (∀ name policy, (make name size policy : Except Fault (Queue α)) = .error cause) ∧
        l.queue.attempt (.resize size) = ⟨l.queue, [], some (.refused cause)⟩ := by
  have hrun : Run l es := run_iff_follow.mpr ⟨name, size, policy, q, events, hmake, hfollow⟩
  have hwhole : l.IsWhole := (whole_of_make hsize hmake).follow hcalls hfollow
  obtain ⟨k, hk⟩ := hrun.fits.within hrun.roomy hwhole.capacity
  refine ⟨k, hk, hk.isFull_iff, ?_, ?_, ?_⟩
  · intro hfull hblock
    obtain ⟨oldest, rest, hitems, hroom⟩ := hk.room hfull
    exact ⟨oldest, rest, hitems, hroom, attempt_send_overflowed hfull hblock hitems⟩
  · intro m lost hlost
    obtain ⟨hfull, hcapacity, hlength⟩ := (attempt_send_rule hrun.roomy m).full_of_dropped hlost
    have hsize : (l.queue.attempt (.send m)).queue.size = k := by
      rw [hlength]
      exact hk.isFull_iff.mp hfull
    refine ⟨⟨?_, hk.pos, Nat.le_of_eq hsize⟩, hsize⟩
    rw [hcapacity]
    exact hk.capacity
  · intro size j hsize hj
    obtain ⟨cause, hbad, hnew, hold⟩ := refused_of_lt_one (α := α) hsize hj
    exact ⟨cause, hbad, hnew, hold l.queue⟩

/-- Two messages fill a queue, in front of which a third one waits. The capacity becomes one, which
releases nobody. When the queue stops blocking the third message takes the place of the second
one. -/
def shrunkEvents : List (Event Nat) :=
  [.call (.send 1), .call (.send 2), .call (.send 3), .call (.resize (.int 1)), .wake,
    .call (.setBlocking (.bool false)), .wake]

theorem shrunkEvents_within_capacity :
    Line.follow ⟨⟨"q", .int 2, .bool true, []⟩, none⟩ [] shrunkEvents =
        some (⟨⟨"q", .int 1, .bool false, [3]⟩, none⟩,
          [.accepted 1, .accepted 2, .dropped 1, .dropped 2, .accepted 3]) ∧
      Within (⟨"q", .int 1, .bool false, [3]⟩ : Queue Nat) 1 ∧
      attempt ⟨"q", .int 1, .bool false, [3]⟩ (.send 4) =
        ⟨⟨"q", .int 1, .bool false, [4]⟩, [.dropped 3, .accepted 4], some .done⟩ ∧
      ∃ cause, cause.isBadValue = true ∧
        attempt (⟨"q", .int 1, .bool false, [3]⟩ : Queue Nat) (.resize (.int 0)) =
          ⟨⟨"q", .int 1, .bool false, [3]⟩, [], some (.refused cause)⟩ := by
  have hmake : make "q" (.int 2) (.bool true) = .ok (⟨"q", .int 2, .bool true, []⟩ : Queue Nat) := rfl
  have hsize : ∃ k, (Value.int 2).IsInteger k := ⟨2, _, rfl, rfl⟩
  have hcalls : ∀ c, .call c ∈ shrunkEvents → c.IsWhole := by
    intro c hc
    simp only [shrunkEvents, List.mem_cons, Event.call.injEq, reduceCtorEq, List.not_mem_nil,
      or_false, false_or] at hc
    rcases hc with rfl | rfl | rfl | rfl | rfl
    · trivial
    · trivial
    · trivial
    · exact ⟨1, _, rfl, rfl⟩
    · trivial
  have hfollow : Line.follow ⟨⟨"q", .int 2, .bool true, []⟩, none⟩ [] shrunkEvents =
      some (⟨⟨"q", .int 1, .bool false, [3]⟩, none⟩,
        [.accepted 1, .accepted 2, .dropped 1, .dropped 2, .accepted 3]) := rfl
  obtain ⟨k, hk, hfull, hroom, -, hrefused⟩ := run_within_capacity hmake hsize hcalls hfollow
  obtain rfl : 1 = k := hfull.mp rfl
  obtain ⟨oldest, rest, hitems, -, hsend⟩ := hroom rfl rfl
  cases hitems
  obtain ⟨cause, hbad, -, hrefusal⟩ := hrefused (.int 0) 0 ⟨_, rfl, rfl⟩ (by decide)
  exact ⟨hfollow, hk, hsend 4, cause, hbad, hrefusal⟩

end Queue

end FrameGraph
