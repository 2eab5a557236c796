import FrameGraph.Queue

/-!
# Calls on a queue

Seven calls are made on a queue. Two of them may have to wait: `send` on a full blocking queue and
`get` on an empty one. A caller that waits tries again later, on whatever the queue has become, and
at most one caller waits at a time.

* `Queue.Run`: the runs of calls on a new queue, with the fate of every message in a ledger. A
  waiting caller may try again at any point of a run, also when it has to go on waiting.
* `Queue.Rule`: what one attempt at a call does, for each call and each state of the queue.
* `attempt_rule`: every attempt keeps the rule if the capacity is not below one, which is the case
  in every run (`Run.roomy`).
-/

namespace FrameGraph

/-! ## Numbers beside integers -/

namespace Number

theorem align_zero_right (n e : Int) : ∃ x y, 0 < y ∧ ∀ m, align n e m 0 = (x, m * y) := by
  refine ⟨n * Nat.pow 2 (e - min e 0).toNat, Nat.pow 2 (0 - min e 0).toNat, ?_, ?_⟩
  · exact Int.natCast_pos.mpr (Nat.pow_pos (by decide))
  · intro m
    simp [align]

theorem lt_int_of_le_int {c : Number} {a b : Int} (h : c.le (.int a) = true) (hab : a < b) :
    c.lt (.int b) = true := by
  have ha : (int a).magnitude = .dyadic a 0 := rfl
  have hb : (int b).magnitude = .dyadic b 0 := rfl
  simp only [le, lt, compare?, ha, hb, Bool.or_eq_true, beq_iff_eq] at h ⊢
  cases hc : c.magnitude with
  | undefined => simp [hc, Magnitude.compare?] at h
  | infinite negative =>
    rw [hc] at h
    cases negative <;> simp_all [Magnitude.compare?]
  | dyadic n e =>
    obtain ⟨x, y, hy, halign⟩ := align_zero_right n e
    rw [hc] at h
    simp only [Magnitude.compare?, halign, Option.some.injEq] at h ⊢
    have hle : x ≤ a * y := by
      rcases h with h | h
      · exact Int.le_of_lt (Int.compare_eq_lt.mp h)
      · exact Int.le_of_eq (Int.compare_eq_eq.mp h)
    have hlt : a * y < b * y := Int.mul_lt_mul_of_pos_right hab hy
    exact Int.compare_eq_lt.mpr (Int.lt_of_le_of_lt hle hlt)

end Number

namespace Queue

variable {α : Type}

/-! ## Calls -/

inductive Call (α : Type) where
  | send (m : α)
  | trySend (m : α)
  | get
  | tryGet
  | getAll
  | resize (size : Value)
  | setBlocking (policy : Value)

/-- What a call that does not have to wait answers. -/
inductive Response (α : Type) where
  | done
  | sent (stored : Bool)
  | message (m : α)
  | nothing
  | messages (ms : List α)
  | refused (cause : Fault)

/-- The fate of a message: it was appended to the queue, handed to a receiver or lost. -/
inductive Entry (α : Type) where
  | accepted (m : α)
  | returned (m : α)
  | dropped (m : α)

/-- One attempt at a call. Without a response the caller has to wait. -/
structure Attempt (α : Type) where
  queue : Queue α
  entries : List (Entry α)
  response : Option (Response α)

def attempt (q : Queue α) : Call α → Attempt α
  | .send m =>
    match q.send m with
    | .stored q' lost => ⟨q', (lost.map .dropped).toList ++ [.accepted m], some .done⟩
    | .waiting => ⟨q, [], none⟩
  | .trySend m =>
    match q.trySend m with
    | some q' => ⟨q', [.accepted m], some (.sent true)⟩
    | none => ⟨q, [], some (.sent false)⟩
  | .get =>
    match q.tryGet with
    | some (m, q') => ⟨q', [.returned m], some (.message m)⟩
    | none => ⟨q, [], none⟩
  | .tryGet =>
    match q.tryGet with
    | some (m, q') => ⟨q', [.returned m], some (.message m)⟩
    | none => ⟨q, [], some .nothing⟩
  | .getAll => ⟨q.getAll.2, q.getAll.1.map .returned, some (.messages q.getAll.1)⟩
  | .resize size =>
    match q.resize size with
    | .ok q' => ⟨q', (q.items.take (q.size - q'.size)).map .dropped, some .done⟩
    | .error cause => ⟨q, [], some (.refused cause)⟩
  | .setBlocking policy => ⟨q.setBlocking policy, [], some .done⟩

/-! ## Runs -/

/-- A queue and the caller that waits in front of it. -/
structure Line (α : Type) where
  queue : Queue α
  waiting : Option (Call α)

/-- A call is made, unless it would have to wait behind another caller. -/
def Line.call (l : Line α) (c : Call α) : Option (Line α × List (Entry α)) :=
  let t := l.queue.attempt c
  match t.response, l.waiting with
  | some _, waiting => some (⟨t.queue, waiting⟩, t.entries)
  | none, none => some (⟨t.queue, some c⟩, t.entries)
  | none, some _ => none

/-- The caller that waits tries again. -/
def Line.wake (l : Line α) : Line α × List (Entry α) :=
  match l.waiting with
  | none => (l, [])
  | some c =>
    let t := l.queue.attempt c
    (⟨t.queue, if t.response.isSome then none else some c⟩, t.entries)

/-- The runs of calls on a new queue, with their ledgers. -/
inductive Run : Line α → List (Entry α) → Prop where
  | start {name : String} {size policy : Value} {q : Queue α} :
      make name size policy = .ok q → Run ⟨q, none⟩ []
  | call {l l' : Line α} {es new : List (Entry α)} (c : Call α) :
      Run l es → l.call c = some (l', new) → Run l' (es ++ new)
  | wake {l : Line α} {es : List (Entry α)} : Run l es → Run l.wake.1 (es ++ l.wake.2)
  /-- A receiver that is ready to wait for a limited time gives up. -/
  | giveUp {q : Queue α} {es : List (Entry α)} : Run ⟨q, some .get⟩ es → Run ⟨q, none⟩ es

/-- What a run does to its queue it does by attempts at calls. -/
theorem Run.attempts {l : Line α} {es : List (Entry α)} {P : Queue α → List (Entry α) → Prop}
    (h : Run l es)
    (start : ∀ name size policy q, make name size policy = .ok q → P q [])
    (attempt : ∀ q es c, P q es → P (q.attempt c).queue (es ++ (q.attempt c).entries)) :
    P l.queue es := by
  induction h with
  | start h => exact start _ _ _ _ h
  | @call l l' es new c _ hc ih =>
    have hl : l'.queue = (l.queue.attempt c).queue ∧ new = (l.queue.attempt c).entries := by
      unfold Line.call at hc
      dsimp only at hc
      split at hc <;> cases hc <;> exact ⟨rfl, rfl⟩
    rw [hl.1, hl.2]
    exact attempt _ _ c ih
  | @wake l es _ ih =>
    unfold Line.wake
    cases hw : l.waiting with
    | none => simpa using ih
    | some c => exact attempt _ _ c ih
  | giveUp _ ih => exact ih

/-! ## What an attempt does -/

/-- The rule of every call. A full queue that does not block loses its oldest message to a sender, and
a change of the capacity to `k` loses the oldest messages until `k` are left. Nothing else is lost. -/
inductive Rule (q : Queue α) : Call α → Attempt α → Prop where
  | sent {m : α} : q.isFull = false →
      Rule q (.send m) ⟨{ q with items := q.items ++ [m] }, [.accepted m], some .done⟩
  | overflowed {m oldest : α} {rest : List α} : q.isFull = true → q.isBlocking = false →
      q.items = oldest :: rest →
      Rule q (.send m)
        ⟨{ q with items := rest ++ [m] }, [.dropped oldest, .accepted m], some .done⟩
  | held {m : α} : q.isFull = true → q.isBlocking = true → Rule q (.send m) ⟨q, [], none⟩
  | stored {m : α} : q.isFull = false →
      Rule q (.trySend m) ⟨{ q with items := q.items ++ [m] }, [.accepted m], some (.sent true)⟩
  | rejected {m : α} : q.isFull = true → Rule q (.trySend m) ⟨q, [], some (.sent false)⟩
  | got {head : α} {rest : List α} : q.items = head :: rest →
      Rule q .get ⟨{ q with items := rest }, [.returned head], some (.message head)⟩
  | starved : q.items = [] → Rule q .get ⟨q, [], none⟩
  | tried {head : α} {rest : List α} : q.items = head :: rest →
      Rule q .tryGet ⟨{ q with items := rest }, [.returned head], some (.message head)⟩
  | empty : q.items = [] → Rule q .tryGet ⟨q, [], some .nothing⟩
  | emptied :
      Rule q .getAll ⟨{ q with items := [] }, q.items.map .returned, some (.messages q.items)⟩
  | resized {k : Int} {old new : List α} : 1 ≤ k → q.items = old ++ new →
      (old.length : Int) = max 0 (q.items.length - k) →
      Rule q (.resize (.int k))
        ⟨{ q with capacity := .int k, items := new }, old.map .dropped, some .done⟩
  | tooSmall {k : Int} {cause : Fault} : k < 1 →
      Rule q (.resize (.int k)) ⟨q, [], some (.refused cause)⟩
  /-- Sizes that are no integers. -/
  | resizedOther {size : Value} {n : Number} {old new : List α} : (∀ k, size ≠ .int k) →
      capacityOf size = .ok n → q.items = old ++ new →
      Rule q (.resize size) ⟨{ q with capacity := n, items := new }, old.map .dropped, some .done⟩
  | refusedOther {size : Value} {cause : Fault} : (∀ k, size ≠ .int k) →
      capacityOf size = .error cause → Rule q (.resize size) ⟨q, [], some (.refused cause)⟩
  | switched {policy : Value} :
      Rule q (.setBlocking policy) ⟨{ q with blocking := policy }, [], some .done⟩

/-- The queue can hold a message. -/
def Roomy (q : Queue α) : Prop := q.capacity.lt (.int 1) = false

theorem isFull_of_items_nil {q : Queue α} (hq : q.Roomy) (h : q.items = []) :
    q.isFull = false := by
  apply Bool.eq_false_iff.mpr
  intro hfull
  have hle : q.capacity.le (.int 0) = true := by simpa [isFull, fills, size, h] using hfull
  rw [Roomy, Number.lt_int_of_le_int hle Int.zero_lt_one] at hq
  cases hq

/-- A number is a capacity exactly if it is not below one. -/
theorem capacityOf_number {v : Value} {n : Number} (hv : v.content = .number n) :
    (n.lt (.int 1) = false ∧ capacityOf v = .ok n) ∨
      (n.lt (.int 1) = true ∧ ∃ cause, capacityOf v = .error cause ∧ cause.isBadValue = true) := by
  unfold capacityOf
  simp only [hv]
  split
  · refine Or.inr ⟨‹_›, ?_⟩
    cases htext : n.text with
    | ok s => exact ⟨_, rfl, rfl⟩
    | error fault => exact ⟨fault, rfl, Number.text_error htext⟩
  · exact Or.inl ⟨Bool.eq_false_iff.mpr ‹_›, rfl⟩

theorem capacityOf_of_not_lt {n : Number} (h : n.lt (.int 1) = false) :
    capacityOf (.number n) = .ok n := by
  rcases capacityOf_number (v := .number n) rfl with ⟨-, hok⟩ | ⟨hlt, -⟩
  · exact hok
  · rw [h] at hlt
    cases hlt

theorem capacityOf_int (k : Int) :
    (1 ≤ k ∧ capacityOf (.int k) = .ok (.int k)) ∨
      (k < 1 ∧ ∃ cause, capacityOf (.int k) = .error cause ∧ cause.isBadValue = true) := by
  have hcap := capacityOf_number (v := .int k) rfl
  simpa only [Number.lt_int, decide_eq_false_iff_not, decide_eq_true_eq, Int.not_lt] using hcap

theorem capacityOf_of_pos {k : Int} (hk : 1 ≤ k) : capacityOf (.int k) = .ok (.int k) := by
  apply capacityOf_of_not_lt
  simpa using hk

theorem dropExcess_suffix (c : Number) (items : List α) : ∃ old, items = old ++ dropExcess c items := by
  induction items with
  | nil => exact ⟨[], rfl⟩
  | cons x rest ih =>
    unfold dropExcess
    split
    · obtain ⟨old, hold⟩ := ih
      exact ⟨x :: old, congrArg (x :: ·) hold⟩
    · exact ⟨[], rfl⟩

theorem length_dropExcess_int {k : Int} (hk : 0 ≤ k) (items : List α) :
    ((dropExcess (.int k) items).length : Int) = min k items.length := by
  induction items with
  | nil =>
    simp only [dropExcess, List.length_nil]
    omega
  | cons x rest ih =>
    unfold dropExcess
    simp only [Number.lt_int, decide_eq_true_eq, List.length_cons]
    split
    · rw [ih]
      push_cast
      omega
    · simp only [List.length_cons]
      push_cast
      omega

theorem make_ok {name : String} {size policy : Value} {n : Number} (h : capacityOf size = .ok n) :
    (make name size policy : Except Fault (Queue α)) = .ok ⟨name, n, policy, []⟩ := by
  simp [make, h, bind, Except.bind]

theorem make_error {name : String} {size policy : Value} {cause : Fault}
    (h : capacityOf size = .error cause) :
    (make name size policy : Except Fault (Queue α)) = .error cause := by
  simp [make, h, bind, Except.bind]

theorem make_eq_ok {name : String} {size policy : Value} {q : Queue α}
    (h : make name size policy = .ok q) :
    ∃ n, capacityOf size = .ok n ∧ q = ⟨name, n, policy, []⟩ := by
  obtain ⟨n, hcap, hq⟩ := bind_eq_ok.mp h
  cases hq
  exact ⟨n, hcap, rfl⟩

theorem resize_ok {q : Queue α} {size : Value} {n : Number} (h : capacityOf size = .ok n) :
    q.resize size = .ok { q with capacity := n, items := dropExcess n q.items } := by
  simp [resize, h, bind, Except.bind]

theorem resize_error {q : Queue α} {size : Value} {cause : Fault}
    (h : capacityOf size = .error cause) : q.resize size = .error cause := by
  simp [resize, h, bind, Except.bind]

theorem attempt_send_overflowed {q : Queue α} {oldest : α} {rest : List α} (hfull : q.isFull = true)
    (hblock : q.isBlocking = false) (hitems : q.items = oldest :: rest) (m : α) :
    q.attempt (.send m) =
      ⟨{ q with items := rest ++ [m] }, [.dropped oldest, .accepted m], some .done⟩ := by
  simp only [attempt, send, hfull, hblock, hitems, Bool.false_eq_true, if_false, if_true]
  rfl

theorem attempt_send_rule {q : Queue α} (hq : q.Roomy) (m : α) :
    Rule q (.send m) (q.attempt (.send m)) := by
  cases hfull : q.isFull with
  | false =>
    simp only [attempt, send, hfull, Bool.false_eq_true, if_false]
    exact .sent hfull
  | true =>
    cases hblock : q.isBlocking with
    | true =>
      simp only [attempt, send, hfull, hblock, if_true]
      exact .held hfull hblock
    | false =>
      cases hitems : q.items with
      | nil => rw [isFull_of_items_nil hq hitems] at hfull; cases hfull
      | cons oldest rest =>
        rw [attempt_send_overflowed hfull hblock hitems]
        exact .overflowed hfull hblock hitems

theorem attempt_trySend_rule (q : Queue α) (m : α) :
    Rule q (.trySend m) (q.attempt (.trySend m)) := by
  cases hfull : q.isFull with
  | false =>
    simp only [attempt, trySend, hfull, Bool.false_eq_true, if_false]
    exact .stored hfull
  | true =>
    simp only [attempt, trySend, hfull, if_true]
    exact .rejected hfull

theorem attempt_take_rule (q : Queue α) :
    Rule q .get (q.attempt .get) ∧ Rule q .tryGet (q.attempt .tryGet) := by
  cases hitems : q.items with
  | nil =>
    simp only [attempt, tryGet, hitems]
    exact ⟨.starved hitems, .empty hitems⟩
  | cons head rest =>
    simp only [attempt, tryGet, hitems]
    exact ⟨.got hitems, .tried hitems⟩

/-- What a change of the capacity keeps is the end of the content, so that what is lost is a prefix
of the length by which the content is longer than what is kept. -/
theorem attempt_resize_ok {q : Queue α} {size : Value} {n : Number} (h : capacityOf size = .ok n) :
    ∃ old, q.items = old ++ dropExcess n q.items ∧
      q.attempt (.resize size) =
        ⟨{ q with capacity := n, items := dropExcess n q.items }, old.map .dropped, some .done⟩ := by
  obtain ⟨old, hold⟩ := dropExcess_suffix n q.items
  refine ⟨old, hold, ?_⟩
  have hlen : q.items.length - (dropExcess n q.items).length = old.length := by
    have := congrArg List.length hold
    rw [List.length_append] at this
    omega
  have htake : q.items.take old.length = old := by
    rw [hold, List.take_left']
    rfl
  simp only [attempt, resize_ok h, Queue.size, hlen, htake]

theorem attempt_resize_error (q : Queue α) {size : Value} {cause : Fault}
    (h : capacityOf size = .error cause) :
    q.attempt (.resize size) = ⟨q, [], some (.refused cause)⟩ := by
  simp only [attempt, resize_error h]

/-- A change of the capacity that is refused leaves the queue as it is. -/
theorem attempt_resize_queue (q : Queue α) (size : Value) :
    (∃ n, capacityOf size = .ok n ∧ (q.attempt (.resize size)).queue =
      { q with capacity := n, items := dropExcess n q.items }) ∨
      (q.attempt (.resize size)).queue = q := by
  cases hcap : capacityOf size with
  | ok n =>
    obtain ⟨old, -, hattempt⟩ := attempt_resize_ok (q := q) hcap
    exact Or.inl ⟨n, rfl, by rw [hattempt]⟩
  | error cause => exact Or.inr (by rw [attempt_resize_error q hcap])

theorem attempt_resize_rule (q : Queue α) (size : Value) :
    Rule q (.resize size) (q.attempt (.resize size)) := by
  by_cases hint : ∃ k, size = .int k
  · obtain ⟨k, rfl⟩ := hint
    rcases capacityOf_int k with ⟨hk, hcap⟩ | ⟨hk, cause, hcap, -⟩
    · obtain ⟨old, hold, he⟩ := attempt_resize_ok (q := q) hcap
      rw [he]
      refine .resized hk hold ?_
      have hkept := length_dropExcess_int (by omega : 0 ≤ k) q.items
      have hlen := congrArg List.length hold
      rw [List.length_append] at hlen
      omega
    · rw [attempt_resize_error q hcap]
      exact .tooSmall hk
  · have hother : ∀ k, size ≠ .int k := fun k he => hint ⟨k, he⟩
    cases hcap : capacityOf size with
    | ok n =>
      obtain ⟨old, hold, he⟩ := attempt_resize_ok (q := q) hcap
      rw [he]
      exact .resizedOther hother hcap hold
    | error cause =>
      rw [attempt_resize_error q hcap]
      exact .refusedOther hother hcap

theorem attempt_rule {q : Queue α} (hq : q.Roomy) (c : Call α) : Rule q c (q.attempt c) := by
  cases c with
  | send m => exact attempt_send_rule hq m
  | trySend m => exact attempt_trySend_rule q m
  | get => exact (attempt_take_rule q).1
  | tryGet => exact (attempt_take_rule q).2
  | getAll => exact .emptied
  | resize size => exact attempt_resize_rule q size
  | setBlocking policy => exact .switched

/-- The calls that set up a queue. -/
def Call.setsUp : Call α → Bool
  | .resize _ => true
  | .setBlocking _ => true
  | _ => false

theorem Rule.keeps {q : Queue α} {c : Call α} {t : Attempt α} (h : Rule q c t)
    (hc : c.setsUp = false) :
    t.queue.capacity = q.capacity ∧ t.queue.blocking = q.blocking := by
  cases h with
  | resized | tooSmall | resizedOther | refusedOther | switched => cases hc
  | _ => exact ⟨rfl, rfl⟩

theorem attempt_keeps (q : Queue α) {c : Call α} (h : c.setsUp = false) :
    (q.attempt c).queue.capacity = q.capacity ∧ (q.attempt c).queue.blocking = q.blocking := by
  cases c with
  | send m =>
    cases hsend : q.send m with
    | stored q' lost =>
      simp only [attempt, hsend]
      exact (send_stored hsend).2
    | waiting => simp only [attempt, hsend, and_self]
  | trySend m => exact (attempt_trySend_rule q m).keeps rfl
  | get => exact (attempt_take_rule q).1.keeps rfl
  | tryGet => exact (attempt_take_rule q).2.keeps rfl
  | getAll => exact ⟨rfl, rfl⟩
  | resize | setBlocking => cases h

/-! ## The capacity along a run -/

theorem roomy_of_make {name : String} {size policy : Value} {q : Queue α}
    (h : make name size policy = .ok q) : q.Roomy := by
  obtain ⟨n, hcap, rfl⟩ := make_eq_ok h
  exact (capacityOf_eq_ok hcap).2

theorem roomy_of_resize {q q' : Queue α} {size : Value} (h : q.resize size = .ok q') : q'.Roomy := by
  cases hcap : capacityOf size with
  | error cause => rw [resize_error hcap] at h; cases h
  | ok n =>
    rw [resize_ok hcap] at h
    cases h
    exact (capacityOf_eq_ok hcap).2

theorem Rule.roomy {q : Queue α} {c : Call α} {t : Attempt α} (h : Rule q c t) (hq : q.Roomy) :
    t.queue.Roomy := by
  cases h with
  | resized hk => simpa [Roomy] using hk
  | resizedOther _ hcap => exact (capacityOf_eq_ok hcap).2
  | _ => exact hq

theorem Run.roomy {l : Line α} {es : List (Entry α)} (h : Run l es) : l.queue.Roomy := by
  refine h.attempts (P := fun q _ => q.Roomy) (fun _ _ _ _ => roomy_of_make) ?_
  intro q _ c hq
  exact (attempt_rule hq c).roomy hq

end Queue

end FrameGraph
