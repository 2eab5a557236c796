import FrameGraph.Proofs.Queue.Calls

/-!
# Waiting and release

A caller that has to wait sleeps until another call wakes it, and then tries again. A call wakes it
whenever it stored or took a message, emptied the queue, or changed the capacity or the policy; a
call that was turned away does not. At most one caller waits at a time.

* `Queue.Held`: the calls that have to wait, `Queue.wakes`: the calls that wake who waits.
* `wakes_of_released`: no wake-up is lost. A call after which the caller no longer has to wait wakes
  it.
* `Line.serve`: one call, with the new attempt of a caller that it wakes.
* `run_release_linearises`: a caller goes on right after the first call that releases it, and the
  run is the one in which it comes right after that call.
-/

namespace FrameGraph.Queue

variable {α : Type} {q : Queue α} {w c : Call α}

/-! ## Who waits and who is woken -/

/-- The calls that have to wait: sending to a full queue that blocks, and getting from an empty
one. -/
def Held (q : Queue α) : Call α → Prop
  | .send _ => q.isFull = true ∧ q.isBlocking = true
  | .get => q.items = []
  | _ => False

/-- Whether a call wakes the caller that waits. -/
def wakes (q : Queue α) : Call α → Bool
  | .send m =>
    match q.send m with
    | .stored _ _ => true
    | .waiting => false
  | .trySend m => (q.trySend m).isSome
  | .get => q.tryGet.isSome
  | .tryGet => q.tryGet.isSome
  | .getAll => true
  | .resize size => (q.resize size).isOk
  | .setBlocking _ => true

theorem response_eq_none_iff (q : Queue α) (c : Call α) :
    (q.attempt c).response = none ↔ q.Held c := by
  cases c with
  | send m =>
    simp only [attempt, send, Held]
    cases q.isFull <;> cases q.isBlocking <;> simp
  | get =>
    cases hitems : q.items <;> simp [attempt, tryGet, Held, hitems]
  | trySend m =>
    simp only [attempt, trySend, Held, iff_false]
    cases q.isFull <;> simp
  | tryGet =>
    cases hitems : q.items <;> simp [attempt, tryGet, Held, hitems]
  | resize size =>
    simp only [attempt, Held, iff_false]
    cases q.resize size <;> simp
  | getAll | setBlocking => simp [attempt, Held]

theorem Held.attempt_eq (hw : q.Held w) : q.attempt w = ⟨q, [], none⟩ := by
  cases w with
  | send m => simp [attempt, send, hw.1, hw.2]
  | get => simp [attempt, tryGet, show q.items = [] from hw]
  | trySend | tryGet | getAll | resize | setBlocking => exact hw.elim

/-- A call that wakes nobody has left the queue as it was. -/
theorem attempt_queue_of_not_wakes (h : q.wakes c = false) : (q.attempt c).queue = q := by
  cases c with
  | send m =>
    simp only [wakes, attempt] at h ⊢
    cases hsend : q.send m with
    | stored q' lost => simp [hsend] at h
    | waiting => rfl
  | trySend m =>
    simp only [wakes, attempt] at h ⊢
    cases htry : q.trySend m with
    | some q' => simp [htry] at h
    | none => rfl
  | get | tryGet =>
    simp only [wakes, attempt] at h ⊢
    cases htry : q.tryGet with
    | some r => simp [htry] at h
    | none => rfl
  | resize size =>
    simp only [wakes, attempt] at h ⊢
    cases hsize : q.resize size with
    | ok q' => simp [hsize, Except.isOk, Except.toBool] at h
    | error cause => rfl
  | getAll | setBlocking => simp [wakes] at h

/-- No wake-up is lost. -/
theorem wakes_of_released (hw : q.Held w) (hfree : ¬(q.attempt c).queue.Held w) :
    q.wakes c = true := by
  cases hwakes : q.wakes c with
  | true => rfl
  | false =>
    rw [attempt_queue_of_not_wakes hwakes] at hfree
    exact absurd hw hfree

/-! ## What releases a caller -/

/-- The calls that can release a waiting caller. A sender is released by a call that takes messages,
by a capacity beyond the content, and by a policy that does not block; a receiver by a message. -/
inductive Releases (q : Queue α) : Call α → Call α → Prop where
  | got (m : α) : Releases q (.send m) .get
  | tried (m : α) : Releases q (.send m) .tryGet
  | emptied (m : α) : Releases q (.send m) .getAll
  | grown (m : α) {k : Int} : (q.size : Int) < k → Releases q (.send m) (.resize (.int k))
  /-- Sizes that are no integers. -/
  | grownOther (m : α) {size : Value} {n : Number} : (∀ k, size ≠ .int k) →
      capacityOf size = .ok n → fills n (dropExcess n q.items).length = false →
      Releases q (.send m) (.resize size)
  | unblocked (m : α) {policy : Value} : policy.truthy = false →
      Releases q (.send m) (.setBlocking policy)
  | sent (m : α) : Releases q .get (.send m)
  | stored (m : α) : Releases q .get (.trySend m)

/-- A capacity that makes messages go is filled by those that stay. -/
theorem size_lt_of_not_fills {k : Int} (hk : 1 ≤ k) {items : List α}
    (h : fills (.int k) (dropExcess (.int k) items).length = false) : (items.length : Int) < k := by
  have hlen := length_dropExcess_int (by omega : 0 ≤ k) items
  simp only [fills, Number.le_int, hlen, decide_eq_false_iff_not] at h
  omega

theorem Releases.of_resize {m : α} {size : Value} (hw : q.Held (.send m))
    (hfree : ¬(q.attempt (.resize size)).queue.Held (.send m)) :
    Releases q (.send m) (.resize size) := by
  cases hcap : capacityOf size with
  | error cause =>
    rw [attempt_resize_error q hcap] at hfree
    exact absurd hw hfree
  | ok n =>
    obtain ⟨old, -, hattempt⟩ := attempt_resize_ok (q := q) hcap
    rw [hattempt] at hfree
    have hroom : fills n (dropExcess n q.items).length = false :=
      Bool.eq_false_iff.mpr fun hfills => hfree ⟨hfills, hw.2⟩
    by_cases hint : ∃ k, size = .int k
    · obtain ⟨k, rfl⟩ := hint
      rcases capacityOf_int k with ⟨hk, hcap'⟩ | ⟨-, cause, hcap', -⟩
      · rw [hcap'] at hcap
        cases hcap
        exact .grown m (size_lt_of_not_fills hk hroom)
      · rw [hcap'] at hcap
        cases hcap
    · exact .grownOther m (fun k hk => hint ⟨k, hk⟩) hcap hroom

theorem Releases.of_send {m : α} (hw : q.Held (.send m)) (hc : ¬q.Held c)
    (hfree : ¬(q.attempt c).queue.Held (.send m)) : Releases q (.send m) c := by
  cases c with
  | get => exact .got m
  | tryGet => exact .tried m
  | getAll => exact .emptied m
  | send m' => exact absurd hw hc
  | trySend m' =>
    simp only [attempt, trySend, hw.1, if_true] at hfree
    exact absurd hw hfree
  | resize size => exact .of_resize hw hfree
  | setBlocking policy =>
    exact .unblocked m (Bool.eq_false_iff.mpr fun hpolicy => hfree ⟨hw.1, hpolicy⟩)

theorem Releases.of_get (hw : q.Held (.get : Call α)) (hfree : ¬(q.attempt c).queue.Held .get) :
    Releases q .get c := by
  have hitems : q.items = [] := hw
  cases c with
  | send m => exact .sent m
  | trySend m => exact .stored m
  | get | tryGet =>
    simp only [attempt, tryGet, hitems] at hfree
    exact absurd hw hfree
  | getAll => exact absurd rfl hfree
  | setBlocking policy => exact absurd hw hfree
  | resize size =>
    rcases attempt_resize_queue q size with ⟨n, -, hqueue⟩ | hqueue
    · rw [hqueue, hitems] at hfree
      exact absurd rfl hfree
    · rw [hqueue] at hfree
      exact absurd hw hfree

theorem Held.releases (hw : q.Held w) (hc : ¬q.Held c) (hfree : ¬(q.attempt c).queue.Held w) :
    Releases q w c := by
  cases w with
  | send m => exact .of_send hw hc hfree
  | get => exact .of_get hw hfree
  | trySend | tryGet | getAll | resize | setBlocking => exact hw.elim

/-! ## Runs with a caller that waits -/

/-- A call with the calls that get their responses by it, in order: the call itself, and the one that
waits if it is woken and does not have to wait any more. A call is not made if it would have to wait
behind another one. -/
def Line.serve (l : Line α) (c : Call α) : Option (Line α × List (Call α × Response α)) :=
  let t := l.queue.attempt c
  match t.response, l.waiting with
  | none, none => some (⟨t.queue, some c⟩, [])
  | none, some _ => none
  | some r, none => some (⟨t.queue, none⟩, [(c, r)])
  | some r, some w =>
    if l.queue.wakes c then
      let again := t.queue.attempt w
      match again.response with
      | some r' => some (⟨again.queue, none⟩, [(c, r), (w, r')])
      | none => some (⟨again.queue, some w⟩, [(c, r)])
    else some (⟨t.queue, some w⟩, [(c, r)])

def Line.serveAll (l : Line α) : List (Call α) → Option (Line α × List (Call α × Response α))
  | [] => some (l, [])
  | c :: cs =>
    (l.serve c).bind fun (l', rs) => (l'.serveAll cs).map fun (l'', rs') => (l'', rs ++ rs')

/-- The queue after calls with nobody waiting. -/
def after (q : Queue α) (cs : List (Call α)) : Queue α := cs.foldl (fun q c => (q.attempt c).queue) q

theorem serve_of_held (hw : q.Held w) : Line.serve ⟨q, none⟩ w = some (⟨q, some w⟩, []) := by
  simp only [Line.serve, hw.attempt_eq]

theorem exists_response (hc : ¬q.Held c) : ∃ r, (q.attempt c).response = some r := by
  rw [← response_eq_none_iff] at hc
  exact Option.ne_none_iff_exists'.mp hc

theorem serve_alone {r : Response α} (hr : (q.attempt c).response = some r) :
    Line.serve ⟨q, none⟩ c = some (⟨(q.attempt c).queue, none⟩, [(c, r)]) := by
  simp only [Line.serve, hr]

theorem serve_stays {r : Response α} (hr : (q.attempt c).response = some r)
    (hstill : (q.attempt c).queue.Held w) :
    Line.serve ⟨q, some w⟩ c = some (⟨(q.attempt c).queue, some w⟩, [(c, r)]) := by
  simp only [Line.serve, hr, hstill.attempt_eq]
  split <;> rfl

theorem serve_releases {r r' : Response α} (hr : (q.attempt c).response = some r) (hw : q.Held w)
    (hr' : ((q.attempt c).queue.attempt w).response = some r') :
    Line.serve ⟨q, some w⟩ c =
      some (⟨((q.attempt c).queue.attempt w).queue, none⟩, [(c, r), (w, r')]) := by
  have hfree : ¬(q.attempt c).queue.Held w := by
    rw [← response_eq_none_iff, hr']
    exact nofun
  simp only [Line.serve, hr, hr', wakes_of_released hw hfree, if_true]

/-- Every call is made, but for one that would have to wait behind another. -/
theorem serve_eq_none_iff (l : Line α) (c : Call α) :
    l.serve c = none ↔ l.waiting.isSome = true ∧ l.queue.Held c := by
  obtain ⟨q, waiting⟩ := l
  cases hr : (q.attempt c).response with
  | none =>
    have hc := (response_eq_none_iff q c).mp hr
    cases waiting with
    | none => simp [serve_of_held hc]
    | some w => simp [Line.serve, hr, hc]
  | some r =>
    have hc : ¬q.Held c := by
      rw [← response_eq_none_iff, hr]
      exact nofun
    refine ⟨fun h => ?_, fun h => absurd h.2 hc⟩
    cases waiting with
    | none => rw [serve_alone hr] at h; cases h
    | some w =>
      simp only [Line.serve, hr] at h
      split at h
      · split at h <;> cases h
      · cases h

theorem serveAll_cons {l l' : Line α} {rs : List (Call α × Response α)}
    (h : l.serve c = some (l', rs)) (cs : List (Call α)) :
    l.serveAll (c :: cs) = (l'.serveAll cs).map fun r => (r.1, rs ++ r.2) := by
  rw [Line.serveAll, h]
  rfl

/-- Runs of calls are runs in which callers that wait try again when they are woken. -/
theorem Run.serve {l l' : Line α} {es : List (Entry α)} {rs : List (Call α × Response α)}
    (hrun : Run l es) (h : l.serve c = some (l', rs)) : ∃ new, Run l' (es ++ new) := by
  obtain ⟨q, waiting⟩ := l
  cases hr : (q.attempt c).response with
  | none =>
    have hc := (response_eq_none_iff q c).mp hr
    cases waiting with
    | none =>
      rw [serve_of_held hc] at h
      cases h
      have hcall : Line.call ⟨q, none⟩ c = some (⟨q, some c⟩, []) := by
        simp only [Line.call, hc.attempt_eq]
      exact ⟨_, hrun.call c hcall⟩
    | some w =>
      rw [(serve_eq_none_iff ⟨q, some w⟩ c).mpr ⟨rfl, hc⟩] at h
      cases h
  | some r =>
    have hcall : Line.call ⟨q, waiting⟩ c =
        some (⟨(q.attempt c).queue, waiting⟩, (q.attempt c).entries) := by
      simp only [Line.call, hr]
    have hcalled := hrun.call c hcall
    simp only [Line.serve, hr] at h
    cases waiting with
    | none => cases h; exact ⟨_, hcalled⟩
    | some w =>
      have hwoken := hcalled.wake
      simp only [Line.wake, List.append_assoc] at hwoken
      dsimp only at h
      split at h
      · cases hr' : ((q.attempt c).queue.attempt w).response with
        | none =>
          simp only [hr', Option.isSome_none, Bool.false_eq_true, if_false] at h hwoken
          cases h
          exact ⟨_, hwoken⟩
        | some r' =>
          simp only [hr', Option.isSome_some, if_true] at h hwoken
          cases h
          exact ⟨_, hwoken⟩
      · cases h
        exact ⟨_, hcalled⟩

/-! ## Linearisation -/

/-- The caller has to wait through all of the calls, and but for it the run is the one without it. -/
structure StaysHeld (q : Queue α) (w : Call α) (cs : List (Call α)) (l : Line α)
    (rs : List (Call α × Response α)) : Prop where
  held : ∀ done rest, cs = done ++ rest → (q.after done).Held w
  waiting : l.waiting = some w
  same : Line.serveAll ⟨q, none⟩ cs = some (⟨l.queue, none⟩, rs)

/-- The caller has to wait up to the call `c`, which releases it. It gets its response right after
that call, and the run is the one in which it calls right after it. -/
structure GoesOn (q : Queue α) (w : Call α) (before : List (Call α)) (c : Call α)
    (rest : List (Call α)) (l : Line α) (rs : List (Call α × Response α)) : Prop where
  held : ∀ done more, before = done ++ more → (q.after done).Held w
  free : ¬(q.after (before ++ [c])).Held w
  cause : Releases (q.after before) w c
  answered : ∃ q' rs' r r', Line.serveAll ⟨q, some w⟩ (before ++ [c]) =
    some (⟨q', none⟩, rs' ++ [(c, r), (w, r')])
  same : Line.serveAll ⟨q, none⟩ (before ++ c :: w :: rest) = some (l, rs)

/-- Prefixes of a longer list of calls, of which the first leaves the caller waiting. -/
theorem held_of_cons (hw : q.Held w) {cs : List (Call α)}
    (h : ∀ done rest, cs = done ++ rest → ((q.attempt c).queue.after done).Held w)
    (done rest : List (Call α)) (hcs : c :: cs = done ++ rest) : (q.after done).Held w := by
  cases done with
  | nil => exact hw
  | cons c' done =>
    obtain ⟨rfl, hrest⟩ := List.cons.inj hcs
    exact h done rest hrest

section Step

variable {r : Response α} {cs : List (Call α)} {l : Line α} {rs : List (Call α × Response α)}

theorem StaysHeld.cons (h : StaysHeld (q.attempt c).queue w cs l rs) (hw : q.Held w)
    (hr : (q.attempt c).response = some r) : StaysHeld q w (c :: cs) l ((c, r) :: rs) where
  held := held_of_cons hw h.held
  waiting := h.waiting
  same := by
    rw [serveAll_cons (serve_alone hr), h.same]
    rfl

theorem GoesOn.cons {before rest : List (Call α)} {c' : Call α}
    (h : GoesOn (q.attempt c).queue w before c' rest l rs) (hw : q.Held w)
    (hr : (q.attempt c).response = some r) (hstill : (q.attempt c).queue.Held w) :
    GoesOn q w (c :: before) c' rest l ((c, r) :: rs) where
  held := held_of_cons hw h.held
  free := h.free
  cause := h.cause
  answered := by
    obtain ⟨q', rs', r', r'', hserve⟩ := h.answered
    refine ⟨q', (c, r) :: rs', r', r'', ?_⟩
    rw [List.cons_append, serveAll_cons (serve_stays hr hstill), hserve]
    rfl
  same := by
    rw [List.cons_append, serveAll_cons (serve_alone hr), h.same]
    rfl

/-- A call that releases the caller is followed by the caller's own. -/
theorem GoesOn.first (hw : q.Held w) (hr : (q.attempt c).response = some r)
    (hfree : ¬(q.attempt c).queue.Held w)
    (h : Line.serveAll ⟨q, some w⟩ (c :: cs) = some (l, rs)) : GoesOn q w [] c cs l rs := by
  obtain ⟨r', hr'⟩ := exists_response hfree
  have hserve := serve_releases hr hw hr'
  refine ⟨?_, hfree, ?_, ?_, ?_⟩
  · intro done more hdone
    obtain ⟨rfl, -⟩ := List.nil_eq_append_iff.mp hdone
    exact hw
  · have hc : ¬q.Held c := by
      rw [← response_eq_none_iff, hr]
      exact nofun
    exact hw.releases hc hfree
  · refine ⟨((q.attempt c).queue.attempt w).queue, [], r, r', ?_⟩
    rw [List.nil_append, serveAll_cons hserve]
    rfl
  · rw [serveAll_cons hserve] at h
    rw [List.nil_append, serveAll_cons (serve_alone hr), serveAll_cons (serve_alone hr'),
      Option.map_map, ← h]
    rfl

end Step

/-- By induction on the calls: each leaves the caller waiting, or it is the first to release it. -/
theorem held_linearises (hw : q.Held w) {cs : List (Call α)} {l : Line α}
    {rs : List (Call α × Response α)} (h : Line.serveAll ⟨q, some w⟩ cs = some (l, rs)) :
    StaysHeld q w cs l rs ∨
      ∃ before c rest, cs = before ++ c :: rest ∧ GoesOn q w before c rest l rs := by
  induction cs generalizing q rs with
  | nil =>
    cases h
    refine Or.inl ⟨?_, rfl, rfl⟩
    intro done rest hdone
    obtain ⟨rfl, -⟩ := List.nil_eq_append_iff.mp hdone
    exact hw
  | cons c cs ih =>
    cases hr : (q.attempt c).response with
    | none =>
      have hc := (response_eq_none_iff q c).mp hr
      have hserve := (serve_eq_none_iff ⟨q, some w⟩ c).mpr ⟨rfl, hc⟩
      simp only [Line.serveAll, hserve, Option.bind_none] at h
      cases h
    | some r =>
      by_cases hstill : (q.attempt c).queue.Held w
      · rw [serveAll_cons (serve_stays hr hstill)] at h
        obtain ⟨⟨l', rs'⟩, hrest, heq⟩ := Option.map_eq_some_iff.mp h
        cases heq
        rcases ih hstill hrest with hstays | ⟨before, c', rest, rfl, hgoes⟩
        · exact Or.inl (hstays.cons hw hr)
        · exact Or.inr ⟨c :: before, c', rest, rfl, hgoes.cons hw hr hstill⟩
      · exact Or.inr ⟨[], c, cs, rfl, .first hw hr hstill h⟩

theorem Run.serveAll {l l' : Line α} {es : List (Entry α)} {cs : List (Call α)}
    {rs : List (Call α × Response α)} (hrun : Run l es) (h : l.serveAll cs = some (l', rs)) :
    ∃ new, Run l' (es ++ new) := by
  induction cs generalizing l es rs with
  | nil =>
    cases h
    exact ⟨[], by rwa [List.append_nil]⟩
  | cons c cs ih =>
    obtain ⟨⟨l₁, rs₁⟩, hserve, h⟩ := Option.bind_eq_some_iff.mp h
    obtain ⟨⟨l₂, rs₂⟩, hrest, heq⟩ := Option.map_eq_some_iff.mp h
    cases heq
    obtain ⟨new, hrun₁⟩ := hrun.serve hserve
    obtain ⟨new', hrun₂⟩ := ih hrun₁ hrest
    exact ⟨new ++ new', by rwa [← List.append_assoc]⟩

/-- A call has to wait on a queue that a run reaches, and other calls come after it. Either it has to
wait through all of them, and they make the run they would make without it. Or it has to wait up to
the first call that releases it, and then the run is the one in which it is made right after that
call: with the same queue, the same responses in the same order, and the same caller that waits in
the end. -/
theorem run_release_linearises {es : List (Entry α)} (hrun : Run ⟨q, none⟩ es) (hw : q.Held w)
    {cs : List (Call α)} {l : Line α} {rs : List (Call α × Response α)}
    (h : Line.serveAll ⟨q, none⟩ (w :: cs) = some (l, rs)) :
    (∃ new, Run l (es ++ new)) ∧
      (StaysHeld q w cs l rs ∨
        ∃ before c rest, cs = before ++ c :: rest ∧ GoesOn q w before c rest l rs) := by
  refine ⟨hrun.serveAll h, ?_⟩
  rw [serveAll_cons (serve_of_held hw)] at h
  obtain ⟨⟨l', rs'⟩, hrest, heq⟩ := Option.map_eq_some_iff.mp h
  cases heq
  exact held_linearises hw hrest

/-- Two messages fill a queue in front of which a third one waits. A change of the capacity to one
loses the oldest message and leaves the queue full; then a receiver takes the other one. -/
def shrunkCalls : List (Call Nat) := [.trySend 9, .resize (.int 1), .get]

theorem run_filled : Run (⟨⟨"q", .int 2, .bool true, [1, 2]⟩, none⟩ : Line Nat)
    [.accepted 1, .accepted 2] := by
  have hmake : make "q" (.int 2) (.bool true) = .ok (⟨"q", .int 2, .bool true, []⟩ : Queue Nat) := rfl
  have hstart : Run (⟨⟨"q", .int 2, .bool true, []⟩, none⟩ : Line Nat) [] := .start hmake
  have hfirst : Run (⟨⟨"q", .int 2, .bool true, [1]⟩, none⟩ : Line Nat) [.accepted 1] :=
    hstart.call (.send 1) rfl
  exact hfirst.call (.send 2) rfl

theorem shrunkCalls_linearises :
    Held (⟨"q", .int 2, .bool true, [1, 2]⟩ : Queue Nat) (.send 3) ∧
      ∃ rs, Line.serveAll (⟨⟨"q", .int 2, .bool true, [1, 2]⟩, none⟩ : Line Nat)
          [.send 3, .trySend 9, .resize (.int 1), .get] =
        some (⟨⟨"q", .int 1, .bool true, [3]⟩, none⟩, rs) ∧
      Line.serveAll (⟨⟨"q", .int 2, .bool true, [1, 2]⟩, none⟩ : Line Nat)
          [.trySend 9, .resize (.int 1), .get, .send 3] =
        some (⟨⟨"q", .int 1, .bool true, [3]⟩, none⟩, rs) := by
  have hheld : Held (⟨"q", .int 2, .bool true, [1, 2]⟩ : Queue Nat) (.send 3) := ⟨rfl, rfl⟩
  have hserve : Line.serveAll (⟨⟨"q", .int 2, .bool true, [1, 2]⟩, none⟩ : Line Nat)
      (.send 3 :: shrunkCalls) = some (⟨⟨"q", .int 1, .bool true, [3]⟩, none⟩,
        [(.trySend 9, .sent false), (.resize (.int 1), .done), (.get, .message 2),
          (.send 3, .done)]) := rfl
  refine ⟨hheld, _, hserve, ?_⟩
  rcases (run_release_linearises run_filled hheld hserve).2 with hstays | ⟨before, c, rest, hcs, hgoes⟩
  · have hlast := (hstays.held shrunkCalls [] rfl).1
    cases hlast
  · have hsame := hgoes.same
    -- The sender is still held after one call and after two.
    rcases before with _ | ⟨b, _ | ⟨b', _ | ⟨b'', before⟩⟩⟩
    · cases hcs
      exact absurd ⟨rfl, rfl⟩ hgoes.free
    · cases hcs
      exact absurd ⟨rfl, rfl⟩ hgoes.free
    · cases hcs
      exact hsame
    · simp [shrunkCalls] at hcs

end FrameGraph.Queue
