import FrameGraph.Proofs.Queue.Calls

/-!
# The ledger of a queue

The ledger of a run says in order which messages were accepted, returned and dropped. A queue is
first in, first out: the messages that have left it, returned or dropped, followed by its content are
the accepted messages in the order of their acceptance.

* `run_ledger`: this law at every point of every run, together with the rule of the next attempt,
  which says which messages it drops.
-/

namespace FrameGraph.Queue

variable {α : Type}

namespace Entry

def accepted? : Entry α → Option α
  | .accepted m => some m
  | _ => none

def returned? : Entry α → Option α
  | .returned m => some m
  | _ => none

/-- A message that left the queue, whoever got it. -/
def removed? : Entry α → Option α
  | .returned m => some m
  | .dropped m => some m
  | .accepted _ => none

end Entry

def accepted (es : List (Entry α)) : List α := es.filterMap Entry.accepted?

def returned (es : List (Entry α)) : List α := es.filterMap Entry.returned?

def removed (es : List (Entry α)) : List α := es.filterMap Entry.removed?

@[simp] theorem accepted_append (es new : List (Entry α)) :
    accepted (es ++ new) = accepted es ++ accepted new := List.filterMap_append

@[simp] theorem removed_append (es new : List (Entry α)) :
    removed (es ++ new) = removed es ++ removed new := List.filterMap_append

theorem accepted_map_dropped (ms : List α) : accepted (ms.map .dropped) = [] := by
  simp [accepted, List.filterMap_map, Function.comp_def, Entry.accepted?]

theorem accepted_map_returned (ms : List α) : accepted (ms.map .returned) = [] := by
  simp [accepted, List.filterMap_map, Function.comp_def, Entry.accepted?]

theorem removed_map_dropped (ms : List α) : removed (ms.map .dropped) = ms := by
  simp [removed, List.filterMap_map, Function.comp_def, Entry.removed?]

theorem removed_map_returned (ms : List α) : removed (ms.map .returned) = ms := by
  simp [removed, List.filterMap_map, Function.comp_def, Entry.removed?]

theorem returned_sublist_removed (es : List (Entry α)) : (returned es).Sublist (removed es) := by
  induction es with
  | nil => exact List.Sublist.refl _
  | cons e es ih =>
    cases e with
    | accepted m => exact ih
    | returned m => exact ih.cons_cons m
    | dropped m => exact ih.cons m

/-- An attempt appends what it accepts at the end and takes what it removes from the front. -/
theorem Rule.conserves {q : Queue α} {c : Call α} {t : Attempt α} (h : Rule q c t) :
    q.items ++ accepted t.entries = removed t.entries ++ t.queue.items := by
  cases h with
  | sent | stored => simp [accepted, removed, Entry.accepted?, Entry.removed?]
  | overflowed _ _ hitems | got hitems | tried hitems =>
    simp [accepted, removed, List.filterMap_cons, Entry.accepted?, Entry.removed?, hitems]
  | emptied => simp [accepted_map_returned, removed_map_returned]
  | resized _ hitems | resizedOther _ _ hitems =>
    simp [accepted_map_dropped, removed_map_dropped, hitems]
  | held | rejected | starved | empty | tooSmall | refusedOther | switched =>
    simp [accepted, removed]

theorem Run.conserves {l : Line α} {es : List (Entry α)} (h : Run l es) :
    removed es ++ l.queue.items = accepted es := by
  refine (h.attempts (P := fun q es => q.Roomy ∧ removed es ++ q.items = accepted es) ?_ ?_).2
  · intro name size policy q hq
    refine ⟨roomy_of_make hq, ?_⟩
    obtain ⟨n, -, rfl⟩ := make_eq_ok hq
    rfl
  · intro q es c ⟨hq, ih⟩
    have hrule := attempt_rule hq c
    refine ⟨hrule.roomy hq, ?_⟩
    rw [removed_append, accepted_append, List.append_assoc, ← hrule.conserves,
      ← List.append_assoc, ih]

/-- At every point of every run, what was removed followed by the content is what was accepted, in
order, and receivers got their messages in the order of acceptance. The next attempt at any call
keeps the rule, so messages are dropped by a sender that finds a full queue which does not block, by
a change of the capacity, and by nothing else. -/
theorem run_ledger {l : Line α} {es : List (Entry α)} (h : Run l es) :
    removed es ++ l.queue.items = accepted es ∧ (returned es).Sublist (accepted es) ∧
      ∀ c, Rule l.queue c (l.queue.attempt c) := by
  have hlaw := h.conserves
  refine ⟨hlaw, ?_, fun c => attempt_rule h.roomy c⟩
  rw [← hlaw]
  exact (returned_sublist_removed es).trans (List.sublist_append_left _ _)

/-- A sender waits in front of a full queue, whose policy is changed meanwhile; then it goes on, and
the oldest message is lost. -/
theorem switched_run :
    Run (⟨⟨"q", .int 1, .bool false, [2]⟩, none⟩ : Line Nat)
      [.accepted 1, .dropped 1, .accepted 2] := by
  have hmake : make "q" (.int 1) (.bool true) = .ok (⟨"q", .int 1, .bool true, []⟩ : Queue Nat) := rfl
  have hstart : Run (⟨⟨"q", .int 1, .bool true, []⟩, none⟩ : Line Nat) [] := .start hmake
  have hfirst : Run (⟨⟨"q", .int 1, .bool true, [1]⟩, none⟩ : Line Nat) [.accepted 1] :=
    hstart.call (.send 1) rfl
  have hwaiting : Run (⟨⟨"q", .int 1, .bool true, [1]⟩, some (.send 2)⟩ : Line Nat) [.accepted 1] :=
    hfirst.call (.send 2) rfl
  have hswitched : Run (⟨⟨"q", .int 1, .bool false, [1]⟩, some (.send 2)⟩ : Line Nat)
      [.accepted 1] := hwaiting.call (.setBlocking (.bool false)) rfl
  exact hswitched.wake

theorem run_ledger_switched :
    Run (⟨⟨"q", .int 1, .bool false, [2]⟩, none⟩ : Line Nat)
        [.accepted 1, .dropped 1, .accepted 2] ∧
      removed [.accepted 1, .dropped 1, .accepted 2] ++ [2] = accepted [.accepted 1, .dropped 1,
        .accepted 2] ∧
      Rule (⟨"q", .int 1, .bool false, [2]⟩ : Queue Nat) (.send 3)
        ⟨⟨"q", .int 1, .bool false, [3]⟩, [.dropped 2, .accepted 3], some .done⟩ := by
  obtain ⟨hlaw, _, hrule⟩ := run_ledger switched_run
  exact ⟨switched_run, hlaw, hrule (.send 3)⟩

end FrameGraph.Queue
