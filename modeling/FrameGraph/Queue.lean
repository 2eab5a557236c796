import FrameGraph.Value

/-!
# Message queues

An input port keeps the messages it has received in a bounded queue. A full queue makes a sender
wait when it is blocking, and loses its oldest message when it is not; a sender that only tries is
turned away in either case. The capacity is a number and may change while messages are queued, and
the policy is any value, blocking when it counts as true.

* `Queue.make`, `Queue.resize`: a capacity below one is refused.
* `Queue.send`: one attempt of a sender, whose message is stored or waits.
* `send_stored`: a message that was stored is the newest one.
* `trySend_eq_none_iff`: who only tries is turned away by a full queue.
-/

namespace FrameGraph

structure Queue (α : Type) where
  name : String
  capacity : Number
  blocking : Value
  /-- The content, oldest first. -/
  items : List α
  deriving Inhabited

namespace Queue

variable {α : Type}

/-- The capacity where none is stated. -/
def defaultCapacity : Nat := 8

/-- A value as a capacity: only numbers compare with one, and a capacity below one is refused. -/
def capacityOf (v : Value) : Except Fault Number :=
  match v.content with
  | .number n =>
    if n.lt (.int 1) then do .error (.refused (.queueCapacity (← n.text))) else .ok n
  | _ => .error .wrongType

def make (name : String) (capacity blocking : Value) : Except Fault (Queue α) := do
  let capacity ← capacityOf capacity
  .ok { name, capacity, blocking, items := [] }

def size (q : Queue α) : Nat := q.items.length

/-- Whether a queue of this capacity with `n` messages has no room. -/
def fills (capacity : Number) (n : Nat) : Bool := capacity.le (.int n)

def isFull (q : Queue α) : Bool := fills q.capacity q.size

/-- Whether a full queue makes a sender wait. -/
def isBlocking (q : Queue α) : Bool := q.blocking.truthy

/-- Drops the oldest items until no more are left than the capacity. -/
def dropExcess (capacity : Number) : List α → List α
  | [] => []
  | x :: rest =>
    if capacity.lt (.int (rest.length + 1)) then dropExcess capacity rest else x :: rest

/-- Changes the capacity. Where there are now too many messages the oldest ones are lost. -/
def resize (q : Queue α) (capacity : Value) : Except Fault (Queue α) := do
  let capacity ← capacityOf capacity
  .ok { q with capacity, items := dropExcess capacity q.items }

def setBlocking (q : Queue α) (blocking : Value) : Queue α := { q with blocking }

inductive Sent (α : Type) where
  /-- The message is stored, and the oldest one may have been lost for it. -/
  | stored (q : Queue α) (lost : Option α)
  /-- The queue is full and makes the sender wait. -/
  | waiting

def send (q : Queue α) (m : α) : Sent α :=
  if q.isFull then
    if q.isBlocking then .waiting
    else .stored { q with items := q.items.tail ++ [m] } q.items.head?
  else .stored { q with items := q.items ++ [m] } none

def trySend (q : Queue α) (m : α) : Option (Queue α) :=
  if q.isFull then none else some { q with items := q.items ++ [m] }

def tryGet (q : Queue α) : Option (α × Queue α) :=
  match q.items with
  | [] => none
  | m :: rest => some (m, { q with items := rest })

/-- The longest time in seconds that a wait can be limited to. -/
def longestWait : Number := .int 9223372036

/-- How a wait of limited time on an empty queue ends when no message comes. -/
def waitFault (q : Queue α) (timeout : Value) : Fault :=
  match timeout.content with
  | .number n => if longestWait.lt n then .overflow else .timedOut q.name
  | _ => .wrongType

def getAll (q : Queue α) : List α × Queue α := (q.items, { q with items := [] })

def text (name : MessageText) (q : Queue α) : Except Fault String := do
  return "MessageQueue(name=" ++ q.name ++ ", size=" ++ toString q.size ++ "/" ++
    (← q.capacity.text) ++ ", blocking=" ++ (← q.blocking.shown name) ++ ")"

/-! ## What the operations do -/

theorem capacityOf_eq_ok {v : Value} {n : Number} (h : capacityOf v = .ok n) :
    v.content = .number n ∧ n.lt (.int 1) = false := by
  unfold capacityOf at h
  split at h
  · rename_i m hm
    split at h
    · cases ht : m.text <;> rw [ht] at h <;> cases h
    · cases h
      simp_all
  · cases h

theorem send_stored {q q' : Queue α} {m : α} {lost : Option α} (h : q.send m = .stored q' lost) :
    q'.items.getLast? = some m ∧ q'.capacity = q.capacity ∧ q'.blocking = q.blocking := by
  unfold send at h
  split at h
  · split at h
    · cases h
    · cases h; simp
  · cases h; simp

theorem trySend_eq_none_iff (q : Queue α) (m : α) : q.trySend m = none ↔ q.isFull = true := by
  unfold trySend
  split <;> simp_all

end Queue

end FrameGraph
