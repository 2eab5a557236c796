/-!
# Types of messages

Messages are buffers, image frames or message groups; frames and groups are kinds of buffer. A port
names the types it carries, each alone or with the types derived from it, and two ports are
compatible when one of the types of one meets one of the types of the other.

* `Accepts.meets_iff`: two declarations meet exactly when some type belongs to both.
-/

namespace FrameGraph

inductive Datatype where
  | buffer
  | imgFrame
  | messageGroup
  deriving DecidableEq, Repr, Inhabited

namespace Datatype

def parent? : Datatype → Option Datatype
  | .buffer => none
  | .imgFrame => some .buffer
  | .messageGroup => some .buffer

/-- Walks from a type towards its ancestors; the tree has fewer levels than types. -/
def hasAncestor (ancestor : Datatype) : Nat → Datatype → Bool
  | 0, _ => false
  | levels + 1, type =>
    match type.parent? with
    | none => false
    | some p => p = ancestor || hasAncestor ancestor levels p

def derivesFrom (type ancestor : Datatype) : Bool := hasAncestor ancestor 3 type

/-- Every type has one parent at most, so two ancestors of a type stand above each other. -/
theorem comparable {t a b : Datatype} (ha : t.derivesFrom a = true) (hb : t.derivesFrom b = true) :
    a = b ∨ a.derivesFrom b = true ∨ b.derivesFrom a = true := by
  revert ha hb
  cases t <;> cases a <;> cases b <;> decide

def name : Datatype → String
  | .buffer => "Buffer"
  | .imgFrame => "ImgFrame"
  | .messageGroup => "MessageGroup"

def ofName? (s : String) : Option Datatype :=
  [buffer, imgFrame, messageGroup].find? fun t => t.name == s

end Datatype

/-- A type a port carries, with or without the types derived from it. -/
structure Accepts where
  type : Datatype
  descendants : Bool
  deriving DecidableEq, Repr, Inhabited

namespace Accepts

def Denotes (a : Accepts) (t : Datatype) : Prop :=
  t = a.type ∨ (a.descendants = true ∧ t.derivesFrom a.type = true)

/-- Whether an output's and an input's declaration are compatible: the same type, or one of them
includes derived types and the other's type is one of these. -/
def meets (output input : Accepts) : Bool :=
  output.type = input.type ||
    (input.descendants && output.type.derivesFrom input.type) ||
    (output.descendants && input.type.derivesFrom output.type)

instance (a : Accepts) (t : Datatype) : Decidable (a.Denotes t) := by
  unfold Denotes; infer_instance

theorem meets_iff (a b : Accepts) : a.meets b = true ↔ ∃ t, a.Denotes t ∧ b.Denotes t := by
  simp only [meets, Bool.or_eq_true, Bool.and_eq_true, decide_eq_true_eq]
  constructor
  · rintro ((h | ⟨hb, h⟩) | ⟨ha, h⟩)
    · exact ⟨a.type, Or.inl rfl, Or.inl h⟩
    · exact ⟨a.type, Or.inl rfl, Or.inr ⟨hb, h⟩⟩
    · exact ⟨b.type, Or.inr ⟨ha, h⟩, Or.inl rfl⟩
  · rintro ⟨t, rfl | ⟨ha, hta⟩, htb | ⟨hb, htb⟩⟩
    · exact Or.inl (Or.inl htb)
    · exact Or.inl (Or.inr ⟨hb, htb⟩)
    · subst htb
      exact Or.inr ⟨ha, hta⟩
    · -- A type below both: one of the two declared types is the other's ancestor.
      rcases Datatype.comparable hta htb with heq | hab | hba
      · exact Or.inl (Or.inl heq)
      · exact Or.inl (Or.inr ⟨hb, hab⟩)
      · exact Or.inr ⟨ha, hba⟩

end Accepts

/-- What a port carries unless it says otherwise: buffers of every kind. -/
def defaultAccepts : List Accepts := [⟨.buffer, true⟩]

/-- Whether two ports' declarations have compatible members. -/
def compatible (outputs inputs : List Accepts) : Bool :=
  outputs.any fun o => inputs.any fun i => o.meets i

end FrameGraph
