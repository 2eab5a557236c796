import FrameGraph.Text.Blank
import FrameGraph.Value

/-!
# Names of ports

A port is named by a group and a name; a port outside every group has the empty group. In a
description a port is written `name` or `group[key]`, and an end of a connection is written with the
alias of its node and a dot in front.

* `PortLabel.read`, `EndpointSpec.read`: what a text names.
* `readTrimmed?_name`, `readTrimmed?_group`: the two written forms and what they name.
-/

namespace FrameGraph

/-- What names a port among the ports of its node in one direction. -/
structure PortLabel where
  group : String
  name : String
  deriving DecidableEq, Repr, Inhabited

namespace PortLabel

/-- The label as it is shown: the name alone, or the group with the name as its key. -/
def text (l : PortLabel) : String :=
  if l.group = "" then l.name else l.group ++ "[\"" ++ l.name ++ "\"]"

/-- Characters that can stand in a written port name or group. -/
def isNameChar (c : Char) : Bool := c ≠ '.' && c ≠ '[' && c ≠ ']'

/-- Quotation marks, which may stand around a written key. -/
def isQuote (c : Char) : Bool := c = '"' || c = '\''

/-- The key between square brackets: white space and then quotation marks at its ends do not
count. -/
def readKey (key : List Char) : List Char := Text.stripBy isQuote (Text.strip key)

/-- Reads a written port without white space around it. -/
def readTrimmed? (s : List Char) : Option PortLabel :=
  match s.takeWhile isNameChar, s.dropWhile isNameChar with
  | [], _ => none
  | name, [] => some ⟨"", String.ofList name⟩
  | group, '[' :: rest =>
    let key := rest.takeWhile (· ≠ ']')
    if key ≠ [] ∧ rest.dropWhile (· ≠ ']') = [']'] then
      some ⟨String.ofList group, String.ofList (readKey key)⟩
    else none
  | _, _ => none

def read (spec : String) : Except Fault PortLabel :=
  match readTrimmed? (Text.strip spec.toList) with
  | some label => .ok label
  | none => .error (.refused (.portSpec spec))

/-- Reads a written port given as a value. Only texts can be read. -/
def ofValue : Value → Except Fault PortLabel
  | .text spec => read spec
  | .bytes _ => .error .wrongType
  | _ => .error .noMember

/-! ## The written forms -/

theorem takeWhile_all {p : Char → Bool} {s : List Char} (h : ∀ c ∈ s, p c = true) :
    s.takeWhile p = s ∧ s.dropWhile p = [] := by
  induction s with
  | nil => simp
  | cons c s ih =>
    have hc := h c (by simp)
    have := ih fun d hd => h d (by simp [hd])
    simp [hc, this]

theorem takeWhile_stop {p : Char → Bool} {s : List Char} {c : Char} (t : List Char)
    (h : ∀ d ∈ s, p d = true) (hc : p c = false) :
    (s ++ c :: t).takeWhile p = s ∧ (s ++ c :: t).dropWhile p = c :: t := by
  induction s with
  | nil => simp [hc]
  | cons d s ih =>
    have hd := h d (by simp)
    have := ih fun e he => h e (by simp [he])
    simp [hd, this]

theorem readTrimmed?_name {s : List Char} (hne : s ≠ []) (h : ∀ c ∈ s, isNameChar c = true) :
    readTrimmed? s = some ⟨"", String.ofList s⟩ := by
  have ht := takeWhile_all h
  cases s with
  | nil => exact absurd rfl hne
  | cons c s => simp [readTrimmed?, ht.1, ht.2]

theorem readTrimmed?_group {g k : List Char} (hg : g ≠ []) (h : ∀ c ∈ g, isNameChar c = true)
    (hk : k ≠ []) (hk' : ∀ c ∈ k, c ≠ ']') :
    readTrimmed? (g ++ '[' :: (k ++ [']'])) =
      some ⟨String.ofList g, String.ofList (readKey k)⟩ := by
  have ht := takeWhile_stop (k ++ [']']) h (c := '[') (by decide)
  have hk'' : ∀ c ∈ k, decide (c ≠ ']') = true := fun c hc => by simp [hk' c hc]
  have hs := takeWhile_stop (p := fun c => decide (c ≠ ']')) (c := ']') [] hk'' (by decide)
  cases g with
  | nil => exact absurd rfl hg
  | cons c g =>
    unfold readTrimmed?
    rw [ht.1, ht.2]
    simp only [hs.1, hs.2, hk, ne_eq, not_false_eq_true, and_self, if_true]

end PortLabel

/-- A written end of a connection. -/
structure EndpointSpec where
  node : String
  port : PortLabel
  deriving DecidableEq, Repr, Inhabited

namespace EndpointSpec

/-- Reads a written end: the alias is what stands before the first dot. -/
def read (spec : String) : Except Fault EndpointSpec :=
  match spec.toList.takeWhile (· ≠ '.'), spec.toList.dropWhile (· ≠ '.') with
  | [], _ => .error (.refused (.endpointSpec spec))
  | _, [] => .error (.refused (.endpointSpec spec))
  | node, _ :: port => do
    let port ← PortLabel.read (String.ofList port)
    .ok ⟨String.ofList node, port⟩

/-- Reads a written end given as a value. Only texts can be read. -/
def ofValue : Value → Except Fault EndpointSpec
  | .text spec => read spec
  | .bytes _ => .error .wrongType
  | _ => .error .noMember

end EndpointSpec

end FrameGraph
