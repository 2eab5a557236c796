import FrameGraph.Calendar
import FrameGraph.Fault
import FrameGraph.Number
import FrameGraph.Table
import FrameGraph.Text.Quoted

/-!
# Values

A configuration, the settings of a node and the content of a queue are made of values whose type is
only known when they are used: nothing, numbers, texts, byte strings, dates and moments, lists,
tuples, sets, dictionaries in the order of their entries, and messages; a group of messages is gone
through by the names of its members. A value that stands in several places of a document carries a
label there, by which it is known again; inside itself the label stands for it. This module says
when two values are equal, how they are ordered, which count as false, and how they are shown.
-/

namespace FrameGraph

inductive Value where
  | null
  | number (n : Number)
  | text (s : String)
  | bytes (data : List UInt8)
  | date (d : Date)
  | moment (m : Moment)
  | list (items : List Value)
  | tuple (items : List Value)
  | set (members : List Value)
  | dict (entries : List (Value × Value))
  | message (ref : Ref .message)
  /-- A message that is a group, with the members it has when the value is stated. -/
  | group (ref : Ref .message) (members : List (String × Ref .message))
  /-- A value with a label. `recursive` tells whether the label stands for it inside of it. -/
  | labelled (label : Nat) (recursive : Bool) (content : Value)
  /-- Inside a value with a label, that value. -/
  | again (label : Nat)
  deriving Inhabited, Repr

abbrev MessageText := Ref .message → Except Fault String

namespace Value

@[match_pattern] abbrev bool (b : Bool) : Value := .number (.bool b)
@[match_pattern] abbrev int (n : Int) : Value := .number (.int n)
@[match_pattern] abbrev float (x : Binary64) : Value := .number (.float x)

/-! ## Labels -/

mutual

/-- Puts a value in the places where its label stands for it. -/
def unfoldWith (label : Nat) (whole : Value) : Value → Value
  | .list items => .list (unfoldItems label whole items)
  | .tuple items => .tuple (unfoldItems label whole items)
  | .set members => .set (unfoldItems label whole members)
  | .dict entries => .dict (unfoldEntries label whole entries)
  | .labelled l recursive content =>
    if l = label then .labelled l recursive content
    else .labelled l recursive (unfoldWith label whole content)
  | .again l => if l = label then whole else .again l
  | v => v

def unfoldItems (label : Nat) (whole : Value) : List Value → List Value
  | [] => []
  | v :: rest => unfoldWith label whole v :: unfoldItems label whole rest

def unfoldEntries (label : Nat) (whole : Value) : List (Value × Value) → List (Value × Value)
  | [] => []
  | (k, v) :: rest =>
    (unfoldWith label whole k, unfoldWith label whole v) :: unfoldEntries label whole rest

end

def content : Value → Value
  | .labelled label recursive c =>
    if recursive then unfoldWith label (.labelled label recursive c) c else c
  | v => v

def label? : Value → Option Nat
  | .labelled label _ _ => some label
  | .again label => some label
  | _ => none

/-- Whether two values are known to be the same one, and not only equal. -/
def isSame (v w : Value) : Bool :=
  match v.label?, w.label? with
  | some a, some b => a == b
  | _, _ => false

/-! ## Truth -/

/-- Nothing, zero and whatever is empty count as false, and everything else as true. -/
def truthy : Value → Bool
  | .null => false
  | .number n => !n.isZero
  | .text s => s != ""
  | .bytes data => !data.isEmpty
  | .list items => !items.isEmpty
  | .tuple items => !items.isEmpty
  | .set members => !members.isEmpty
  | .dict entries => !entries.isEmpty
  | .group _ members => !members.isEmpty
  | .labelled _ _ content => content.truthy
  | _ => true

/-- The value, or another one where it counts as false. -/
def orElse (v w : Value) : Value := if v.truthy then v else w

/-! ## Equality -/

/-- Whether two lists have equally many items, all equal in order. -/
def equalItems (equal : Value → Value → Except Fault Bool) :
    List Value → List Value → Except Fault Bool
  | [], [] => .ok true
  | x :: xs, y :: ys => do if ← equal x y then equalItems equal xs ys else .ok false
  | _, _ => .ok false

/-- The value under a key, where keys are the same or equal. -/
def lookup (equal : Value → Value → Except Fault Bool) (key : Value) :
    List (Value × Value) → Except Fault (Option Value)
  | [] => .ok none
  | e :: rest => do if ← equal key e.1 then .ok (some e.2) else lookup equal key rest

/-- Whether every entry of the first list has an equal one in the second. -/
def equalEntries (equal : Value → Value → Except Fault Bool) :
    List (Value × Value) → List (Value × Value) → Except Fault Bool
  | [], _ => .ok true
  | (k, v) :: rest, ys => do
    match ← lookup equal k ys with
    | some w => if ← equal v w then equalEntries equal rest ys else .ok false
    | none => .ok false

/-- Whether every value of the first list has an equal one in the second. -/
def isIncluded (equal : Value → Value → Except Fault Bool) :
    List Value → List Value → Except Fault Bool
  | [], _ => .ok true
  | x :: xs, ys => do
    if ← ys.anyM (equal x) then isIncluded equal xs ys else .ok false

/-- Equality down to a depth. Numbers are equal by what they denote, moments by their instants,
lists and tuples item by item, sets when they have the same members, and dictionaries when they have
equally many entries and every key of one has an equal value in the other. What two values consist
of is also equal where it is the same. -/
def equalWithin : Nat → Value → Value → Except Fault Bool
  | 0, _, _ => .error .tooDeep
  | depth + 1, v, w =>
    let equal (x y : Value) : Except Fault Bool :=
      if x.isSame y then .ok true else equalWithin depth x y
    match v.content, w.content with
    | .null, .null => .ok true
    | .number a, .number b => .ok (a.equal b)
    | .text a, .text b => .ok (a == b)
    | .bytes a, .bytes b => .ok (a == b)
    | .date a, .date b => .ok (a == b)
    | .moment a, .moment b => .ok (a.compare? b == some .eq)
    | .list xs, .list ys =>
      if xs.length = ys.length then equalItems equal xs ys else .ok false
    | .tuple xs, .tuple ys => equalItems equal xs ys
    | .set xs, .set ys =>
      if xs.length = ys.length then isIncluded equal xs ys else .ok false
    | .dict xs, .dict ys =>
      if xs.length = ys.length then equalEntries equal xs ys else .ok false
    | .message a, .message b => .ok (a == b)
    | .group a _, .group b _ => .ok (a == b)
    | _, _ => .ok false

def comparisonDepth : Nat := 1000

/-- Equality. Values that cannot be compared are not equal. -/
def equal (v w : Value) : Bool := (equalWithin comparisonDepth v w).toOption.getD false

theorem equal_text_iff {v : Value} {a : String} : v.equal (text a) = true ↔ v.content = text a := by
  rw [equal, comparisonDepth, equalWithin]
  cases hv : v.content <;> simp [content, Except.toOption]

def coincides (v w : Value) : Bool := v.isSame w || v.equal w

def isOneOf (v : Value) (choices : List Value) : Bool := choices.any fun c => v.coincides c

mutual

/-- Whether a value can be a key: everything but lists, sets, dictionaries and what consists of
them. -/
def isKey : Value → Bool
  | .list _ => false
  | .set _ => false
  | .dict _ => false
  | .tuple items => areKeys items
  | .labelled _ _ content => content.isKey
  | .again _ => false
  | _ => true

def areKeys : List Value → Bool
  | [] => true
  | v :: rest => v.isKey && areKeys rest

end

/-! ## Order -/

/-- The first items that differ decide; if there are none, the shorter list is the smaller one. -/
def lessItems (strict : Bool) (equal less : Value → Value → Except Fault Bool) :
    List Value → List Value → Except Fault Bool
  | [], [] => .ok !strict
  | [], _ :: _ => .ok true
  | _ :: _, [] => .ok false
  | x :: xs, y :: ys => do if ← equal x y then lessItems strict equal less xs ys else less x y

/-- The order of two values down to a depth: numbers with numbers, texts with texts, byte strings
with byte strings, lists with lists and tuples with tuples, the last four lexicographically; dates
with dates, moments with moments; and sets by inclusion. `strict` tells `<` from `≤`. -/
def lessWithin (strict : Bool) : Nat → Value → Value → Except Fault Bool
  | 0, _, _ => .error .tooDeep
  | depth + 1, v, w =>
    let equal (x y : Value) : Except Fault Bool :=
      if x.isSame y then .ok true else equalWithin depth x y
    let decide (order : Ordering) : Bool := order == .lt || (!strict && order == .eq)
    match v.content, w.content with
    | .number a, .number b => .ok (if strict then a.lt b else a.le b)
    | .text a, .text b => .ok (if strict then a < b else a ≤ b)
    | .bytes a, .bytes b =>
      let a' := a.map (·.toNat)
      let b' := b.map (·.toNat)
      .ok (if strict then a'.lex b' else !b'.lex a')
    | .date a, .date b => .ok (decide (compare a.number b.number))
    | .moment a, .moment b =>
      match a.compare? b with
      | some order => .ok (decide order)
      | none => .error .wrongType
    | .list xs, .list ys => lessItems strict equal (lessWithin strict depth) xs ys
    | .tuple xs, .tuple ys => lessItems strict equal (lessWithin strict depth) xs ys
    | .set xs, .set ys =>
      if strict && xs.length = ys.length then .ok false else isIncluded equal xs ys
    | _, _ => .error .wrongType

def lt (v w : Value) : Except Fault Bool := lessWithin true comparisonDepth v w

def le (v w : Value) : Except Fault Bool := lessWithin false comparisonDepth v w

/-! ## Texts -/

/-- What is shown in place of a value inside itself. -/
def ellipsis : Value → String
  | .list _ => "[...]"
  | .tuple _ => "(...)"
  | .set _ => "set(...)"
  | .dict _ => "\x7b...\x7d"
  | _ => "..."

mutual

/-- The literal of a value, in which texts are quoted. `name` shows a message, and `path` says what
is shown for the values with labels around this one. -/
def literalIn (name : MessageText) (path : List (Nat × String)) :
    Value → Except Fault String
  | .null => .ok "None"
  | .number n => n.text
  | .text s => .ok (Text.quoteText s)
  | .bytes data => .ok (Text.quoteBytes data)
  | .date d => .ok d.literal
  | .moment m => .ok m.literal
  | .list items => do return "[" ++ (← literalItems name path items) ++ "]"
  | .tuple [item] => do return "(" ++ (← literalIn name path item) ++ ",)"
  | .tuple items => do return "(" ++ (← literalItems name path items) ++ ")"
  | .set [] => .ok "set()"
  | .set members => do return "\x7b" ++ (← literalItems name path members) ++ "\x7d"
  | .dict entries => do return "\x7b" ++ (← literalEntries name path entries) ++ "\x7d"
  | .message ref => name ref
  | .group ref _ => name ref
  | .labelled label _ content =>
    match path.find? fun e => e.1 = label with
    | some e => .ok e.2
    | none => literalIn name ((label, content.ellipsis) :: path) content
  | .again label => .ok (((path.find? fun e => e.1 = label).map Prod.snd).getD "...")

def literalItems (name : MessageText) (path : List (Nat × String)) :
    List Value → Except Fault String
  | [] => .ok ""
  | [x] => literalIn name path x
  | x :: y :: rest => do
    return (← literalIn name path x) ++ ", " ++ (← literalItems name path (y :: rest))

def literalEntries (name : MessageText) (path : List (Nat × String)) :
    List (Value × Value) → Except Fault String
  | [] => .ok ""
  | [(k, v)] => do return (← literalIn name path k) ++ ": " ++ (← literalIn name path v)
  | (k, v) :: e :: rest => do
    let entry := (← literalIn name path k) ++ ": " ++ (← literalIn name path v)
    return entry ++ ", " ++ (← literalEntries name path (e :: rest))

end

def literal (name : MessageText) (v : Value) : Except Fault String :=
  literalIn name [] v

/-- The value as it is shown in a text: its literal, but a text as it is, and dates and moments in
their written form. -/
def shown (name : MessageText) (v : Value) : Except Fault String :=
  match v.content with
  | .text s => .ok s
  | .date d => .ok d.text
  | .moment m => .ok m.text
  | _ => v.literal name

end Value

end FrameGraph
