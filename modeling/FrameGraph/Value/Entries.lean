import FrameGraph.Value

/-!
# Entries of a dictionary

The entries of a dictionary stand in the order in which their keys were first added. Writing an
existing key keeps its place and its key and replaces the value. A dictionary is also read from a
list of pairs.

* `merge`: reading further entries keeps those that were read before one that cannot be read.
-/

namespace FrameGraph

abbrev Entries := List (Value × Value)

namespace Entries

def find? : Entries → Value → Option Value
  | [], _ => none
  | e :: rest, key => if key.coincides e.1 then some e.2 else find? rest key

def field? (d : Entries) (name : String) : Option Value := d.find? (.text name)

def insert : Entries → Value → Value → Entries
  | [], key, value => [(key, value)]
  | e :: rest, key, value =>
    if key.coincides e.1 then (e.1, value) :: rest else e :: insert rest key value

def insertAll (d : Entries) (entries : Entries) : Entries :=
  entries.foldl (fun d e => d.insert e.1 e.2) d

/-- The entries with defaults in front: the keys of the defaults first, in their order. -/
def withDefaults (d defaults : Entries) : Entries := insertAll defaults d

/-- The entries with defaults for missing keys added at the end. -/
def orDefaults (d defaults : Entries) : Entries :=
  defaults.foldl (fun d e => if (d.find? e.1).isSome then d else d.insert e.1 e.2) d

end Entries

def Value.names (members : List (String × Ref .message)) : List Value :=
  members.map fun e => .text e.1

/-- The items of a value that can be gone through one by one: the characters of a text, the numbers
of a byte string, the items of a list or a tuple, the members of a set, the keys of a dictionary,
the names in a group. -/
def Value.items? (v : Value) : Option (List Value) :=
  match v.content with
  | .text s => some (s.toList.map fun c => .text (String.singleton c))
  | .bytes data => some (data.map fun b => .int b.toNat)
  | .list items => some items
  | .tuple items => some items
  | .set members => some members
  | .dict entries => some (entries.map Prod.fst)
  | .group _ members => some (Value.names members)
  | _ => none

/-- A value read as an entry: a sequence of two items, the first of which can be a key. `index` is
its place in the list it comes from. -/
def Value.entry (index : Nat) (v : Value) : Except Fault (Value × Value) :=
  match v.items? with
  | none => .error .wrongType
  | some [key, value] => if key.isKey then .ok (key, value) else .error .wrongType
  | some items => .error (.badData
      s!"dictionary update sequence element #{index} has length {items.length}; 2 is required")

namespace Entries

/-- Writes entries read from values, up to the first that is none. -/
def mergeItems (d : Entries) (index : Nat) : List Value → Entries × Option Fault
  | [] => (d, none)
  | v :: rest =>
    match v.entry index with
    | .ok (key, value) => mergeItems (d.insert key value) (index + 1) rest
    | .error fault => (d, some fault)

/-- Writes the entries of a dictionary or of a list of pairs. -/
def merge (d : Entries) (v : Value) : Entries × Option Fault :=
  match v.content with
  | .dict entries => (d.insertAll entries, none)
  | _ =>
    match v.items? with
    | some items => d.mergeItems 0 items
    | none => (d, some .wrongType)

def ofValue (v : Value) : Except Fault Entries :=
  match merge [] v with
  | (d, none) => .ok d
  | (_, some fault) => .error fault

end Entries

end FrameGraph
