import FrameGraph.Fault

/-!
# Files

The files that paths lead to. A path starts from the working directory, or from the root of all
directories if it begins with a slash. Little is known of what lies outside the working directory:
the directories above it, those that every system has, and the null device, which is empty and
forgets what is written to it. Before a file is read or written as a whole, its path is simplified:
repeated and final slashes and single dots do not count.

* `FileTree.resolve`: what a path leads to.
* `FileTree.read`, `FileTree.write`: the content of a file, by its simplified path.
* `FileTree.open?`: the content of a file, by its path as it stands.
* `FileTree.unifyLineEnds`: the line ends of a text as it is read.
-/

namespace FrameGraph

/-- A place among the directories: names from the working directory, in front of which stand a
double dot for every directory above it, or a slash for the root of all directories. -/
abbrev Location := List String

namespace Location

/-- The directories that every system has at its root. -/
def standard : List String :=
  ["bin", "boot", "dev", "etc", "home", "lib", "media", "mnt", "opt", "proc", "root", "run", "sbin",
    "srv", "sys", "tmp", "usr", "var"]

def nullDevice : Location := ["/", "dev", "null"]

/-- Whether every system has a directory at this place. -/
def isStandard : Location → Bool
  | ["/"] => true
  | ["/", name] => standard.contains name
  | l => l.all (· == "..")

/-- The directory above a place. Nothing is above the root. -/
def above (l : Location) : Location :=
  if l = ["/"] then l
  else if l.all (· == "..") then l ++ [".."]
  else l.dropLast

end Location

/-- Files by their places, in the order in which they were first written. -/
structure FileTree where
  files : List (Location × List UInt8) := []
  deriving Repr, Inhabited

namespace FileTree

/-! ## Paths -/

inductive Entry where
  | file (place : Location) (data : List UInt8)
  | directory (place : Location)
  /-- A name in a directory that nothing has. -/
  | free (place : Location)
  deriving Repr

def nameLimit : Nat := 255

/-- Paths have fewer bytes. -/
def pathLimit : Nat := 4096

def file? (t : FileTree) (place : Location) : Option (List UInt8) :=
  if place = Location.nullDevice then some []
  else (t.files.find? fun f => f.1 = place).map Prod.snd

/-- Whether a directory is at a place: one that every system has, or one with a file below it. -/
def isDirectory (t : FileTree) (place : Location) : Bool :=
  place.isStandard || t.files.any fun f => place.isPrefixOf f.1 && f.1 ≠ place

/-- Follows the parts of a path from a directory. Empty parts and single dots stay there. -/
def follow (t : FileTree) (here : Location) : List String → Except Fault Entry
  | [] => .ok (.directory here)
  | part :: rest =>
    if part = "" ∨ part = "." then follow t here rest
    else if part = ".." then follow t here.above rest
    else if nameLimit < part.utf8ByteSize then .error .nameTooLong
    else
      let next := here ++ [part]
      match t.file? next with
      | some data => if rest = [] then .ok (.file next data) else .error .notDirectory
      | none =>
        if t.isDirectory next then follow t next rest
        else if rest = [] then .ok (.free next)
        else .error .fileNotFound

def start (path : String) : Location := if path.startsWith "/" then ["/"] else []

/-- What a path leads to. It cannot hold the null character. -/
def resolve (t : FileTree) (path : String) : Except Fault Entry :=
  if path.toList.contains '\x00' then .error (.badData "embedded null byte")
  else if path = "" then .error .fileNotFound
  else if pathLimit ≤ path.utf8ByteSize then .error .nameTooLong
  else t.follow (start path) (path.splitOn "/")

/-- A path without the parts that do not count. -/
def simplified (path : String) : String :=
  let parts := (path.splitOn "/").filter fun part => part ≠ "" && part ≠ "."
  let text := "/".intercalate parts
  if path.startsWith "/" then "/" ++ text else if text = "" then "." else text

/-! ## Reading and writing -/

def Entry.content : Entry → Except Fault (List UInt8)
  | .file _ data => .ok data
  | .directory _ => .error .isDirectory
  | .free _ => .error .fileNotFound

def read (t : FileTree) (path : String) : Except Fault (List UInt8) := do
  (← t.resolve (simplified path)).content

/-- The content of the file that is opened by a path as it stands. -/
def open? (t : FileTree) (path : String) : Option (List UInt8) :=
  (do (← t.resolve path).content : Except Fault (List UInt8)).toOption

/-- Whether a path leads anywhere. Names that are too long are refused and not only missing. -/
def contains (t : FileTree) (path : String) : Except Fault Bool :=
  match t.resolve (simplified path) with
  | .ok (.free _) => .ok false
  | .ok _ => .ok true
  | .error .nameTooLong => .error .nameTooLong
  | .error _ => .ok false

/-- Puts a file among others, in the place of the one at its place. -/
def put (place : Location) (data : List UInt8) :
    List (Location × List UInt8) → List (Location × List UInt8)
  | [] => [(place, data)]
  | f :: rest => if f.1 = place then (place, data) :: rest else f :: put place data rest

/-- Writes a file into an existing directory. -/
def write (t : FileTree) (path : String) (data : List UInt8) : Except Fault FileTree := do
  match ← t.resolve (simplified path) with
  | .directory _ => .error .isDirectory
  | .file place _ | .free place =>
    if place = Location.nullDevice then .ok t else .ok ⟨put place data t.files⟩

/-- The files with the given paths and contents, whose directories are made as needed. -/
def ofList (files : List (String × List UInt8)) : FileTree :=
  let place (path : String) : Location :=
    start path ++ (path.splitOn "/").filter fun part => part ≠ "" && part ≠ "."
  ⟨files.foldl (fun t f => put (place f.1) f.2 t) []⟩

/-! ## Texts -/

/-- The content as a text, if it is UTF-8. -/
def decode? (data : List UInt8) : Option String := String.fromUTF8? ⟨data.toArray⟩

/-- A text as it is read line by line: each of the three line ends becomes a line feed. -/
def unifyLineEnds : List Char → List Char
  | [] => []
  | '\r' :: '\n' :: rest => '\n' :: unifyLineEnds rest
  | '\r' :: rest => '\n' :: unifyLineEnds rest
  | c :: rest => c :: unifyLineEnds rest

end FileTree

end FrameGraph
