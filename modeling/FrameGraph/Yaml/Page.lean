import FrameGraph.Text.Quoted
import FrameGraph.Yaml.Tag

/-!
# Writing scalars

A page is a document while it is written. A scalar is written without quotes where it reads back as
itself, in single quotes where every character can stand for itself, and in double quotes otherwise.
Long scalars are folded at spaces once a line is full.

* `Page.scalar`: writes a scalar.
-/

namespace FrameGraph.Yaml

structure Page where
  text : String := ""
  /-- The number of characters on the last line. -/
  column : Nat := 0
  /-- Whether the next mark needs no space before it. -/
  spaced : Bool := true
  /-- Whether the last line holds nothing but indentation and marks that nest. -/
  fresh : Bool := true
  /-- The labels of what is written once and referred to elsewhere. -/
  shared : List Nat := []
  /-- Those of them that were written. -/
  written : List Nat := []

namespace Page

/-- The column behind which a line is folded. -/
def width : Nat := 80

def put (p : Page) (s : String) : Page :=
  { p with text := p.text ++ s, column := p.column + s.length }

def lineBreak (p : Page) (c : Char) : Page :=
  { p with text := p.text.push c, column := 0, spaced := true, fresh := true }

/-- Begins a line with an indentation, unless such a line has just begun. -/
def indent (p : Page) (column : Nat) : Page :=
  let p :=
    if !p.fresh || column < p.column || (p.column = column && !p.spaced) then p.lineBreak '\n'
    else p
  if p.column < column then
    { p.put (String.ofList (List.replicate (column - p.column) ' ')) with spaced := true }
  else p

/-- Ends the run of marks at the beginning of a line. -/
def inside (p : Page) : Page := { p with spaced := false, fresh := false }

/-- Writes a mark, after a space if one is needed. A mark that nests leaves the line fresh. -/
def mark (p : Page) (s : String) (needsSpace nests : Bool) : Page :=
  let q := p.put (if p.spaced || !needsSpace then s else " " ++ s)
  { q with spaced := false, fresh := p.fresh && nests }

end Page

/-! ## What a text consists of -/

/-- Whether a character ends a line or leaves a space before the next word, or the text is over. -/
def separates : Option Char → Bool
  | none => true
  | some c => " \t\r\n\x85\u2028\u2029".toList.contains c

def endsWritten (c : Char) : Bool := "\n\x85\u2028\u2029".toList.contains c

/-- Whether a character can stand for itself outside double quotes. -/
def isPlainChar (c : Char) : Bool :=
  let n := c.toNat
  c = '\n' || (0x20 ≤ n && n ≤ 0x7E) ||
    ((n = 0x85 || (0xA0 ≤ n && n ≤ 0xD7FF) || (0xE000 ≤ n && n ≤ 0xFFFD) ||
      (0x10000 ≤ n && n < 0x10FFFF)) && n ≠ 0xFEFF)

/-- Whether some character of one class is followed by one of another. -/
def hasPair (p q : Char → Bool) : List Char → Bool
  | c :: d :: rest => (p c && q d) || hasPair p q (d :: rest)
  | _ => false

/-- Whether a text has a character after its first one that means something in a block: a colon
before a space, or a number sign after one. -/
def hasInnerMark (before : Char) : List Char → Bool
  | [] => false
  | c :: rest =>
    (c = ':' && separates rest.head?) || (c = '#' && separates (some before)) || hasInnerMark c rest

/-- Whether a text cannot stand in a block without quotes because of a character that means
something there. -/
def hasMark (s : List Char) : Bool :=
  s.take 3 = ['-', '-', '-'] || s.take 3 = ['.', '.', '.'] ||
    match s with
    | [] => false
    | c :: rest =>
      "#,[]\x7b\x7d&*!|>'\"%@`".toList.contains c ||
        ("?:-".toList.contains c && separates rest.head?) || hasInnerMark c rest

/-- What decides how a text is written. -/
structure Analysis where
  multiline : Bool
  allowsPlain : Bool
  allowsSingle : Bool

/-- Spaces next to line ends and characters that cannot stand for themselves need double quotes;
line ends, and spaces at the ends, need quotes. -/
def analyze (s : List Char) : Analysis :=
  let multiline := s.any endsWritten
  let needsDouble := hasPair endsWritten (· = ' ') s || hasPair (· = ' ') endsWritten s ||
    !s.all isPlainChar
  let bare := !(s.head? = some ' ' || s.getLast? = some ' ')
  { multiline
    allowsPlain := !needsDouble && !multiline && bare && !hasMark s
    allowsSingle := !needsDouble }

/-! ## Runs -/

/-- A run of spaces, of line ends, or of other characters. -/
inductive RunKind where
  | spaces
  | breaks
  | word
  deriving DecidableEq

def RunKind.of (c : Char) : RunKind :=
  if c = ' ' then .spaces else if endsWritten c then .breaks else .word

def runs : List Char → List (RunKind × List Char)
  | [] => []
  | c :: rest =>
    match runs rest with
    | (kind, run) :: more =>
      if RunKind.of c = kind then (kind, c :: run) :: more
      else (RunKind.of c, [c]) :: (kind, run) :: more
    | [] => [(RunKind.of c, [c])]

namespace Page

/-- Whether a single space gives way to a new line. -/
def folds (p : Page) (split : Bool) (run : List Char) : Bool :=
  run.length = 1 && width < p.column && split

/-- Writes a text without quotes. -/
def plain (p : Page) (column : Nat) (split : Bool) (s : List Char) : Page :=
  if s = [] then p
  else
    let p := (if p.spaced then p else p.put " ").inside
    (runs s).foldl (fun p (kind, run) =>
      if kind = .spaces ∧ p.folds split run then (p.indent column).inside
      else p.put (String.ofList run)) p

/-- Writes line ends inside single quotes. A line feed is written once more, because the first of
several line ends folds. -/
def breaks (p : Page) (column : Nat) (run : List Char) : Page :=
  let p := if run.head? = some '\n' then p.lineBreak '\n' else p
  (run.foldl lineBreak p).indent column

/-- Writes runs inside single quotes. `first` says that nothing was written yet. -/
def singleRuns (p : Page) (column : Nat) (split first : Bool) : List (RunKind × List Char) → Page
  | [] => p
  | (kind, run) :: rest =>
    let p := match kind with
      | .spaces =>
        if p.folds split run && !first && !rest.isEmpty then p.indent column
        else p.put (String.ofList run)
      | .breaks => p.breaks column run
      | .word => p.put (String.ofList (run.flatMap fun c => if c = '\'' then ['\'', '\''] else [c]))
    singleRuns p column split false rest

/-- Writes a text in single quotes, where a single quote is written twice. -/
def single (p : Page) (column : Nat) (split : Bool) (s : List Char) : Page :=
  ((p.mark "'" true false).singleRuns column split true (runs s)).mark "'" false false

/-- Whether a character stands for itself in double quotes. -/
def isDoubleChar (c : Char) : Bool :=
  let n := c.toNat
  !"\"\\\x85\u2028\u2029\uFEFF".toList.contains c &&
    ((0x20 ≤ n && n ≤ 0x7E) || (0xA0 ≤ n && n ≤ 0xD7FF) || (0xE000 ≤ n && n ≤ 0xFFFD))

def escapeLetters : List (Nat × Char) :=
  [(0x00, '0'), (0x07, 'a'), (0x08, 'b'), (0x09, 't'), (0x0A, 'n'), (0x0B, 'v'), (0x0C, 'f'),
    (0x0D, 'r'), (0x1B, 'e'), (0x22, '"'), (0x5C, '\\'), (0x85, 'N'), (0xA0, '_'), (0x2028, 'L'),
    (0x2029, 'P')]

/-- The escape of a character: a letter, or two, four or eight hexadecimal digits. -/
def escape (c : Char) : List Char :=
  let n := c.toNat
  let digits (width : Nat) := (Text.hexDigits width n).map Char.toUpper
  match escapeLetters.find? fun e => e.1 = n with
  | some e => ['\\', e.2]
  | none =>
    if n ≤ 0xFF then '\\' :: 'x' :: digits 2
    else if n ≤ 0xFFFF then '\\' :: 'u' :: digits 4
    else '\\' :: 'U' :: digits 8

/-- Folds a line inside double quotes. A space at the beginning of the next line is escaped. -/
def foldDouble (p : Page) (column : Nat) (pending : List Char) (next : Option Char) : Page :=
  let p := ((p.put (String.ofList pending ++ "\\")).indent column).inside
  if next = some ' ' then p.put "\\" else p

/-- Writes a text inside double quotes. `pending` holds characters that are still to be written. The
line may be folded at a space and around an escape, behind which it may be longer by one. -/
def doubleRest (p : Page) (column : Nat) (split first : Bool) (pending : List Char) :
    List Char → Page
  | [] => p.put (String.ofList pending)
  | c :: rest =>
    let escaped := !isDoubleChar c
    let p := if escaped then p.put (String.ofList (pending ++ escape c)) else p
    let pending := if escaped then [] else pending
    let full := !first && !rest.isEmpty && (c = ' ' || pending.isEmpty) &&
      (if escaped then width + 1 else width) < p.column + pending.length && split
    let next := if escaped then rest.head? else some c
    let p := if full then p.foldDouble column pending next else p
    let pending := if full then [] else pending
    doubleRest p column split false (if escaped then pending else pending ++ [c]) rest

/-- Writes a text in double quotes. -/
def double (p : Page) (column : Nat) (split : Bool) (s : List Char) : Page :=
  ((p.mark "\"" true false).doubleRest column split true [] s).mark "\"" false false

/-- Writes lines in a block of their own, after a mark. -/
def literal (p : Page) (column : Nat) (lines : List String) : Page :=
  lines.foldl (fun p line => ((p.indent column).put line).lineBreak '\n')
    ((p.mark "|" true false).lineBreak '\n')

/-- Writes a scalar with a tag; `column` is where its further lines begin. A key stands on one
line. -/
def scalar (p : Page) (column : Nat) (isSimpleKey : Bool) (tag : Tag) (text : String) : Page :=
  let s := text.toList
  let a := analyze s
  let split := !isSimpleKey
  if Tag.ofPlain text = tag && !(isSimpleKey && (s.isEmpty || a.multiline)) && a.allowsPlain then
    p.plain column split s
  else if a.allowsSingle && !(isSimpleKey && a.multiline) then p.single column split s
  else p.double column split s

end Page

end FrameGraph.Yaml
