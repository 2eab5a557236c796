import FrameGraph.Yaml.Character
import FrameGraph.Fault
import FrameGraph.Text.Digit

/-!
# Scalars of a document

A scalar is a text written without quotes, in single or double quotes, or as a block of lines. Each
reader goes through the characters once, with a state that says what the characters since the last
visible one were: line ends inside a scalar fold into a space, and become line ends where lines are
empty.
-/

namespace FrameGraph.Yaml

/-- What lies between the last visible character of a scalar and the next one. -/
inductive Gap where
  | none
  /-- Spaces on one line, the last one first. -/
  | spaces (text : List Char)
  /-- Line ends, the first of which folds, and the others, the last one first, with the number of
  spaces after the last one. A line end that is escaped leaves nothing itself. -/
  | breaks (first : Option Char) (more : List Char) (column : Nat)

namespace Gap

/-- The text of a gap, the last character first. -/
def text : Gap → List Char
  | none => []
  | spaces text => text
  | breaks first more _ =>
    match first with
    | .none => more
    | some c => if c ≠ '\n' then more ++ [c] else if more = [] then [' '] else more

end Gap

/-! ## Without quotes -/

/-- A scalar without quotes, with what follows it and whether a line ended after it. -/
structure PlainScalar where
  text : List Char
  rest : List Char
  crossed : Bool

/-- Whether a scalar without quotes ends before a character. In a flow collection the marks of such
collections end it too. -/
def endsPlain (inFlow : Bool) (c : Char) (rest : List Char) : Bool :=
  c = '\t' ||
  (c = ':' && (endsToken rest || (inFlow && rest.head?.any (",[]\x7b\x7d".toList.contains ·)))) ||
  (inFlow && ",?[]\x7b\x7d".toList.contains c)

/-- Reads a scalar without quotes, whose lines are indented by at least `indent`. `text` holds what
was read, the last character first. -/
def plainFrom (inFlow : Bool) (indent : Nat) (text : List Char) : Gap → List Char → PlainScalar
  | gap, [] => ⟨text.reverse, [], gap matches .breaks ..⟩
  | .none, c :: rest =>
    if c = ' ' then plainFrom inFlow indent text (.spaces [' ']) rest
    else if isBreak c then
      if isMarker rest then ⟨text.reverse, rest, true⟩
      else plainFrom inFlow indent text (.breaks (some c) [] 0) rest
    else if endsPlain inFlow c rest then ⟨text.reverse, c :: rest, false⟩
    else plainFrom inFlow indent (c :: text) .none rest
  | .spaces spaces, c :: rest =>
    if c = ' ' then plainFrom inFlow indent text (.spaces (' ' :: spaces)) rest
    else if isBreak c then
      if isMarker rest then ⟨text.reverse, rest, true⟩
      else plainFrom inFlow indent text (.breaks (some c) [] 0) rest
    else if c = '#' ∨ endsPlain inFlow c rest then ⟨text.reverse, c :: rest, false⟩
    else plainFrom inFlow indent (c :: (spaces ++ text)) .none rest
  | .breaks first more column, c :: rest =>
    if c = ' ' then plainFrom inFlow indent text (.breaks first more (column + 1)) rest
    else if isBreak c then
      if isMarker rest then ⟨text.reverse, rest, true⟩
      else plainFrom inFlow indent text (.breaks first (c :: more) 0) rest
    else if c = '#' ∨ (!inFlow ∧ column < indent) ∨ endsPlain inFlow c rest then
      ⟨text.reverse, c :: rest, true⟩
    else plainFrom inFlow indent (c :: ((Gap.breaks first more column).text ++ text)) .none rest

def plain (inFlow : Bool) (indent : Nat) (s : List Char) : PlainScalar :=
  plainFrom inFlow indent [] .none s

/-! ## In quotes -/

/-- The text of code points. Two halves of a surrogate pair are one character, and a half without
the other is replaced. -/
def ofCodePoints : List Nat → List Char
  | [] => []
  | [n] => [if n.isValidChar then Char.ofNat n else '\uFFFD']
  | n :: m :: rest =>
    if 0xD800 ≤ n ∧ n < 0xDC00 ∧ 0xDC00 ≤ m ∧ m < 0xE000 then
      Char.ofNat (0x10000 + (n - 0xD800) * 0x400 + (m - 0xDC00)) :: ofCodePoints rest
    else (if n.isValidChar then Char.ofNat n else '\uFFFD') :: ofCodePoints (m :: rest)

/-- What a reader of a quoted scalar is about to read. -/
inductive QuoteState where
  | text (gap : Gap)
  /-- The rest of an escape, after its backslash or after a single quote inside single quotes. -/
  | escape
  /-- Hexadecimal digits of a code point. -/
  | code (digits value : Nat)

def escapeLetter? (c : Char) : Option Nat :=
  ([('0', 0x00), ('a', 0x07), ('b', 0x08), ('t', 0x09), ('\t', 0x09), ('n', 0x0A), ('v', 0x0B),
    ('f', 0x0C), ('r', 0x0D), ('e', 0x1B), (' ', 0x20), ('"', 0x22), ('\\', 0x5C), ('/', 0x2F),
    ('N', 0x85), ('_', 0xA0), ('L', 0x2028), ('P', 0x2029)].find? fun e => e.1 = c).map Prod.snd

/-- The number of hexadecimal digits after the letter of an escape. -/
def escapeDigits? (c : Char) : Option Nat :=
  if c = 'x' then some 2 else if c = 'u' then some 4 else if c = 'U' then some 8 else none

/-- A scalar in quotes with what follows it. -/
abbrev QuotedScalar := Except Fault (List Char × List Char)

/-- Adds the text of a gap to code points, the last ones first. -/
def addGap (gap : Gap) (text : List Nat) : List Nat := gap.text.map Char.toNat ++ text

/-- A code point that an escape spells in full. -/
def checkCodePoint (n : Nat) : Except Fault Nat :=
  if n < 0x110000 then .ok n
  else if n < 0x80000000 then .error (.badData "not a code point")
  else .error .overflow

/-- Reads a scalar in double quotes, after the first one. -/
def doubleFrom (text : List Nat) : QuoteState → List Char → QuotedScalar
  | _, [] => .error (.document .token)
  | .text gap, c :: rest =>
    if isBreak c then
      if isMarker rest then .error (.document .token)
      else
        match gap with
        | .breaks first more _ => doubleFrom text (.text (.breaks first (c :: more) 0)) rest
        | _ => doubleFrom text (.text (.breaks (some c) [] 0)) rest
    else if isSpace c then
      match gap with
      | .none => doubleFrom text (.text (.spaces [c])) rest
      | .spaces spaces => doubleFrom text (.text (.spaces (c :: spaces))) rest
      | .breaks .. => doubleFrom text (.text gap) rest
    else
      let text := addGap gap text
      if c = '"' then .ok (ofCodePoints text.reverse, rest)
      else if c = '\\' then doubleFrom text .escape rest
      else doubleFrom (c.toNat :: text) (.text .none) rest
  | .escape, c :: rest =>
    match escapeLetter? c, escapeDigits? c with
    | some n, _ => doubleFrom (n :: text) (.text .none) rest
    | none, some digits => doubleFrom text (.code digits 0) rest
    | none, none =>
      if isBreak c ∧ !isMarker rest then doubleFrom text (.text (.breaks none [] 0)) rest
      else .error (.document .token)
  | .code digits value, c :: rest =>
    match Text.hexValue? c with
    | none => .error (.document .token)
    | some d =>
      let value := 16 * value + d
      if 1 < digits then doubleFrom text (.code (digits - 1) value) rest
      else
        match checkCodePoint value with
        | .ok n => doubleFrom (n :: text) (.text .none) rest
        | .error fault => .error fault

def doubleQuoted (s : List Char) : QuotedScalar := doubleFrom [] (.text .none) s

/-- Reads a scalar in single quotes, after the first one. `quote` says that a single quote was read,
which ends the scalar unless another one follows. -/
def singleFrom (text : List Char) (quote : Bool) : Gap → List Char → QuotedScalar
  | _, [] => if quote then .ok (text.reverse, []) else .error (.document .token)
  | gap, c :: rest =>
    if quote then
      if c = '\'' then singleFrom ('\'' :: text) false .none rest
      else .ok (text.reverse, c :: rest)
    else if isBreak c then
      if isMarker rest then .error (.document .token)
      else
        match gap with
        | .breaks first more _ => singleFrom text false (.breaks first (c :: more) 0) rest
        | _ => singleFrom text false (.breaks (some c) [] 0) rest
    else if isSpace c then
      match gap with
      | .none => singleFrom text false (.spaces [c]) rest
      | .spaces spaces => singleFrom text false (.spaces (c :: spaces)) rest
      | .breaks .. => singleFrom text false gap rest
    else if c = '\'' then singleFrom (gap.text ++ text) true .none rest
    else singleFrom (c :: (gap.text ++ text)) false .none rest

def singleQuoted (s : List Char) : QuotedScalar := singleFrom [] false .none s

/-! ## Blocks of lines -/

/-- Which line ends at the end of a block belong to it. -/
inductive Chomping where
  | strip
  | clip
  | keep
  deriving DecidableEq

/-- What the first line of a block says: the chomping and the indentation relative to the enclosing
block. -/
structure BlockHeader where
  chomping : Chomping := .clip
  increment : Option Nat := none

def chomping? (c : Char) : Option Chomping :=
  if c = '+' then some .keep else if c = '-' then some .strip else none

/-- Reads the indentation in a header, which is not zero. -/
def readIncrement (s : List Char) : Option (Option Nat × List Char) :=
  match s with
  | c :: rest =>
    if c = '0' then none
    else if c.isDigit then some (some (c.toNat - '0'.toNat), rest)
    else some (none, c :: rest)
  | [] => some (none, [])

def readChomping (s : List Char) : Option Chomping × List Char :=
  match s with
  | c :: rest => match chomping? c with
    | some chomping => (some chomping, rest)
    | none => (none, c :: rest)
  | [] => (none, [])

/-- Reads the first line of a block: chomping and indentation in either order, and a comment. -/
def readHeader? (s : List Char) : Option (BlockHeader × List Char) := do
  let (before, s) := readChomping s
  let (increment, s) ← readIncrement s
  let (after, s) := if before.isNone ∧ increment.isSome then readChomping s else (none, s)
  if endsWord s then
    return (⟨(before.or after).getD .clip, increment⟩, ← dropComment? s)
  else none

/-- The widest indentation among the empty lines at the head of a block and its first line. -/
def widestIndent (widest column : Nat) : List Char → Nat
  | [] => max widest column
  | c :: rest =>
    if c = ' ' then widestIndent widest (column + 1) rest
    else if isBreak c then widestIndent (max widest column) 0 rest
    else max widest column

structure BlockState where
  /-- The text, the last character first. -/
  text : List Char := []
  /-- The end of the last line that is not empty. -/
  lineEnd : Option Char := none
  /-- Whether that line begins with a visible character. -/
  visible : Bool := false
  /-- The line ends since then, the last one first. -/
  breaks : List Char := []

namespace BlockState

/-- Begins a line that is not empty. In a folded block a line feed between two lines that begin with
visible characters folds. -/
def beginLine (b : BlockState) (folded : Bool) (c : Char) : BlockState :=
  let joint :=
    if folded ∧ b.lineEnd = some '\n' ∧ b.visible ∧ !isSpace c then
      if b.breaks = [] then [' '] else []
    else b.lineEnd.toList
  { text := c :: (b.breaks ++ (joint ++ b.text)), visible := !isSpace c }

def finish (b : BlockState) (chomping : Chomping) : List Char :=
  let ending := if chomping = .strip then [] else b.lineEnd.toList
  let empty := if chomping = .keep then b.breaks else []
  (empty ++ (ending ++ b.text)).reverse

end BlockState

/-- Reads the lines of a block with an indentation. `column` is the number of spaces read at the
beginning of a line, and `none` inside a line. -/
def blockFrom (folded : Bool) (chomping : Chomping) (indent : Nat) (b : BlockState) :
    Option Nat → List Char → List Char × List Char
  | _, [] => (b.finish chomping, [])
  | none, c :: rest =>
    if isBreak c then blockFrom folded chomping indent { b with lineEnd := some c } (some 0) rest
    else blockFrom folded chomping indent { b with text := c :: b.text } none rest
  | some column, c :: rest =>
    if c = ' ' ∧ column < indent then blockFrom folded chomping indent b (some (column + 1)) rest
    else if isBreak c then
      blockFrom folded chomping indent { b with breaks := c :: b.breaks } (some 0) rest
    else if column = indent then
      blockFrom folded chomping indent (b.beginLine folded c) none rest
    else (b.finish chomping, c :: rest)

/-- Reads a block, after its first character. `least` is the least indentation of its lines. -/
def block (folded : Bool) (least : Nat) (s : List Char) : QuotedScalar :=
  match readHeader? s with
  | none => .error (.document .token)
  | some (header, s) =>
    let least := max least 1
    let indent := match header.increment with
      | some n => least + n - 1
      | none => max least (widestIndent 0 0 s)
    .ok (blockFrom folded header.chomping indent {} (some 0) s)

end FrameGraph.Yaml
