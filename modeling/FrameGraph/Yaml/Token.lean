import FrameGraph.Yaml.Scalar

/-!
# Tokens of a document

Between the characters of a document and its tree lie tokens: scalars, names, brackets, and the
beginnings and ends of blocks, which only the indentation shows. A token that may turn out to be a
key stays back until it is known whether a colon follows on the same line, because the beginning of
a block and the mark of a key then stand before it.

* `Lexer.fetch`: reads one more token, with the block ends before it.
* `Token.scan`: the tokens of a document up to the first place where none can be read.
-/

namespace FrameGraph.Yaml

/-- A line that speaks about a document and not in it. -/
inductive Directive where
  | version (major : Nat)
  /-- The full form of tags that are written with a handle. -/
  | handle (handle full : String)
  | other

inductive Token where
  | documentStart
  | documentEnd
  | streamEnd
  | directive (d : Directive)
  | sequenceStart
  | mappingStart
  | blockEnd
  | flowSequenceStart
  | flowSequenceEnd
  | flowMappingStart
  | flowMappingEnd
  /-- The dash before an item. -/
  | item
  /-- The comma between items. -/
  | comma
  | key
  | value
  | reference (name : String)
  | anchor (name : String)
  | tag (handle : Option String) (suffix : String)
  | scalar (text : String) (quoted : Bool)

structure Place where
  index : Nat := 0
  line : Nat := 0
  column : Nat := 0

/-- The position after a character. The byte order mark takes no column. -/
def Place.after (p : Place) (c : Char) : Place :=
  if isBreak c then ⟨p.index + 1, p.line + 1, 0⟩
  else ⟨p.index + 1, p.line, if c = byteOrderMark then p.column else p.column + 1⟩

/-- A token that a colon can make a key. -/
structure KeyCandidate where
  /-- The number of flow collections around it. -/
  depth : Nat
  /-- Its number among all tokens. -/
  token : Nat
  /-- Whether it cannot be anything but a key where it stands. -/
  required : Bool
  place : Place

/-- What was read of a document, and what the next token depends on. -/
structure Lexer where
  rest : List Char
  place : Place := {}
  /-- The number of flow collections around the next token. -/
  depth : Nat := 0
  /-- The columns of the blocks around the next token, the innermost one first. -/
  indents : List Nat := []
  keyAllowed : Bool := true
  candidates : List KeyCandidate := []
  pending : List Token := []
  released : Nat := 0
  finished : Bool := false

namespace Lexer

/-- What goes wrong where no token can be read. -/
def unreadable {α : Type} : Except Fault α := .error (.document .token)

/-! ## Positions -/

/-- Moves on to a suffix of the document. -/
def moveTo (l : Lexer) (rest : List Char) : Lexer :=
  let passed := l.rest.take (l.rest.length - rest.length)
  { l with rest, place := passed.foldl Place.after l.place }

def push (l : Lexer) (t : Token) : Lexer := { l with pending := l.pending ++ [t] }

/-- Passes `count` characters and adds a token. -/
def pass (l : Lexer) (count : Nat) (t : Token) : Lexer := (l.moveTo (l.rest.drop count)).push t

/-- The least column of the lines inside the innermost block. -/
def leastColumn (l : Lexer) : Nat :=
  match l.indents with
  | [] => 0
  | indent :: _ => indent + 1

/-- Passes spaces, comments and line ends. Outside flow collections a key can begin after a line
end. -/
def passBlank (l : Lexer) : List Char → Place → Bool → Lexer
  | [], place, _ => { l with rest := [], place }
  | c :: rest, place, comment =>
    if isBreak c then
      passBlank { l with keyAllowed := l.keyAllowed || l.depth = 0 } rest (place.after c) false
    else if comment || c = ' ' then passBlank l rest (place.after c) comment
    else if c = '#' then passBlank l rest (place.after c) true
    else { l with rest := c :: rest, place }

/-- Moves on to the next token. A byte order mark may stand at the very beginning. -/
def toNextToken (l : Lexer) : Lexer :=
  match l.rest with
  | c :: rest =>
    if l.place.index = 0 ∧ c = byteOrderMark then l.passBlank rest (l.place.after c) false
    else l.passBlank l.rest l.place false
  | [] => l

/-! ## Blocks and keys -/

/-- Ends the blocks that a token in a column does not belong to. -/
def endBlocks (l : Lexer) (belongs : Nat → Bool) : Lexer :=
  let ended := l.indents.takeWhile fun indent => !belongs indent
  { l with
    indents := l.indents.drop ended.length
    pending := l.pending ++ ended.map fun _ => .blockEnd }

/-- Inside a flow collection the indentation does not count. -/
def endOuterBlocks (l : Lexer) : Lexer :=
  if l.depth = 0 then l.endBlocks (· ≤ l.place.column) else l

def endAllBlocks (l : Lexer) : Lexer := if l.depth = 0 then l.endBlocks fun _ => false else l

/-- Whether a column is further to the right than the innermost block. -/
def opensBlock (l : Lexer) (column : Nat) : Bool := l.leastColumn ≤ column

/-- Begins a block at the next token, if the token is further to the right than the innermost
one. -/
def openBlock (l : Lexer) (t : Token) : Lexer :=
  if l.opensBlock l.place.column then
    ({ l with indents := l.place.column :: l.indents }).push t
  else l

/-- Whether a candidate is no key any more: keys stand on one line and have at most 1024
characters. -/
def isStale (l : Lexer) (k : KeyCandidate) : Bool :=
  k.place.line != l.place.line || 1024 < l.place.index - k.place.index

/-- Gives up candidates; a required one is missed. -/
def giveUp (l : Lexer) (p : KeyCandidate → Bool) : Except Fault Lexer :=
  if l.candidates.any fun k => p k && k.required then unreadable
  else .ok { l with candidates := l.candidates.filter fun k => !p k }

def giveUpStale (l : Lexer) : Except Fault Lexer := l.giveUp l.isStale

/-- Gives up the candidate among the current collection's items. -/
def giveUpCurrent (l : Lexer) : Except Fault Lexer := l.giveUp (·.depth = l.depth)

/-- Makes the next token a candidate, if a key can begin here. -/
def addCandidate (l : Lexer) : Except Fault Lexer :=
  if l.keyAllowed then do
    let required := l.depth = 0 && l.indents.head? = some l.place.column
    let candidate := ⟨l.depth, l.released + l.pending.length, required, l.place⟩
    let l ← l.giveUpCurrent
    .ok { l with candidates := candidate :: l.candidates }
  else .ok l

/-! ## Names and tags -/

/-- A name, which is not empty, and what follows it. -/
def name? (s : List Char) : Option (String × List Char) :=
  let name := s.takeWhile isNameChar
  if name = [] then none else some (String.ofList name, s.dropWhile isNameChar)

/-- Whether a character can follow the name of an anchor. -/
def endsAnchor : List Char → Bool
  | [] => true
  | c :: _ => isBreak c || isSpace c || "?:,]\x7d%@`".toList.contains c

/-- The characters of a tag that stand for themselves. -/
def isTagChar (c : Char) : Bool := c.isAlphanum || "-;/?:@&=+$,_.!~*'()[]".toList.contains c

def utf8? (bytes : List UInt8) : Option (List Char) :=
  (String.fromUTF8? ⟨bytes.toArray⟩).map String.toList

/-- Reads the characters of a tag. A percent sign with two hexadecimal digits is a byte, and
adjacent bytes are a text in UTF-8. -/
def tagText (text : List Char) (bytes : List UInt8) : List Char → Option (List Char × List Char)
  | '%' :: s =>
    match s with
    | a :: b :: rest => do
      tagText text (UInt8.ofNat (16 * (← Text.hexValue? a) + (← Text.hexValue? b)) :: bytes) rest
    | _ => none
  | c :: rest =>
    if isTagChar c then do tagText (c :: ((← utf8? bytes.reverse).reverse ++ text)) [] rest
    else do return ((← utf8? bytes.reverse).reverse ++ text, c :: rest)
  | [] => do return ((← utf8? bytes.reverse).reverse ++ text, [])

/-- The characters of a tag, which are not none, and what follows them. -/
def tagText? (s : List Char) : Option (String × List Char) := do
  let (text, rest) ← tagText [] [] s
  if text = [] then none else return (String.ofList text.reverse, rest)

/-- The handle of a tag: an exclamation mark, or a name between two of them. -/
def tagHandle? : List Char → Option (String × List Char)
  | '!' :: s =>
    if s.head? = some ' ' then some ("!", s)
    else
      match s.dropWhile isNameChar with
      | '!' :: rest => some (String.ofList ('!' :: (s.takeWhile isNameChar ++ ['!'])), rest)
      | _ => none
  | _ => none

/-- A tag and what follows it: in angle brackets as it is, a single exclamation mark, or a suffix
with or without a handle. -/
def tag? : List Char → Option (Token × List Char)
  | '!' :: '<' :: s => do
    match ← tagText? s with
    | (text, '>' :: rest) => if endsWord rest then some (.tag none text, rest) else none
    | _ => none
  | '!' :: s =>
    if endsToken s then if endsWord s then some (.tag none "!", s) else none
    else do
      let word := s.takeWhile fun c => !(isBreak c || c = ' ')
      let (handle, s) ← if '!' ∈ word then tagHandle? ('!' :: s) else some ("!", s)
      let (suffix, rest) ← tagText? s
      if endsWord rest then some (.tag (some handle) suffix, rest) else none
  | _ => none

/-! ## Directives -/

/-- A decimal number, which has a digit, and what follows it. -/
def decimal? (s : List Char) : Option (Nat × List Char) :=
  match s.takeWhile Char.isDigit with
  | [] => none
  | digits => some (digits.foldl (fun n c => 10 * n + (c.toNat - '0'.toNat)) 0,
      s.dropWhile Char.isDigit)

/-- A version, two numbers with a point between them, and what follows it. -/
def version? (s : List Char) : Option (Directive × List Char) := do
  let (major, s) ← decimal? (dropSpaces s)
  match s with
  | '.' :: s =>
    let (_, rest) ← decimal? s
    if endsWord rest then some (.version major, rest) else none
  | _ => none

/-- A handle and the full form of its tags, and what follows them. -/
def handleDirective? (s : List Char) : Option (Directive × List Char) := do
  let (handle, s) ← tagHandle? (dropSpaces s)
  if s.head? = some ' ' then
    let (full, rest) ← tagText? (dropSpaces s)
    if endsWord rest then some (.handle handle full, rest) else none
  else none

/-- A directive after its percent sign, up to the next line. -/
def directive? (s : List Char) : Option (Directive × List Char) := do
  let (name, s) ← name? s
  if endsWord s then
    let (d, s) ← if name = "YAML" then version? s
      else if name = "TAG" then handleDirective? s
      else some (.other, dropLine s)
    return (d, ← dropComment? s)
  else none

/-! ## Reading a token -/

def take (l : Lexer) : Option (Token × List Char) → Except Fault Lexer
  | some (t, rest) => .ok ((l.moveTo rest).push t)
  | none => unreadable

/-- Takes a scalar in quotes or a block and what follows it. -/
def takeScalar (l : Lexer) : QuotedScalar → Except Fault Lexer
  | .ok (text, rest) => .ok ((l.moveTo rest).push (.scalar (String.ofList text) true))
  | .error fault => .error fault

/-- Reads a token that stands outside all blocks. -/
def atTop (l : Lexer) : Except Fault Lexer := do
  let l ← l.endAllBlocks.giveUpCurrent
  .ok { l with keyAllowed := false }

/-- Reads a token that can be a key. -/
def asCandidate (l : Lexer) : Except Fault Lexer := do
  let l ← l.addCandidate
  .ok { l with keyAllowed := false }

def openFlow (l : Lexer) (t : Token) : Except Fault Lexer := do
  let l ← l.addCandidate
  .ok ({ l with depth := l.depth + 1, keyAllowed := true }.pass 1 t)

def closeFlow (l : Lexer) (t : Token) : Except Fault Lexer := do
  let l ← l.giveUpCurrent
  .ok ({ l with depth := l.depth - 1, keyAllowed := false }.pass 1 t)

/-- Begins a block at a dash or a question mark outside flow collections, where a key must be able
to begin. -/
def openBlockAt (l : Lexer) (t : Token) : Except Fault Lexer :=
  if l.depth ≠ 0 then .ok l
  else if l.keyAllowed then .ok (l.openBlock t)
  else unreadable

def fetchItem (l : Lexer) : Except Fault Lexer := do
  let l ← l.openBlockAt .sequenceStart
  let l ← { l with keyAllowed := true }.giveUpCurrent
  .ok (l.pass 1 .item)

def fetchKey (l : Lexer) : Except Fault Lexer := do
  let l ← l.openBlockAt .mappingStart
  let l ← { l with keyAllowed := l.depth = 0 }.giveUpCurrent
  .ok (l.pass 1 .key)

/-- Inserts tokens before the one with a number. -/
def insertAt (l : Lexer) (token : Nat) (ts : List Token) : Lexer :=
  let i := token - l.released
  { l with pending := l.pending.take i ++ ts ++ l.pending.drop i }

/-- Reads a colon. It makes the candidate of the current collection a key, and that key may begin a
block. -/
def fetchValue (l : Lexer) : Except Fault Lexer := do
  match l.candidates.find? fun k => k.depth = l.depth with
  | some k =>
    let l := { l with candidates := l.candidates.filter fun k => k.depth ≠ l.depth }
    let l :=
      if l.depth = 0 && l.opensBlock k.place.column then
        { l.insertAt k.token [.mappingStart, .key] with indents := k.place.column :: l.indents }
      else l.insertAt k.token [.key]
    .ok ({ l with keyAllowed := false }.pass 1 .value)
  | none =>
    let l ← l.openBlockAt .mappingStart
    let l ← { l with keyAllowed := l.depth = 0 }.giveUpCurrent
    .ok (l.pass 1 .value)

def fetchName (l : Lexer) (s : List Char) (t : String → Token) : Except Fault Lexer := do
  let l ← l.asCandidate
  match name? s with
  | some (name, rest) => if endsAnchor rest then l.take (some (t name, rest)) else unreadable
  | none => unreadable

def fetchBlock (l : Lexer) (s : List Char) (folded : Bool) : Except Fault Lexer := do
  let l ← { l with keyAllowed := true }.giveUpCurrent
  l.takeScalar (block folded l.leastColumn s)

def fetchPlain (l : Lexer) : Except Fault Lexer := do
  let l ← l.asCandidate
  let scalar := plain (l.depth != 0) l.leastColumn l.rest
  .ok ((({ l with keyAllowed := scalar.crossed }).moveTo scalar.rest).push
    (.scalar (String.ofList scalar.text) false))

def beginsPlain (l : Lexer) : List Char → Bool
  | [] => false
  | c :: rest =>
    !(isBreak c || isSpace c || "-?:,[]\x7b\x7d#&*!|>'\"%@`".toList.contains c) ||
      (!endsToken rest && (c = '-' || (l.depth = 0 && (c = '?' || c = ':'))))

/-- Reads the token that begins with a character. -/
def fetchFrom (l : Lexer) (c : Char) (s : List Char) : Except Fault Lexer := do
  if c = '%' ∧ l.place.column = 0 then
    let l ← l.atTop
    l.take ((directive? s).map fun (d, rest) => (.directive d, rest))
  else if l.place.column = 0 ∧ isMarker l.rest then
    let l ← l.atTop
    .ok (l.pass 3 (if c = '-' then .documentStart else .documentEnd))
  else if c = '[' then l.openFlow .flowSequenceStart
  else if c = '\x7b' then l.openFlow .flowMappingStart
  else if c = ']' then l.closeFlow .flowSequenceEnd
  else if c = '\x7d' then l.closeFlow .flowMappingEnd
  else if c = ',' then
    let l ← { l with keyAllowed := true }.giveUpCurrent
    .ok (l.pass 1 .comma)
  else if c = '-' ∧ endsToken s then l.fetchItem
  else if c = '?' ∧ (l.depth ≠ 0 ∨ endsToken s) then l.fetchKey
  else if c = ':' ∧ (l.depth ≠ 0 ∨ endsToken s) then l.fetchValue
  else if c = '*' then l.fetchName s .reference
  else if c = '&' then l.fetchName s .anchor
  else if c = '!' then
    let l ← l.asCandidate
    l.take (tag? l.rest)
  else if c = '|' ∧ l.depth = 0 then l.fetchBlock s false
  else if c = '>' ∧ l.depth = 0 then l.fetchBlock s true
  else if c = '\'' then
    let l ← l.asCandidate
    l.takeScalar (singleQuoted s)
  else if c = '"' then
    let l ← l.asCandidate
    l.takeScalar (doubleQuoted s)
  else if l.beginsPlain l.rest then l.fetchPlain
  else unreadable

def fetch (l : Lexer) : Except Fault Lexer := do
  let l ← l.toNextToken.giveUpStale
  let l := l.endOuterBlocks
  match l.rest with
  | [] =>
    let l ← l.atTop
    .ok { l.push .streamEnd with candidates := [], finished := true }
  | c :: s => l.fetchFrom c s

/-! ## All tokens -/

/-- Releases the tokens before the first candidate. -/
def release (l : Lexer) : Except Fault (List Token × Lexer) := do
  let l ← l.giveUpStale
  let count := l.candidates.foldl (fun n k => min n (k.token - l.released)) l.pending.length
  .ok (l.pending.take count,
    { l with pending := l.pending.drop count, released := l.released + count })

end Lexer

/-- Tokens, and what goes wrong after them. -/
structure Scan where
  tokens : List Token
  failure : Option Fault

/-- Releases and reads tokens. Every token that is read but the last shortens what is left. -/
def Lexer.run (l : Lexer) : Scan :=
  match l.release with
  | .error fault => ⟨[], some fault⟩
  | .ok (ready, held) =>
    match held.fetch with
    | .error fault => ⟨ready, some fault⟩
    | .ok next =>
      if next.finished then ⟨ready ++ next.pending, none⟩
      else if _h : next.rest.length < l.rest.length then
        let more := next.run
        ⟨ready ++ more.tokens, more.failure⟩
      else ⟨ready, some (.document .token)⟩
termination_by l.rest.length

def Token.scan (document : List Char) : Scan :=
  if document.all isAllowed then ({ rest := unifyBreaks document } : Lexer).run
  else ⟨[], some (.document .character)⟩

end FrameGraph.Yaml
