/-!
# Characters of a document

A document is a text without control characters. Of the characters that end a line, the carriage
return, with or without a line feed, and the next-line character count as line feeds; the line and
paragraph separators are kept apart.
-/

namespace FrameGraph.Yaml

/-- The characters a document may hold. -/
def isAllowed (c : Char) : Bool :=
  let n := c.toNat
  n = 0x09 || n = 0x0A || n = 0x0D || (0x20 ≤ n && n ≤ 0x7E) || n = 0x85 ||
    (0xA0 ≤ n && n ≤ 0xD7FF) || (0xE000 ≤ n && n ≤ 0xFFFD) || 0x10000 ≤ n

/-- The mark that may stand before a document to tell its byte order. -/
def byteOrderMark : Char := '\uFEFF'

/-- Line ends as line feeds. -/
def unifyBreaks : List Char → List Char
  | [] => []
  | '\r' :: '\n' :: rest => '\n' :: unifyBreaks rest
  | c :: rest => (if c = '\r' ∨ c = '\x85' then '\n' else c) :: unifyBreaks rest

def isBreak (c : Char) : Bool := c = '\n' || c = '\u2028' || c = '\u2029'

def isSpace (c : Char) : Bool := c = ' ' || c = '\t'

def endsLine : List Char → Bool
  | [] => true
  | c :: _ => isBreak c

/-- Whether a line ends here, or a space follows. -/
def endsWord : List Char → Bool
  | [] => true
  | c :: _ => isBreak c || c = ' '

/-- Whether a line ends here, or a space or a tab follows. -/
def endsToken : List Char → Bool
  | [] => true
  | c :: _ => isBreak c || isSpace c

/-- Whether a line that begins here begins or ends a document. -/
def isMarker : List Char → Bool
  | '-' :: '-' :: '-' :: rest => endsToken rest
  | '.' :: '.' :: '.' :: rest => endsToken rest
  | _ => false

def isNameChar (c : Char) : Bool := c.isAlphanum || c = '-' || c = '_'

def dropSpaces (s : List Char) : List Char := s.dropWhile (· = ' ')

def dropLine (s : List Char) : List Char := s.dropWhile fun c => !isBreak c

def dropBreak : List Char → List Char
  | [] => []
  | c :: rest => if isBreak c then rest else c :: rest

/-- Drops spaces and a comment up to the end of a line, if nothing else is left on it. -/
def dropComment? (s : List Char) : Option (List Char) :=
  let s := dropSpaces s
  let s := if s.head? = some '#' then dropLine s else s
  if endsLine s then some (dropBreak s) else none

end FrameGraph.Yaml
