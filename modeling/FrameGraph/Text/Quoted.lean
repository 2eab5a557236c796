import FrameGraph.Text.Printable

/-!
# Quoted text

How a text or a byte string is written between quotes inside a message: single quotes, unless the
text holds a single quote and no double one; a backslash before a backslash and before the mark;
`\n`, `\r`, `\t`; and hexadecimal escapes of two, four or eight digits for whatever is not
printable.
-/

namespace FrameGraph.Text

/-- The hexadecimal digits of a number, padded with zeros to a width. -/
def hexDigits (width n : Nat) : List Char :=
  let digits := Nat.toDigits 16 n
  List.replicate (width - digits.length) '0' ++ digits

/-- The quotation mark: the double one only where it spares an escape. -/
def quoteMark (s : List Char) : Char :=
  if '\'' ∈ s ∧ '"' ∉ s then '"' else '\''

def escapeCode (n : Nat) : List Char :=
  if n ≤ 0xFF then '\\' :: 'x' :: hexDigits 2 n
  else if n ≤ 0xFFFF then '\\' :: 'u' :: hexDigits 4 n
  else '\\' :: 'U' :: hexDigits 8 n

/-- One character between quotation marks; `keep` tells which characters stand for themselves. -/
def escapeChar (keep : Char → Bool) (mark c : Char) : List Char :=
  if c = mark ∨ c = '\\' then ['\\', c]
  else if c = '\n' then ['\\', 'n']
  else if c = '\r' then ['\\', 'r']
  else if c = '\t' then ['\\', 't']
  else if keep c then [c]
  else escapeCode c.toNat

/-- A sequence of characters between quotation marks. -/
def quoteChars (keep : Char → Bool) (s : List Char) : List Char :=
  let mark := quoteMark s
  mark :: (s.flatMap (escapeChar keep mark) ++ [mark])

def quoteText (s : String) : String := String.ofList (quoteChars isPrintable s.toList)

/-- A byte string in quotes after the letter `b`: only printable ASCII stands for itself. -/
def quoteBytes (data : List UInt8) : String :=
  let chars := data.map fun b => Char.ofNat b.toNat
  String.ofList ('b' :: quoteChars (fun c => 0x20 ≤ c.toNat && c.toNat < 0x7F) chars)

/-- The lower-case hexadecimal form of a byte string, two digits a byte. -/
def hexBytes (data : List UInt8) : String :=
  String.ofList (data.flatMap fun b => hexDigits 2 b.toNat)

end FrameGraph.Text
