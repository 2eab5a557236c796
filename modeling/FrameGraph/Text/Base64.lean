/-!
# Base64

Bytes are written in groups of three as four characters of six bits each; a last group that is not
full is filled up with equals signs. A reader passes over characters of no value, and stops at the
equals signs that fill up a group.
-/

namespace FrameGraph.Text.Base64

/-- The characters of the values from zero to sixty-three. -/
def alphabet : List Char :=
  "ABCDEFGHIJKLMNOPQRSTUVWXYZabcdefghijklmnopqrstuvwxyz0123456789+/".toList

def value? (c : Char) : Option Nat := alphabet.idxOf? c

def character (n : Nat) : Char := alphabet.getD n '='

/-! ## Writing -/

/-- One to three bytes as four characters. -/
def writeGroup : List UInt8 → List Char
  | [] => []
  | [a] => [character (a.toNat / 4), character (a.toNat % 4 * 16), '=', '=']
  | [a, b] =>
    [character (a.toNat / 4), character (a.toNat % 4 * 16 + b.toNat / 16),
      character (b.toNat % 16 * 4), '=']
  | a :: b :: c :: _ =>
    [character (a.toNat / 4), character (a.toNat % 4 * 16 + b.toNat / 16),
      character (b.toNat % 16 * 4 + c.toNat / 64), character (c.toNat % 64)]

/-- A list in groups of a size, of which only the last may be smaller. -/
def groups {α : Type} (size : Nat) : Nat → List α → List (List α)
  | 0, _ => []
  | _, [] => []
  | fuel + 1, s => s.take size :: groups size fuel (s.drop size)

/-- The bytes on one line. -/
def lineBytes : Nat := 57

/-- Bytes on lines of at most seventy-six characters, each with a line end. -/
def write (data : List UInt8) : String :=
  let line (bytes : List UInt8) := (groups 3 bytes.length bytes).flatMap writeGroup ++ ['\n']
  String.ofList ((groups lineBytes data.length data).flatMap line)

/-! ## Reading -/

/-- What a reader holds: how many characters of the present group it has read, the bits that are not
yet part of a byte, the equals signs since the last character of a value, and the bytes, the last
one first. -/
structure Reader where
  place : Nat := 0
  bits : Nat := 0
  signs : Nat := 0
  bytes : List UInt8 := []

def Reader.step (r : Reader) (n : Nat) : Reader :=
  let byte (place bits high : Nat) : Reader :=
    { place, bits, bytes := UInt8.ofNat high :: r.bytes }
  match r.place with
  | 0 => { r with place := 1, bits := n, signs := 0 }
  | 1 => byte 2 (n % 16) (r.bits * 4 + n / 16)
  | 2 => byte 3 (n % 4) (r.bits * 16 + n / 4)
  | _ => byte 0 0 (r.bits * 64 + n)

/-- Reads on. A group may end before its fourth character only with enough equals signs. -/
def Reader.run (r : Reader) : List Char → Option (List UInt8)
  | [] => if r.place = 0 then some r.bytes.reverse else none
  | c :: rest =>
    if c = '=' then
      if r.place < 2 then r.run rest
      else if 4 ≤ r.place + (r.signs + 1) then some r.bytes.reverse
      else { r with signs := r.signs + 1 }.run rest
    else
      match value? c with
      | some n => (r.step n).run rest
      | none => r.run rest

def read? (s : List Char) : Option (List UInt8) := ({} : Reader).run s

end FrameGraph.Text.Base64
