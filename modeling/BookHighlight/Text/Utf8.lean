import BookHighlight.Text.Surrogate

namespace BookHighlight.Text

/-! Halves of surrogate pairs are read like characters where `halves` says so. -/

def utf8Char (c : Char) : List UInt8 :=
  let n := c.toNat
  let continuation (k : Nat) : UInt8 := UInt8.ofNat (0x80 + k % 0x40)
  if n < 0x80 then [UInt8.ofNat n]
  else if n < 0x800 then [UInt8.ofNat (0xC0 + n / 0x40), continuation n]
  else if n < 0x10000 then
    [UInt8.ofNat (0xE0 + n / 0x1000), continuation (n / 0x40), continuation n]
  else
    [UInt8.ofNat (0xF0 + n / 0x40000), continuation (n / 0x1000), continuation (n / 0x40),
      continuation n]

def toUtf8 (s : List Char) : List UInt8 := s.flatMap utf8Char

/-- The first character of a byte sequence: the character, or nothing for an ill-formed start, and
    the number of bytes it takes. An ill-formed start is as long as the part of a well-formed
    sequence it begins with, and at least one byte. -/
inductive Utf8Step where
  | char (c : Char) (width : Nat)
  | illFormed (width : Nat)

def secondByteRange (halves : Bool) (first : Nat) : Nat × Nat :=
  if first = 0xE0 then (0xA0, 0xBF)
  else if first = 0xED then (0x80, if halves then 0xBF else 0x9F)
  else if first = 0xF0 then (0x90, 0xBF)
  else if first = 0xF4 then (0x80, 0x8F)
  else (0x80, 0xBF)

def utf8Tail (width value : Nat) (range : Nat × Nat) : Nat → List UInt8 → Utf8Step
  | 0, _ => .char (ofCode value) width
  | _ + 1, [] => .illFormed width
  | owed + 1, b :: rest =>
    let b := b.toNat
    if range.1 ≤ b ∧ b ≤ range.2 then
      utf8Tail (width + 1) (value * 0x40 + (b - 0x80)) (0x80, 0xBF) owed rest
    else .illFormed width

def utf8Step (halves : Bool) (first : UInt8) (rest : List UInt8) : Utf8Step :=
  let n := first.toNat
  if n < 0x80 then .char (ofCode n) 1
  else if n < 0xC2 then .illFormed 1
  else if n < 0xE0 then utf8Tail 1 (n - 0xC0) (0x80, 0xBF) 1 rest
  else if n < 0xF0 then utf8Tail 1 (n - 0xE0) (secondByteRange halves n) 2 rest
  else if n < 0xF5 then utf8Tail 1 (n - 0xF0) (secondByteRange halves n) 3 rest
  else .illFormed 1

def utf8Chars (halves : Bool) : (skip : Nat) → List UInt8 → List (Option Char)
  | _, [] => []
  | skip + 1, _ :: rest => utf8Chars halves skip rest
  | 0, first :: rest =>
    match utf8Step halves first rest with
    | .char c width => some c :: utf8Chars halves (width - 1) rest
    | .illFormed width => none :: utf8Chars halves (width - 1) rest

def ofUtf8? (halves : Bool) (bytes : List UInt8) : Option (List Char) :=
  (utf8Chars halves 0 bytes).mapM id

def ofUtf8Lossy (bytes : List UInt8) : List Char :=
  (utf8Chars false 0 bytes).map (·.getD '\ufffd')

end BookHighlight.Text
