import BookHighlight.Data.Value
import BookHighlight.Text.Hexadecimal
import BookHighlight.Text.Surrogate

namespace BookHighlight.Json

open Data

inductive Fault where
  | byteOrderMark
  | noValue
  | extraData
  | noName
  | noColon
  | noComma
  | unterminatedText
  | controlCharacter
  | badEscape
  | badCodePoint
  /-- more digits than the conversion to an integer allows -/
  | tooManyDigits
  deriving DecidableEq, Repr

structure Error where
  fault : Fault
  position : Nat
  deriving DecidableEq, Repr

def Fault.message : Fault → String
  | .byteOrderMark => "Unexpected UTF-8 BOM (decode using utf-8-sig)"
  | .noValue => "Expecting value"
  | .extraData => "Extra data"
  | .noName => "Expecting property name enclosed in double quotes"
  | .noColon => "Expecting ':' delimiter"
  | .noComma => "Expecting ',' delimiter"
  | .unterminatedText => "Unterminated string starting at"
  | .controlCharacter => "Invalid control character at"
  | .badEscape => "Invalid \\escape"
  | .badCodePoint => "Invalid \\uXXXX escape"
  | .tooManyDigits => "Exceeds the limit for integer string conversion"

def Error.message (text : List Char) (e : Error) : String :=
  let before := text.take e.position
  let line := before.count '\n' + 1
  let column := (before.reverse.takeWhile (· != '\n')).length + 1
  e.fault.message ++ ": line " ++ toString line ++ " column " ++ toString column ++
    " (char " ++ toString e.position ++ ")"

structure Source where
  position : Nat
  rest : List Char

namespace Source

def fail {α : Type} (s : Source) (fault : Fault) : Except Error α := .error ⟨fault, s.position⟩

def isSpace (c : Char) : Bool := c == ' ' || c == '\t' || c == '\n' || c == '\r'

def skipSpace (s : Source) : Source :=
  ⟨s.position + (s.rest.takeWhile isSpace).length, s.rest.dropWhile isSpace⟩

end Source

def escaped? : Char → Option Char
  | '"' => some '"'
  | '\\' => some '\\'
  | '/' => some '/'
  | 'b' => some '\x08'
  | 'f' => some '\x0c'
  | 'n' => some '\n'
  | 'r' => some '\r'
  | 't' => some '\t'
  | _ => none

/-- Characters read so far, newest first, and the first half of a surrogate pair if one is still
    waiting for the second. -/
structure Pending where
  chars : List Char
  high : Option Nat

def Pending.settled (p : Pending) : List Char :=
  match p.high with
  | some high => Text.ofCode high :: p.chars
  | none => p.chars

def Pending.push (p : Pending) (c : Char) : Pending := ⟨c :: p.settled, none⟩

def Pending.pushUnit (p : Pending) (n : Nat) : Pending :=
  match p.high with
  | some high =>
    if 0xDC00 ≤ n ∧ n < 0xE000 then
      ⟨Char.ofNat (0x10000 + (high - 0xD800) * 0x400 + (n - 0xDC00)) :: p.chars, none⟩
    else if 0xD800 ≤ n ∧ n < 0xDC00 then ⟨p.settled, some n⟩
    else p.push (Text.ofCode n)
  | none => if 0xD800 ≤ n ∧ n < 0xDC00 then ⟨p.chars, some n⟩ else p.push (Text.ofCode n)

def Pending.text (p : Pending) : String := String.ofList p.settled.reverse

def readText (start : Nat) : Pending → Nat → List Char → Except Error (String × Source)
  | _, _, [] => .error ⟨.unterminatedText, start⟩
  | p, position, '"' :: rest => .ok (p.text, ⟨position + 1, rest⟩)
  | p, position, '\\' :: 'u' :: a :: b :: c :: d :: rest =>
    match rest, Text.hexNumber? [a, b, c, d] with
    | _ :: _, some n => readText start (p.pushUnit n) (position + 6) rest
    | _, _ => .error ⟨.badCodePoint, position + 1⟩
  | _, position, '\\' :: 'u' :: _ => .error ⟨.badCodePoint, position + 1⟩
  | _, _, ['\\'] => .error ⟨.unterminatedText, start⟩
  | p, position, '\\' :: c :: rest =>
    match escaped? c with
    | some c => readText start (p.push c) (position + 2) rest
    | none => .error ⟨.badEscape, position⟩
  | p, position, c :: rest =>
    if c.toNat < 0x20 then .error ⟨.controlCharacter, position⟩
    else readText start (p.push c) (position + 1) rest

def decimalNumber (digits : List Char) : Nat :=
  digits.foldl (fun n c => 10 * n + (c.toNat - 48)) 0

def fraction? : List Char → Option (List Char)
  | '.' :: rest =>
    match rest.takeWhile Char.isDigit with
    | [] => none
    | digits => some digits
  | _ => none

def exponent? : List Char → Option (Bool × List Char × Nat)
  | e :: rest =>
    if e == 'e' || e == 'E' then
      let (negative, width, rest) := match rest with
        | '-' :: rest => (true, 2, rest)
        | '+' :: rest => (false, 2, rest)
        | rest => (false, 1, rest)
      match rest.takeWhile Char.isDigit with
      | [] => none
      | digits => some (negative, digits, width + digits.length)
    else none
  | [] => none

def readUnsigned? (negative : Bool) (s : Source) : Option (Value × Source) :=
  let whole := match s.rest with
    | '0' :: _ => ['0']
    | rest => rest.takeWhile Char.isDigit
  if whole.isEmpty then none
  else
    let rest := s.rest.drop whole.length
    let fraction := fraction? rest
    let fractionWidth := match fraction with
      | some digits => digits.length + 1
      | none => 0
    let exponent := exponent? (rest.drop fractionWidth)
    let exponentWidth := match exponent with
      | some (_, _, width) => width
      | none => 0
    let after : Source :=
      ⟨s.position + whole.length + fractionWidth + exponentWidth,
        rest.drop (fractionWidth + exponentWidth)⟩
    if fraction.isNone && exponent.isNone then
      let n : Int := decimalNumber whole
      some (.int (if negative then -n else n), after)
    else
      let fraction := fraction.getD []
      let power : Int := match exponent with
        | some (true, digits, _) => -(decimalNumber digits : Int)
        | some (false, digits, _) => decimalNumber digits
        | none => 0
      let x := Binary64.ofDecimal negative (decimalNumber (whole ++ fraction))
        (power - fraction.length)
      some (.float x, after)

def mostDigits : Nat := 4300

def readAtom (s : Source) : Except Error (Value × Source) :=
  let word (letters : List Char) (value : Value) : Option (Value × Source) :=
    if letters.isPrefixOf s.rest then
      some (value, ⟨s.position + letters.length, s.rest.drop letters.length⟩)
    else none
  let negative? := match s.rest with
    | '-' :: rest => readUnsigned? true ⟨s.position + 1, rest⟩
    | _ => readUnsigned? false s
  let found := word ['n', 'u', 'l', 'l'] .null
    <|> word ['t', 'r', 'u', 'e'] (.bool true)
    <|> word ['f', 'a', 'l', 's', 'e'] (.bool false)
    <|> word ['N', 'a', 'N'] (.float .nan)
    <|> word ['I', 'n', 'f', 'i', 'n', 'i', 't', 'y'] (.float (.infinite false))
    <|> word ['-', 'I', 'n', 'f', 'i', 'n', 'i', 't', 'y'] (.float (.infinite true))
    <|> negative?
  match found with
  | some (.int n, after) =>
    if (Nat.toDigits 10 n.natAbs).length ≤ mostDigits then .ok (.int n, after)
    else s.fail .tooManyDigits
  | some result => .ok result
  | none => s.fail .noValue

mutual

/-- Reads the value at the front. At most two calls are made between one character and the next,
    so twice the length of the text is fuel enough. -/
def readValue : Nat → Source → Except Error (Value × Source)
  | 0, s => s.fail .noValue
  | fuel + 1, s =>
    match s.rest with
    | '"' :: rest => do
      let (text, s) ← readText s.position ⟨[], none⟩ (s.position + 1) rest
      return (.text text, s)
    | '{' :: rest =>
      let inner := Source.skipSpace ⟨s.position + 1, rest⟩
      match inner.rest with
      | '}' :: rest => .ok (.table [], ⟨inner.position + 1, rest⟩)
      | _ => readEntries fuel [] inner
    | '[' :: rest =>
      let inner := Source.skipSpace ⟨s.position + 1, rest⟩
      match inner.rest with
      | ']' :: rest => .ok (.list [], ⟨inner.position + 1, rest⟩)
      | _ => readItems fuel [] inner
    | _ => readAtom s

def readItems : Nat → List Value → Source → Except Error (Value × Source)
  | 0, _, s => s.fail .noValue
  | fuel + 1, items, s => do
    let (item, s) ← readValue fuel s
    let s := s.skipSpace
    match s.rest with
    | ']' :: rest => return (.list (item :: items).reverse, ⟨s.position + 1, rest⟩)
    | ',' :: rest => readItems fuel (item :: items) (Source.skipSpace ⟨s.position + 1, rest⟩)
    | _ => s.fail .noComma

def readEntries : Nat → Entries → Source → Except Error (Value × Source)
  | 0, _, s => s.fail .noName
  | fuel + 1, entries, s =>
    match s.rest with
    | '"' :: rest => do
      let (name, s) ← readText s.position ⟨[], none⟩ (s.position + 1) rest
      let s := s.skipSpace
      match s.rest with
      | ':' :: rest =>
        let (value, s) ← readValue fuel (Source.skipSpace ⟨s.position + 1, rest⟩)
        let entries := Entries.put entries (.text name) value
        let s := s.skipSpace
        match s.rest with
        | '}' :: rest => return (.table entries, ⟨s.position + 1, rest⟩)
        | ',' :: rest => readEntries fuel entries (Source.skipSpace ⟨s.position + 1, rest⟩)
        | _ => s.fail .noComma
      | _ => s.fail .noColon
    | _ => s.fail .noName

end

def readAll (text : List Char) : Except Error Value := do
  let (value, s) ← readValue (2 * text.length + 2) (Source.skipSpace ⟨0, text⟩)
  let s := s.skipSpace
  if s.rest.isEmpty then return value else s.fail .extraData

def read (text : List Char) : Except Error Value :=
  match text with
  | '\ufeff' :: _ => .error ⟨.byteOrderMark, 0⟩
  | _ => readAll text

end BookHighlight.Json
