import BookHighlight.Text.Hexadecimal
import BookHighlight.Yaml.Source

namespace BookHighlight.Yaml

structure Scalar where
  text : List Char
  spansLines : Bool
  after : Source

/-- White space inside a scalar: blanks on one line, newest first, or a line break and the number
    of blank lines after it. An escaped break leaves nothing of itself behind. -/
inductive Pause where
  | blanks (chars : List Char)
  | fold (escaped : Bool) (blankLines : Nat)
  deriving DecidableEq, Repr

namespace Pause

def none : Pause := .blanks []

def addBlank (c : Char) : Pause → Pause
  | .blanks chars => .blanks (c :: chars)
  | pause => pause

def addBreak : Pause → Pause
  | .blanks _ => .fold false 0
  | .fold escaped n => .fold escaped (n + 1)

def spansLines : Pause → Bool
  | .blanks _ => false
  | .fold _ _ => true

def text : Pause → List Char
  | .blanks chars => chars.reverse
  | .fold false 0 => [' ']
  | .fold _ n => List.replicate n '\n'

end Pause

def Scalar.push (pause : Pause) (text : List Char) (s : Scalar) : Scalar :=
  ⟨pause.text ++ text ++ s.text, pause.spansLines || s.spansLines, s.after⟩

def isForbidden (c : Char) : Bool :=
  let n := c.toNat
  (n < 0x20 && c != '\t' && c != '\n') || (0x7F ≤ n && n < 0xA0 && n != 0x85) || n == 0xFFFE ||
    n == 0xFFFF

def continuesPlain (flow : Bool) : List Char → Bool
  | [] => false
  | c :: rest =>
    !(c == ' ' || c == '\t' || c == '\n' || (c == ':' && blankAhead rest) ||
      (flow && [',', '[', ']', '{', '}'].contains c))

def plainFrom (flow : Bool) (limit : Nat) : (pause : Option (Pause × Source)) → (column : Nat) →
    List Char → Scalar
  | pause, column, [] => ⟨[], false, (pause.map (·.2)).getD ⟨column, []⟩⟩
  | pause, column, c :: rest =>
    let here : Source := ⟨column, c :: rest⟩
    let (space, start) := pause.getD (.none, here)
    if c == '\n' then plainFrom flow limit (some (space.addBreak, start)) 0 rest
    else if c == ' ' then
      plainFrom flow limit (some (space.addBlank c, start)) (column + 1) rest
    else if !continuesPlain flow (c :: rest) || (pause.isSome && c == '#') || here.atSeparator ||
        (space.spansLines && !flow && column < limit) then
      ⟨[], false, start⟩
    else (plainFrom flow limit Option.none (column + 1) rest).push space [c]

def startsPlain (flow : Bool) : List Char → Bool
  | [] => false
  | c :: rest =>
    if c == '-' || (c == ':' && flow) then !blankAhead rest
    else if c == '?' || c == ':' then !flow && !blankAhead rest
    else c ∉ [' ', '\t', '\n', ',', '[', ']', '{', '}', '#', '&', '*', '!', '|', '>', '\'', '"',
      '%', '@', '\x60']

def plain (flow : Bool) (limit : Nat) (s : Source) : Scalar :=
  plainFrom flow limit none s.column s.rest

def singleFrom : Pause → (column : Nat) → List Char → Option Scalar
  | _, _, [] => none
  | pause, column, '\'' :: '\'' :: rest =>
    (singleFrom .none (column + 2) rest).map (Scalar.push pause ['\''])
  | pause, column, c :: rest =>
    if c == '\'' then some ⟨pause.text, pause.spansLines, ⟨column + 1, rest⟩⟩
    else if c == '\n' then singleFrom pause.addBreak 0 rest
    else if c == ' ' || c == '\t' then singleFrom (pause.addBlank c) (column + 1) rest
    else if (Source.mk column (c :: rest)).atSeparator then none
    else (singleFrom .none (column + 1) rest).map (Scalar.push pause [c])

def escaped? : Char → Option Char
  | '0' => some '\x00'
  | 'a' => some '\x07'
  | 'b' => some '\x08'
  | 't' | '\t' => some '\t'
  | 'n' => some '\n'
  | 'v' => some '\x0b'
  | 'f' => some '\x0c'
  | 'r' => some '\r'
  | 'e' => some '\x1b'
  | ' ' => some ' '
  | '"' => some '"'
  | '/' => some '/'
  | '\\' => some '\\'
  | 'N' => some '\u0085'
  | '_' => some '\u00a0'
  | 'L' => some '\u2028'
  | 'P' => some '\u2029'
  | _ => none

def doubleFrom : Pause → (column : Nat) → List Char → Option Scalar
  | _, _, [] => none
  | pause, column, '\\' :: 'x' :: a :: b :: rest => do
    let c ← Text.hexChar? [a, b]
    return Scalar.push pause [c] (← doubleFrom .none (column + 4) rest)
  | pause, column, '\\' :: 'u' :: a :: b :: c :: d :: rest => do
    let c ← Text.hexChar? [a, b, c, d]
    return Scalar.push pause [c] (← doubleFrom .none (column + 6) rest)
  | pause, column, '\\' :: 'U' :: a :: b :: c :: d :: e :: f :: g :: h :: rest => do
    let c ← Text.hexChar? [a, b, c, d, e, f, g, h]
    return Scalar.push pause [c] (← doubleFrom .none (column + 10) rest)
  | pause, _, '\\' :: '\n' :: rest =>
    (doubleFrom (.fold true 0) 0 rest).map (Scalar.push pause [])
  | pause, column, '\\' :: c :: rest => do
    let c ← escaped? c
    return Scalar.push pause [c] (← doubleFrom .none (column + 2) rest)
  | pause, column, c :: rest =>
    if c == '"' then some ⟨pause.text, pause.spansLines, ⟨column + 1, rest⟩⟩
    else if c == '\n' then doubleFrom pause.addBreak 0 rest
    else if c == ' ' || c == '\t' then doubleFrom (pause.addBlank c) (column + 1) rest
    else if (Source.mk column (c :: rest)).atSeparator then none
    else (doubleFrom .none (column + 1) rest).map (Scalar.push pause [c])

end BookHighlight.Yaml
