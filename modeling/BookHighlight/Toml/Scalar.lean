import BookHighlight.Data.Value
import BookHighlight.Text.Hexadecimal

namespace BookHighlight.Toml

open Data

def isSpace (c : Char) : Bool := c == ' ' || c == '\t'

def isSpaceOrBreak (c : Char) : Bool := isSpace c || c == '\n' || c == '\r'

def isControl (c : Char) : Bool := c.toNat == 0x7F || (c.toNat < 0x20 && c != '\t')

def escaped? : List Char → Option (Char × Nat)
  | 'u' :: a :: b :: c :: d :: _ => (Text.hexChar? [a, b, c, d]).map (·, 5)
  | 'U' :: a :: b :: c :: d :: e :: f :: g :: h :: _ =>
    (Text.hexChar? [a, b, c, d, e, f, g, h]).map (·, 9)
  | 'b' :: _ => some ('\x08', 1)
  | 't' :: _ => some ('\t', 1)
  | 'n' :: _ => some ('\n', 1)
  | 'f' :: _ => some ('\x0c', 1)
  | 'r' :: _ => some ('\r', 1)
  | '"' :: _ => some ('"', 1)
  | '\\' :: _ => some ('\\', 1)
  | _ => none

structure StringStyle where
  quote : Char
  escapes : Bool
  multiline : Bool

/-- Reads a string up to its closing quotes. `skip` characters are already read. `trim` is set
    after a backslash at the end of a line, where white space is dropped; it tells whether the
    line break has been met. -/
def stringFrom (style : StringStyle) : (skip : Nat) → (trim : Option Bool) → List Char →
    Option (List Char × List Char)
  | _, _, [] => none
  | skip + 1, trim, _ :: rest => stringFrom style skip trim rest
  | 0, trim, c :: rest =>
    let add (added : Char) (read : Option (List Char × List Char)) :=
      read.map fun (text, rest) => (added :: text, rest)
    if trim.isSome && isSpaceOrBreak c then
      stringFrom style 0 (some (trim == some true || c == '\n')) rest
    else if trim == some false then none
    else if isControl c && !(style.multiline && (c == '\n' || c == '\r')) then none
    else if c == style.quote then
      let width := (rest.takeWhile (· == c)).length + 1
      if !style.multiline then some ([], rest)
      else if width < 3 then add c (stringFrom style 0 none rest)
      else if width < 6 then some (List.replicate (width - 3) c, rest.drop (width - 1))
      else none
    else if style.escapes && c == '\\' then
      if style.multiline && (rest.head?.map isSpaceOrBreak).getD false then
        stringFrom style 0 (some false) rest
      else
        match escaped? rest with
        | some (char, width) => add char (stringFrom style width none rest)
        | none => none
    else add c (stringFrom style 0 none rest)

def readString (quote : Char) (rest : List Char) : Option (List Char × List Char) :=
  let escapes := quote == '"'
  match rest with
  | c :: d :: after =>
    if c == quote && d == quote then
      let after := match after with
        | '\n' :: after => after
        | after => after
      stringFrom ⟨quote, escapes, true⟩ 0 none after
    else stringFrom ⟨quote, escapes, false⟩ 0 none rest
  | _ => stringFrom ⟨quote, escapes, false⟩ 0 none rest

def dropUnderscores? (isDigit : Char → Bool) : (afterDigit : Bool) → List Char →
    Option (List Char)
  | _, [] => some []
  | afterDigit, c :: rest =>
    if c == '_' then
      if afterDigit && (rest.head?.map isDigit).getD false then
        dropUnderscores? isDigit false rest
      else none
    else (dropUnderscores? isDigit (isDigit c) rest).map (c :: ·)

def wholeNumber? (base : Nat) (digits : List Char) : Option Nat :=
  if digits.isEmpty then none
  else
    digits.foldlM (fun n c => (Text.hexValue? c).bind fun d =>
      if d < base then some (base * n + d) else none) 0

def power? : List Char → Option Int
  | '-' :: digits => (wholeNumber? 10 digits).map fun n => -(n : Int)
  | '+' :: digits => (wholeNumber? 10 digits).map Int.ofNat
  | digits => (wholeNumber? 10 digits).map Int.ofNat

def decimal? (negative : Bool) (s : List Char) : Option Value := do
  let whole := s.takeWhile Char.isDigit
  let rest := s.dropWhile Char.isDigit
  let n ← wholeNumber? 10 whole
  if 1 < whole.length && whole.head? == some '0' then none
  else if rest.isEmpty then return .int (if negative then -(n : Int) else n)
  else
    let (fraction, rest) ← match rest with
      | '.' :: rest =>
        let fraction := rest.takeWhile Char.isDigit
        if fraction.isEmpty then none else some (fraction, rest.dropWhile Char.isDigit)
      | _ => some ([], rest)
    let power ← match rest with
      | [] => some 0
      | 'e' :: rest | 'E' :: rest => power? rest
      | _ => none
    let digits ← wholeNumber? 10 (whole ++ fraction)
    return .float (Binary64.ofDecimal negative digits (power - fraction.length))

def number? (s : List Char) : Option Value :=
  let based (base : Nat) (digits : List Char) : Option Value :=
    match dropUnderscores? (fun c => (Text.hexValue? c).any (· < base)) false digits with
    | some digits => (wholeNumber? base digits).map fun n => .int n
    | none => none
  let unsigned (negative : Bool) (s : List Char) : Option Value :=
    if s == ['i', 'n', 'f'] then some (.float (.infinite negative))
    else if s == ['n', 'a', 'n'] then some (.float .nan)
    else (dropUnderscores? Char.isDigit false s).bind (decimal? negative)
  match s with
  | '0' :: 'x' :: digits => based 16 digits
  | '0' :: 'o' :: digits => based 8 digits
  | '0' :: 'b' :: digits => based 2 digits
  | '-' :: s => unsigned true s
  | '+' :: s => unsigned false s
  | s => unsigned false s

end BookHighlight.Toml
