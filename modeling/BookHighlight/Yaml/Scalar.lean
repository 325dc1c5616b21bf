import BookHighlight.Data.Value

namespace BookHighlight.Yaml

open Data

def isOctal (c : Char) : Bool := '0' ≤ c && c ≤ '7'

def isHexadecimal (c : Char) : Bool :=
  c.isDigit || ('a' ≤ c && c ≤ 'f') || ('A' ≤ c && c ≤ 'F')

def digitValue (c : Char) : Nat :=
  if c.isDigit then c.toNat - 48 else if 'a' ≤ c then c.toNat - 87 else c.toNat - 55

def number? (base : Nat) (isDigit : Char → Bool) (s : List Char) : Option Nat :=
  let digits := s.filter (· != '_')
  if digits.isEmpty || !digits.all isDigit then none
  else some (digits.foldl (fun n c => base * n + digitValue c) 0)

def splitSign : List Char → Bool × List Char
  | '-' :: rest => (true, rest)
  | '+' :: rest => (false, rest)
  | s => (false, s)

def whole? (s : List Char) : Option Int :=
  let (negative, digits) := splitSign s
  let n? := match digits with
    | '0' :: 'b' :: rest => number? 2 (fun c => c == '0' || c == '1') rest
    | '0' :: 'o' :: rest => number? 8 isOctal rest
    | '0' :: 'x' :: rest => number? 16 isHexadecimal rest
    | '_' :: _ => if s.head? == some '_' then none else number? 10 Char.isDigit digits
    | _ => number? 10 Char.isDigit digits
  n?.map fun n => if negative then -(n : Int) else n

def exponent? (signNeeded : Bool) : List Char → Option Int
  | [] => some 0
  | e :: rest =>
    let (negative, digits) := splitSign rest
    let signed := rest.length != digits.length
    if (e == 'e' || e == 'E') && (signed || !signNeeded) && digits.all Char.isDigit then
      (number? 10 Char.isDigit digits).map fun n => if negative then -(n : Int) else n
    else none

def isDecimalChar (c : Char) : Bool := c.isDigit || c == '_'

def decimal? (s : List Char) : Option Binary64 :=
  let (negative, unsigned) := splitSign s
  let whole := unsigned.takeWhile isDecimalChar
  let rest := unsigned.dropWhile isDecimalChar
  let make (fraction : List Char) (power : Int) : Option Binary64 :=
    let fraction := fraction.filter (· != '_')
    (number? 10 Char.isDigit (whole ++ fraction)).map fun digits =>
      Binary64.ofDecimal negative digits (power - fraction.length)
  let wholeIsNumber := (whole.head?.map Char.isDigit).getD false
  match rest with
  | '.' :: rest =>
    let fraction := rest.takeWhile isDecimalChar
    let power? := exponent? (!wholeIsNumber) (rest.dropWhile isDecimalChar)
    if wholeIsNumber || (whole.isEmpty && !fraction.isEmpty) then power?.bind (make fraction)
    else none
  | [] => none
  | _ => if wholeIsNumber then (exponent? false rest).bind (make []) else none

def words : List (List Char × Value) :=
  (["~", "null", "Null", "NULL"].map fun word => (word.toList, .null)) ++
  (["true", "True", "TRUE"].map fun word => (word.toList, .bool true)) ++
  (["false", "False", "FALSE"].map fun word => (word.toList, .bool false)) ++
  ([".inf", ".Inf", ".INF"].flatMap fun word =>
    [(word.toList, .float (.infinite false)), ('+' :: word.toList, .float (.infinite false)),
      ('-' :: word.toList, .float (.infinite true))]) ++
  ([".nan", ".NaN", ".NAN"].map fun word => (word.toList, .float .nan))

def plainValue (s : List Char) : Value :=
  match words.lookup s with
  | some value => value
  | none =>
    match decimal? s, whole? s with
    | some x, _ => .float x
    | none, some n => .int n
    | none, none => .text (String.ofList s)

end BookHighlight.Yaml
