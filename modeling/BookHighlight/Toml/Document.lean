import BookHighlight.Text.Line
import BookHighlight.Toml.Scalar
import BookHighlight.Toml.Table

namespace BookHighlight.Toml

open Data

inductive Fault where
  | invalid
  /-- a key given twice in one table -/
  | repeatedKey
  deriving DecidableEq, Repr

def orInvalid {α : Type} : Option α → Except Fault α
  | some a => .ok a
  | none => .error .invalid

def isBareKeyChar (c : Char) : Bool := c.isAlphanum || c == '-' || c == '_'

def readKey : (fuel : Nat) → List Char → Except Fault (List String × List Char)
  | 0, _ => .error .invalid
  | fuel + 1, s => do
    let (part, s) ← match s.dropWhile isSpace with
      | '"' :: rest => quoted '"' rest
      | '\'' :: rest => quoted '\'' rest
      | s =>
        match s.takeWhile isBareKeyChar with
        | [] => .error .invalid
        | part => .ok (part, s.drop part.length)
    let part := String.ofList part
    match s.dropWhile isSpace with
    | '.' :: rest => do
      let (more, s) ← readKey fuel rest
      return (part :: more, s)
    | s => return ([part], s)
where
  /-- Strings of several lines are no keys. -/
  quoted (quote : Char) (rest : List Char) : Except Fault (List Char × List Char) :=
    if [quote, quote].isPrefixOf rest then .error .invalid
    else orInvalid (stringFrom ⟨quote, quote == '"', false⟩ 0 none rest)

def skipComment (s : List Char) : Except Fault (List Char) :=
  let comment := s.takeWhile (· != '\n')
  if comment.any isControl then .error .invalid else .ok (s.drop comment.length)

def endLine (s : List Char) : Except Fault (List Char) := do
  let s := s.dropWhile isSpace
  let s ← if s.head? == some '#' then skipComment s else pure s
  match s with
  | [] => return []
  | '\n' :: rest => return rest
  | _ => throw .invalid

def skipLines : (fuel : Nat) → List Char → Except Fault (List Char)
  | 0, s => .ok s
  | fuel + 1, s =>
    match s.dropWhile isSpaceOrBreak with
    | '#' :: rest => do skipLines fuel (← skipComment ('#' :: rest))
    | s => .ok s

def readEquals (s : List Char) : Except Fault (List Char) :=
  match s.dropWhile isSpace with
  | '=' :: rest => .ok (rest.dropWhile isSpace)
  | _ => .error .invalid

def isDelimiter (c : Char) : Bool := isSpaceOrBreak c || [',', ']', '}', '#'].contains c

def entry : List String → Node → Table
  | [], _ => []
  | name :: path, node => [(name, node.under .dotted path)]

mutual

/-- Reads a value. Each call is made on a shorter text or for the next part of a list or table. -/
def readValue : (fuel : Nat) → List Char → Except Fault (Value × List Char)
  | 0, _ => .error .invalid
  | fuel + 1, s =>
    match s with
    | '"' :: rest => text '"' rest
    | '\'' :: rest => text '\'' rest
    | '[' :: rest => readItems fuel [] rest
    | '{' :: rest =>
      match rest.dropWhile isSpace with
      | '}' :: rest => .ok (.table [], rest)
      | rest => readEntries fuel [] rest
    | 't' :: 'r' :: 'u' :: 'e' :: rest => .ok (.bool true, rest)
    | 'f' :: 'a' :: 'l' :: 's' :: 'e' :: rest => .ok (.bool false, rest)
    | s => do
      let word := s.takeWhile (!isDelimiter ·)
      return (← orInvalid (number? word), s.drop word.length)
where
  text (quote : Char) (rest : List Char) : Except Fault (Value × List Char) :=
    orInvalid ((readString quote rest).map fun (text, rest) => (.text (String.ofList text), rest))

def readItems : (fuel : Nat) → (items : List Value) → List Char → Except Fault (Value × List Char)
  | 0, _, _ => .error .invalid
  | fuel + 1, items, s => do
    match ← skipLines s.length s with
    | ']' :: rest => return (.list items.reverse, rest)
    | s =>
      let (item, s) ← readValue fuel s
      match ← skipLines s.length s with
      | ',' :: rest => readItems fuel (item :: items) rest
      | ']' :: rest => return (.list (item :: items).reverse, rest)
      | _ => throw .invalid

def readEntries : (fuel : Nat) → Table → List Char → Except Fault (Value × List Char)
  | 0, _, _ => .error .invalid
  | fuel + 1, entries, s => do
    let (key, s) ← readKey s.length s
    let (value, s) ← readValue fuel (← readEquals s)
    let some entries := add? entries (entry key (.value value)) | throw .repeatedKey
    match s.dropWhile isSpace with
    | ',' :: rest => readEntries fuel entries rest
    | '}' :: rest => return (.table (valuesOf entries), rest)
    | _ => throw .invalid

end

inductive Statement where
  | assignment (key : List String) (value : Value)
  | header (path : List String) (ofList : Bool)

def readHeader (s : List Char) : Except Fault (Statement × List Char) := do
  let (ofList, s) := match s with
    | '[' :: rest => (true, rest)
    | s => (false, s)
  let (path, s) ← readKey s.length s
  match s with
  | ']' :: rest => return (.header path ofList, ← endLine (if ofList then rest.drop 1 else rest))
  | _ => throw .invalid

def readAssignment (s : List Char) : Except Fault (Statement × List Char) := do
  let (key, s) ← readKey s.length s
  let (value, s) ← readValue (2 * s.length + 2) (← readEquals s)
  return (.assignment key value, ← endLine s)

def statements : (fuel : Nat) → List Char → List Statement × Option Fault
  | 0, _ => ([], none)
  | fuel + 1, s =>
    let next : Except Fault (Option (Statement × List Char)) := do
      match ← skipLines s.length s with
      | [] => return none
      | '[' :: rest => some <$> readHeader rest
      | s => some <$> readAssignment s
    match next with
    | .error fault => ([], some fault)
    | .ok none => ([], none)
    | .ok (some (statement, rest)) =>
      let (more, fault) := statements fuel rest
      (statement :: more, fault)

def isStrictPrefix (path : List String) (other : List String) : Bool :=
  path.isPrefixOf other && path.length < other.length

def headed (ofList : Bool) (path : List String) (entries : Table) : Table :=
  let node : Node := .table .header entries
  match path with
  | [] => []
  | name :: path => [(name, (if ofList then .tables [node] else node).under .implied path)]

/-- The table that starts with given entries under a header: assignments add to it, and so do the
    tables whose headers extend its own. Also gives the statements after them. -/
def tableFrom : (fuel : Nat) → (path : List String) → Table → List Statement →
    Except Fault (Table × List Statement)
  | 0, _, entries, rest => .ok (entries, rest)
  | _ + 1, _, entries, [] => .ok (entries, [])
  | fuel + 1, path, entries, .assignment key value :: rest =>
    match add? entries (entry key (.value value)) with
    | some entries => tableFrom fuel path entries rest
    | none => .error .repeatedKey
  | fuel + 1, path, entries, .header inner ofList :: rest =>
    if isStrictPrefix path inner then do
      let (table, rest) ← tableFrom fuel inner [] rest
      match add? entries (headed ofList (inner.drop path.length) table) with
      | some entries => tableFrom fuel path entries rest
      | none => throw .repeatedKey
    else .ok (entries, .header inner ofList :: rest)

def documentFrom : (fuel : Nat) → Table → List Statement → Option Fault → Except Fault Table
  | 0, entries, _, _ => .ok entries
  | _ + 1, entries, [], fault =>
    match fault with
    | some fault => .error fault
    | none => .ok entries
  | fuel + 1, entries, .assignment key value :: rest, fault =>
    match add? entries (entry key (.value value)) with
    | some entries => documentFrom fuel entries rest fault
    | none => .error .invalid
  | fuel + 1, entries, .header path ofList :: rest, fault => do
    let (table, rest) ← tableFrom rest.length path [] rest
    if rest.isEmpty then
      if let some fault := fault then throw fault
    match add? entries (headed ofList path table) with
    | some entries => documentFrom fuel entries rest fault
    | none => throw .invalid

abbrev Parser := List Char → Except Fault Entries

def read : Parser := fun text =>
  let text := Text.normalizeBreaks text
  let (statements, fault) := statements (text.length + 1) text
  (documentFrom (statements.length + 1) [] statements fault).map valuesOf

end BookHighlight.Toml
