import BookHighlight.Text.Line
import BookHighlight.Yaml.Scalar
import BookHighlight.Yaml.Text

namespace BookHighlight.Yaml

open Data

def readScalar (flow : Bool) (limit : Nat) (s : Source) : Option (Value × Scalar) :=
  match s.rest with
  | '\'' :: rest => (singleFrom .none (s.column + 1) rest).map text
  | '"' :: rest => (doubleFrom .none (s.column + 1) rest).map text
  | rest =>
    if startsPlain flow rest then
      let scalar := plain flow limit s
      some (plainValue scalar.text, scalar)
    else none
where
  text (scalar : Scalar) : Value × Scalar := (.text (String.ofList scalar.text), scalar)

def putNew (entries : Entries) (key : Key) (value : Value) : Option Entries :=
  if (Entries.get? entries key).isSome then none else some (entries ++ [(key, value)])

/-- The text after the colon that makes a scalar just read a key: both are on one line. Between
    brackets `tight` says whether the colon may touch what follows. -/
def afterColon? (flow tight : Bool) (scalar : Scalar) : Option Source :=
  let s := scalar.after.skipSpaces flow
  match s.rest with
  | ':' :: rest =>
    if !scalar.spansLines && (tight || blankAhead rest) then some (s.drop 1) else none
  | _ => none

mutual

def readFlow : (fuel : Nat) → Source → Option (Value × Scalar)
  | 0, _ => none
  | fuel + 1, s =>
    match s.rest with
    | '[' :: _ => (readFlowItems fuel [] (s.drop 1)).map collection
    | '{' :: _ => (readFlowEntries fuel [] (s.drop 1)).map collection
    | _ => if s.atSeparator then none else readScalar true 0 s
where
  /-- A collection is no key: it counts as more than a line. -/
  collection : Value × Source → Value × Scalar := fun (value, after) => (value, ⟨[], true, after⟩)

def readFlowValue : (fuel : Nat) → Source → Option (Value × Source)
  | 0, _ => none
  | fuel + 1, s =>
    let (s, _) := s.skip true
    match s.rest with
    | ',' :: _ | ']' :: _ | '}' :: _ => some (.null, s)
    | _ => (readFlow fuel s).map fun (value, scalar) => (value, scalar.after)

def readFlowItems : (fuel : Nat) → (items : List Value) → Source → Option (Value × Source)
  | 0, _, _ => none
  | fuel + 1, items, s =>
    let (s, _) := s.skip true
    match s.rest with
    | ']' :: _ => some (.list items.reverse, s.drop 1)
    | _ => do
      let (value, scalar) ← readFlow fuel s
      let (item, s) ← match afterColon? true false scalar with
        | none => some (value, scalar.after)
        | some s => do
          let key ← value.key?
          let (value, s) ← readFlowValue fuel s
          some (.table [(key, value)], s)
      let (s, _) := s.skip true
      match s.rest with
      | ',' :: _ => readFlowItems fuel (item :: items) (s.drop 1)
      | ']' :: _ => some (.list (item :: items).reverse, s.drop 1)
      | _ => none

def readFlowEntries : (fuel : Nat) → Entries → Source → Option (Value × Source)
  | 0, _, _ => none
  | fuel + 1, entries, s =>
    let (s, _) := s.skip true
    match s.rest with
    | '}' :: _ => some (.table entries, s.drop 1)
    | c :: _ => do
      let (key, s) ←
        if c == ':' then some (Key.null, some (s.drop 1), s)
        else do
          let (value, scalar) ← readFlow fuel s
          let key ← value.key?
          some (key, afterColon? true true scalar, scalar.after)
      let (value, s) ← match s with
        | (none, s) => some (.null, s)
        | (some s, _) => readFlowValue fuel s
      let entries ← putNew entries key value
      let (s, _) := s.skip true
      match s.rest with
      | ',' :: _ => readFlowEntries fuel entries (s.drop 1)
      | '}' :: _ => some (.table entries, s.drop 1)
      | _ => none
    | [] => none

end

mutual

/-- Reads the node here, which is nothing unless it is indented by `limit` columns. `inKey` says
    that it is the value of a key, and then a list may have its dashes right below the key.
    `fresh` says that a list or a table may start on this line. -/
def readNode : (fuel limit : Nat) → (inKey fresh : Bool) → Source → Option (Value × Source)
  | 0, _, _, _, _ => none
  | fuel + 1, limit, inKey, fresh, s =>
    let (s, crossed) := s.skip false
    let fresh := fresh || crossed
    if s.atEnd then some (.null, s)
    else if inKey && s.atMark '-' && s.column + 1 == limit then readItems fuel s.column true [] s
    else if s.column < limit then some (.null, s)
    else if s.atMark '-' then if fresh then readItems fuel s.column false [] s else none
    else if s.atMark ':' then if fresh then readEntries fuel s.column [] s else none
    else
      match s.rest with
      | '[' :: _ | '{' :: _ => (readFlow fuel s).map fun (value, scalar) => (value, scalar.after)
      | _ => do
        let (value, scalar) ← readScalar false limit s
        match afterColon? false false scalar with
        | some _ => if fresh then readEntries fuel s.column [] s else none
        | none => some (value, scalar.after)

def readItems : (fuel column : Nat) → (belowKey : Bool) → (items : List Value) → Source →
    Option (Value × Source)
  | 0, _, _, _, _ => none
  | fuel + 1, column, belowKey, items, s => do
    let (item, s) ← readNode fuel (column + 1) false true (s.drop 1)
    let (s, _) := s.skip false
    let items := item :: items
    if s.atEnd || s.column < column then some (.list items.reverse, s)
    else if s.column == column && s.atMark '-' then readItems fuel column belowKey items s
    else if s.column == column && belowKey then some (.list items.reverse, s)
    else none

def readEntries : (fuel column : Nat) → Entries → Source → Option (Value × Source)
  | 0, _, _, _ => none
  | fuel + 1, column, entries, s => do
    let (key, s) ←
      if s.atMark ':' then some (Key.null, s.drop 1)
      else do
        let (value, scalar) ← readScalar false (column + 1) s
        some (← value.key?, ← afterColon? false false scalar)
    let (value, s) ← readNode fuel (column + 1) true false s
    let entries ← putNew entries key value
    let (s, _) := s.skip false
    if s.atEnd || s.column < column then some (.table entries, s)
    else if s.column == column && !s.atMark '-' then readEntries fuel column entries s
    else none

end

def isOver : (fuel : Nat) → Source → Bool
  | 0, _ => false
  | fuel + 1, s =>
    let (s, _) := s.skip false
    s.rest.isEmpty || (s.column == 0 && isSeparator '.' s.rest && isOver fuel (s.drop 3))

def read? (text : List Char) : Option Value :=
  let text := Text.normalizeBreaks (if text.head? == some '\ufeff' then text.tail else text)
  if text.any isForbidden then none
  else do
    let fuel := 4 * text.length + 4
    let (s, _) := Source.skip false ⟨0, text⟩
    let marked := s.column == 0 && isSeparator '-' s.rest
    let (value, s) ← if marked then readNode fuel 0 false false (s.drop 3)
      else if s.atSeparator then none
      else readNode fuel 0 false true s
    if isOver fuel s then some value else none

end BookHighlight.Yaml
