import BookHighlight.Grammar.Error
import BookHighlight.Grammar.Template

namespace BookHighlight.Grammar

open Data

abbrev Definitions := List (Key × Except Error String)

abbrev Values := List (Key × List Char)

def Values.get? (values : Values) (name : Key) : Option (List Char) :=
  (values.find? (·.1.same name)).map (·.2)

def itemAt? (items : List Value) (key : Key) : Option Value := do
  let n ← key.whole?
  let place := if n < 0 then n + items.length else n
  if place < 0 then none else items[place.toNat]?

/-- Variables as they are written. The items of a list are taken for names, and what is written for
    such a name is the item at that place. -/
def definitionsOf : Value → Except Error Definitions
  | .table entries => .ok (entries.map fun (name, value) => (name, .ok value.plain))
  | .list items => .ok (items.map fun item =>
    match item.key? with
    | some key =>
      match itemAt? items key with
      | some value => (key, .ok value.plain)
      | none => (key, .error (.misuse .noItems))
    | none => (.null, .error (.misuse .noItems)))
  | _ => .error (.misuse .noItems)

/-- Finds the value of a variable, with the variables inside it replaced in turn, and keeps it for
    the next time. `trail` names those being replaced; as no name comes twice in it, one step of
    depth per variable is enough. -/
def resolve (definitions : Definitions) :
    (depth : Nat) → (trail : List Key) → Key → Except Error String →
      StateT Values (Except Error) (List Char)
  | 0, trail, name, _ => throw (.cycle .variableCycle (trail ++ [name]))
  | depth + 1, trail, name, written => do
    match (← get).get? name with
    | some value => return value
    | none =>
      if trail.any name.same then throw (.cycle .variableCycle (trail ++ [name]))
      else do
        let text ← written
        let value ← substitute (fun inner =>
          match definitions.find? (·.1.same (.text inner)) with
          | some (_, written) => resolve definitions depth (trail ++ [name]) (.text inner) written
          | none => throw (.defect (.unknownVariable inner))) text.toList
        modify (· ++ [(name, value)])
        return value

def findValue (definitions : Definitions) (depth : Nat) (values : Values)
    (definition : Key × Except Error String) : Except Error Values :=
  ((resolve definitions depth [] definition.1 definition.2).run values).map (·.2)

def expandWithin (definitions : Definitions) (depth : Nat) : Except Error Values :=
  definitions.foldlM (findValue definitions depth) []

def expandVariables (written : Value) : Except Error Values := do
  let definitions ← definitionsOf written
  expandWithin definitions (definitions.length + 1)

end BookHighlight.Grammar
