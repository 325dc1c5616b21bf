import BookHighlight.Data.Value

namespace BookHighlight.Data

inductive Step where
  | entry (name : String)
  | item (index : Nat)
  deriving DecidableEq, Repr

namespace Value

def at? : List Step → Value → Option Value
  | [], v => some v
  | .entry name :: path, v => (v.get? name).bind (at? path)
  | .item index :: path, .list items => items[index]?.bind (at? path)
  | .item _ :: _, _ => none

def modifyAt (f : Value → Value) : List Step → Value → Value
  | [], v => f v
  | .entry name :: path, .table entries =>
    .table (entries.map fun (key, value) =>
      (key, if key.same (.text name) then modifyAt f path value else value))
  | .item index :: path, .list items => .list (items.modify index (modifyAt f path))
  | _ :: _, v => v

end Value

end BookHighlight.Data
