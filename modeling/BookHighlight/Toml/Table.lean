import BookHighlight.Data.Value

namespace BookHighlight.Toml

open Data

inductive Origin where
  | header
  | implied
  | dotted
  deriving DecidableEq, Repr

inductive Node where
  | value (v : Value)
  | table (origin : Origin) (entries : List (String × Node))
  | tables (items : List Node)

abbrev Table := List (String × Node)

namespace Node

def under (origin : Origin) (path : List String) (node : Node) : Node :=
  path.foldr (fun name node => .table origin [(name, node)]) node

end Node

def replace (entries : Table) (name : String) (node : Node) : Table :=
  entries.map fun entry => if entry.1 == name then (name, node) else entry

mutual

/-- What two declarations of one name amount to, unless they conflict: tables are united, and
    lists of tables joined, but only one of the declarations may be a table's own header. -/
def Node.unite? (old : Node) : Node → Option Node
  | .value _ => none
  | .tables more =>
    match old with
    | .tables items => some (.tables (items ++ more))
    | _ => none
  | .table origin entries =>
    match old with
    | .table origin' entries' =>
      if origin = .header ∧ origin' ≠ .implied then none
      else
        (add? entries' entries).map
          (.table (if origin' = .implied ∨ origin = .header then origin else origin'))
    | _ => none

def add? (old : Table) : List (String × Node) → Option Table
  | [] => some old
  | (name, node) :: rest =>
    match old.lookup name with
    | none => add? (old ++ [(name, node)]) rest
    | some former =>
      match former.unite? node with
      | some node => add? (replace old name node) rest
      | none => none

end

mutual

def Node.toValue : Node → Value
  | .value v => v
  | .table _ entries => .table (valuesOf entries)
  | .tables items => .list (listOf items)

def valuesOf : List (String × Node) → Entries
  | [] => []
  | (name, node) :: rest => (.text name, node.toValue) :: valuesOf rest

def listOf : List Node → List Value
  | [] => []
  | node :: rest => node.toValue :: listOf rest

end

end BookHighlight.Toml
