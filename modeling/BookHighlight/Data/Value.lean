import BookHighlight.Number.Binary64

namespace BookHighlight.Data

inductive Key where
  | null
  | bool (b : Bool)
  | int (n : Int)
  | float (x : Binary64)
  | text (s : String)
  deriving DecidableEq, Repr, Inhabited

/-- A value of a data format. Tables keep the order of their entries; readers never give one key
    twice. -/
inductive Value where
  | null
  | bool (b : Bool)
  | int (n : Int)
  | float (x : Binary64)
  | text (s : String)
  | list (items : List Value)
  | table (entries : List (Key × Value))
  deriving Inhabited

abbrev Entries := List (Key × Value)

def Key.whole? : Key → Option Int
  | .bool b => some (if b then 1 else 0)
  | .int n => some n
  | _ => none

def Key.same : Key → Key → Bool
  | .text a, .text b => a == b
  | .null, .null => true
  | .float x, .float y => x.sameNumber y
  | .float x, k | k, .float x =>
    match k.whole? with
    | some n => x.isInt n
    | none => false
  | j, k =>
    match j.whole?, k.whole? with
    | some m, some n => m == n
    | _, _ => false

namespace Entries

def get? (entries : Entries) (key : Key) : Option Value :=
  (entries.find? fun entry => entry.1.same key).map (·.2)

def text? (entries : Entries) (name : String) : Option Value := get? entries (.text name)

def has (entries : Entries) (name : String) : Bool := (text? entries name).isSome

/-- Stores a value: in place under a key that is there already, at the end otherwise. -/
def put : Entries → Key → Value → Entries
  | [], key, value => [(key, value)]
  | entry :: rest, key, value =>
    if entry.1.same key then (entry.1, value) :: rest else entry :: put rest key value

def erase (entries : Entries) (name : String) : Entries :=
  entries.filter fun entry => !entry.1.same (.text name)

def keys (entries : Entries) : List Key := entries.map (·.1)

end Entries

namespace Value

def get? : Value → String → Option Value
  | .table entries, name => Entries.text? entries name
  | _, _ => none

def ofKey : Key → Value
  | .null => .null
  | .bool b => .bool b
  | .int n => .int n
  | .float x => .float x
  | .text s => .text s

def key? : Value → Option Key
  | .null => some .null
  | .bool b => some (.bool b)
  | .int n => some (.int n)
  | .float x => some (.float x)
  | .text s => some (.text s)
  | .list _ | .table _ => none

def isTruthy : Value → Bool
  | .null => false
  | .bool b => b
  | .int n => n != 0
  | .float x => !x.isZero
  | .text s => !s.isEmpty
  | .list items => !items.isEmpty
  | .table entries => !entries.isEmpty

def kind : Value → String
  | .null => "NoneType"
  | .bool _ => "bool"
  | .int _ => "int"
  | .float _ => "float"
  | .text _ => "str"
  | .list _ => "list"
  | .table _ => "dict"

mutual

def same : Value → Value → Bool
  | .list xs, .list ys => sameItems xs ys
  | .table xs, .table ys => xs.length == ys.length && sameEntries xs ys
  | v, w =>
    match v.key?, w.key? with
    | some j, some k => j.same k
    | _, _ => false

def sameItems : List Value → List Value → Bool
  | [], [] => true
  | x :: xs, y :: ys => x.same y && sameItems xs ys
  | _, _ => false

def sameEntries : Entries → Entries → Bool
  | [], _ => true
  | (key, value) :: rest, others =>
    (match Entries.get? others key with
      | some other => value.same other
      | none => false) && sameEntries rest others

end

instance : BEq Value := ⟨same⟩

end Value

end BookHighlight.Data
