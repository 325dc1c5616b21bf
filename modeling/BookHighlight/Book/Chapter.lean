import BookHighlight.Data.Misuse
import BookHighlight.Data.Path

namespace BookHighlight.Book

open Data

structure Chapter where
  path : List Step
  fields : Entries

def chapterFields? (item : Value) : Option Entries :=
  match item.get? "Chapter" with
  | some (.table fields) => some fields
  | _ => none

def partItems? (item : Value) : Option (List Value) :=
  match (item.get? "PartTitle").bind (·.get? "sub_items") with
  | some (.list items) => some items
  | _ => none

/-- The items under a chapter. Names and characters are no items, so tables and texts hold none. -/
def subItems (fields : Entries) : Except Misuse (List Value) :=
  match Entries.text? fields "sub_items" with
  | some (.list items) => .ok items
  | some value =>
    match value with
    | .table _ | .text _ => .ok []
    | _ => if value.isTruthy then .error .noItems else .ok []
  | none => .ok []

def placed (path : List Step) (items : List Value) : List (List Step × Value) :=
  items.zipIdx.map fun (item, index) => (path ++ [.item index], item)

mutual

def size : Value → Nat
  | .list items => 1 + sizeOfItems items
  | .table entries => 1 + sizeOfEntries entries
  | _ => 1

def sizeOfItems : List Value → Nat
  | [] => 0
  | item :: rest => size item + sizeOfItems rest

def sizeOfEntries : List (Key × Value) → Nat
  | [] => 0
  | (_, value) :: rest => size value + sizeOfEntries rest

end

/-- The chapters among items that are still to be visited, in their order: what lies under an item
    is visited right after it. Every step takes one item away and adds only values inside it, so
    the number of values is fuel enough. -/
def chaptersFrom : (fuel : Nat) → List (List Step × Value) → Except Misuse (List Chapter)
  | 0, _ => .ok []
  | _ + 1, [] => .ok []
  | fuel + 1, (path, item) :: rest =>
    match chapterFields? item with
    | some fields => do
      let path := path ++ [.entry "Chapter"]
      let under := placed (path ++ [.entry "sub_items"]) (← subItems fields)
      return ⟨path, fields⟩ :: (← chaptersFrom fuel (under ++ rest))
    | none =>
      match partItems? item with
      | some items =>
        chaptersFrom fuel (placed (path ++ [.entry "PartTitle", .entry "sub_items"]) items ++ rest)
      | none => chaptersFrom fuel rest

def items (book : Value) : List (List Step × Value) :=
  let under (name : String) : Option (List (List Step × Value)) :=
    match book.get? name with
    | some (.list items) => some (placed [.entry name] items)
    | _ => none
  (under "sections" <|> under "items").getD []

def chapters (book : Value) : Except Misuse (List Chapter) :=
  match book with
  | .table _ => chaptersFrom (size book) (items book)
  | _ => .error .noMember

namespace Chapter

def id (chapter : Chapter) (position : Nat) : String :=
  let named := ["source_path", "path", "name"].findSome? fun name =>
    match Entries.text? chapter.fields name with
    | some (.text s) => if s.isEmpty then none else some s
    | _ => none
  named.getD ("chapter #" ++ toString (position + 1))

def content (chapter : Chapter) : Except Misuse (List Char) :=
  match Entries.text? chapter.fields "content" with
  | some (.text s) => .ok s.toList
  | some value => if value.isTruthy then .error .noMember else .ok []
  | none => .ok []

def setContent (chapter : Chapter) (text : List Char) (book : Value) : Value :=
  Value.modifyAt (fun _ => .text (String.ofList text)) (chapter.path ++ [.entry "content"]) book

end Chapter

end BookHighlight.Book
