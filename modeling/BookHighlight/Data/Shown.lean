import BookHighlight.Data.Value
import BookHighlight.Number.Layout
import BookHighlight.Text.Quoted

namespace BookHighlight.Data

def shownText (s : String) : String := String.ofList (Text.quoted s.toList)

def Key.shown : Key → String
  | .null => "None"
  | .bool b => if b then "True" else "False"
  | .int n => toString n
  | .float x => x.toMessage
  | .text s => shownText s

namespace Value

mutual

def shown : Value → String
  | .list items => "[" ++ ", ".intercalate (shownItems items) ++ "]"
  | .table entries => "\x7b" ++ ", ".intercalate (shownEntries entries) ++ "\x7d"
  | .null => Key.null.shown
  | .bool b => (Key.bool b).shown
  | .int n => (Key.int n).shown
  | .float x => (Key.float x).shown
  | .text s => (Key.text s).shown

def shownItems : List Value → List String
  | [] => []
  | item :: rest => item.shown :: shownItems rest

def shownEntries : List (Key × Value) → List String
  | [] => []
  | (key, value) :: rest => (key.shown ++ ": " ++ value.shown) :: shownEntries rest

end

def plain : Value → String
  | .text s => s
  | v => v.shown

end Value

def Key.plain : Key → String
  | .text s => s
  | k => k.shown

end BookHighlight.Data
