import BookHighlight.Data.Value
import BookHighlight.Number.Layout
import BookHighlight.Text.Quoted

namespace BookHighlight.Json

open Data

def writtenChar (c : Char) : List Char :=
  if c = '"' then ['\\', '"']
  else if c = '\\' then ['\\', '\\']
  else if c = '\n' then ['\\', 'n']
  else if c = '\r' then ['\\', 'r']
  else if c = '\t' then ['\\', 't']
  else if c = '\x0c' then ['\\', 'f']
  else if c = '\x08' then ['\\', 'b']
  else if c.toNat < 0x20 then '\\' :: 'u' :: Text.hexDigits 4 c.toNat
  else [c]

def writtenText (s : String) : String :=
  String.ofList ('"' :: s.toList.flatMap writtenChar ++ ['"'])

def writtenKey : Key → String
  | .null => "\"null\""
  | .bool b => if b then "\"true\"" else "\"false\""
  | .int n => "\"" ++ toString n ++ "\""
  | .float x => "\"" ++ x.toJson ++ "\""
  | .text s => writtenText s

mutual

def write : Value → String
  | .null => "null"
  | .bool b => if b then "true" else "false"
  | .int n => toString n
  | .float x => x.toJson
  | .text s => writtenText s
  | .list items => "[" ++ ", ".intercalate (writtenItems items) ++ "]"
  | .table entries => "\x7b" ++ ", ".intercalate (writtenEntries entries) ++ "\x7d"

def writtenItems : List Value → List String
  | [] => []
  | item :: rest => write item :: writtenItems rest

def writtenEntries : List (Key × Value) → List String
  | [] => []
  | (key, value) :: rest => (writtenKey key ++ ": " ++ write value) :: writtenEntries rest

end

end BookHighlight.Json
