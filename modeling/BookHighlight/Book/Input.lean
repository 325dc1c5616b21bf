import BookHighlight.Json.Reader
import BookHighlight.Text.Encoding

namespace BookHighlight.Book

open Data

inductive Payload where
  | text (chars : List Char)
  | bytes (raw : List UInt8)

inductive LoadError where
  | malformed (details : String)
  | broken
  deriving DecidableEq, Repr

abbrev Loader := Payload → Except LoadError Value

inductive InputError where
  | broken
  | notJson (details : String)
  | notAPair
  deriving DecidableEq, Repr

def InputError.summary : InputError → String
  | .broken => ""
  | .notJson _ => "Preprocessor input is not valid JSON"
  | .notAPair => "Expected a JSON array of [context, book] from mdBook."

def InputError.message (e : InputError) : String :=
  match e with
  | .notJson details => e.summary ++ ": " ++ details
  | _ => e.summary

def readInput (loads : Loader) (payload : Payload) : Except InputError (Value × Value) :=
  match loads payload with
  | .ok (.list [.table context, .table book]) => .ok (.table context, .table book)
  | .ok _ => .error .notAPair
  | .error (.malformed details) => .error (.notJson details)
  | .error .broken => .error .broken

def loadError (text : List Char) (e : Json.Error) : LoadError :=
  if e.fault = .tooManyDigits then .broken else .malformed (e.message text)

/-- The JSON value in a payload. Only in bytes may a byte order mark stand in front. Values may be
    nested to any depth. -/
def load : Loader
  | .text chars => (Json.read chars).mapError (loadError chars)
  | .bytes raw =>
    match Text.decode? raw with
    | some chars => (Json.readAll chars).mapError (loadError chars)
    | none => .error .broken

end BookHighlight.Book
