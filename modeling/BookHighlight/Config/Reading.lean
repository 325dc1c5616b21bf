import BookHighlight.Config.Basic
import BookHighlight.Data.Misuse
import BookHighlight.Data.Shown
import BookHighlight.Log
import BookHighlight.Text.Blank
import BookHighlight.Theme.Reading

namespace BookHighlight.Config

open Data

inductive Defect where
  | notATable (place : String) (value : Value)
  | notText (key : String) (value : Value)
  | notBoolean (key : String) (value : Value)
  | emptyText (key : String) (value : Value)
  | notPositive (key : String) (value : Value)
  | notPositiveInteger (key : String) (value : Value)
  | noTheme (reason : Theme.Error)
  | unreadable (file : String)

def Defect.message : Defect → String
  | .notATable place value => "Expected a table at " ++ place ++ ", got " ++ value.kind
  | .notText key value => expected key "a string" value
  | .notBoolean key value => expected key "a boolean" value
  | .emptyText key value => expected key "a non-empty string" value
  | .notPositive key value => expected key "a positive number" value
  | .notPositiveInteger key value => expected key "a positive integer" value
  | .noTheme reason => "Incorrect argument at theme: " ++ reason.message
  | .unreadable file => "Unable to parse book configuration at " ++ file
where
  expected (key what : String) (value : Value) : String :=
    "Incorrect argument at " ++ key ++ ": expected " ++ what ++ ", got " ++ value.shown

inductive Error where
  | defect (defect : Defect)
  | misuse (misuse : Misuse)
  /-- a whole number of seconds beyond the largest double -/
  | timeoutTooLarge
  | missingFile (file : String)
  /-- a key given twice in one table of a configuration file -/
  | repeatedKey
  /-- looking for the theme broke down -/
  | brokenTheme

def Error.message? : Error → Option String
  | .defect d => some d.message
  | .missingFile file => some ("Configuration file '" ++ file ++ "' not found.")
  | .misuse _ | .timeoutTooLarge | .repeatedKey | .brokenTheme => none

/-- Reading a configuration leaves warnings behind, also when it fails. -/
abbrev Reader := EStateM Error (List LogLine)

def warn (message : String) : Reader Unit :=
  modify (· ++ [.warning .configuration message])

def fail {α : Type} (defect : Defect) : Reader α := throw (.defect defect)

def tableAt (place : String) : Option Value → Reader Entries
  | none | some .null => return []
  | some (.table entries) => return entries
  | some value => fail (.notATable place value)

section

variable (entries : Entries) (key : String)

def boolean (absent : Bool) : Reader Bool :=
  match Entries.text? entries key with
  | none => return absent
  | some (.bool b) => return b
  | some value => fail (.notBoolean key value)

def string (absent : String) : Reader String :=
  match Entries.text? entries key with
  | none => return absent
  | some (.text s) => return s
  | some value => fail (.notText key value)

def filledString (absent : String) : Reader String :=
  match Entries.text? entries key with
  | none => return absent
  | some (.text s) =>
    if Text.isBlankText s.toList then fail (.emptyText key (.text s)) else return s
  | some value => fail (.emptyText key value)

def positiveNumber (absent : Binary64) : Reader Binary64 :=
  match Entries.text? entries key with
  | none => return absent
  | some (.float x) => if x.isPositive then return x else fail (.notPositive key (.float x))
  | some (.int n) =>
    if 0 < n then
      match Binary64.ofInt? n with
      | some x => return x
      | none => throw .timeoutTooLarge
    else fail (.notPositive key (.int n))
  | some value => fail (.notPositive key value)

def positiveInteger (absent : Nat) : Reader Nat :=
  match Entries.text? entries key with
  | none => return absent
  | some (.int n) => if 0 < n then return n.toNat else fail (.notPositiveInteger key (.int n))
  | some value => fail (.notPositiveInteger key value)

end

def preprocessorName : String := "typst-highlight"

def ownKeys : List String :=
  ["disable_inline", "typst_default", "render", "theme", "typst_binary", "timeout", "jobs",
    "prelude"]

def bookKeys : List String := ["command", "renderers", "before", "after", "optional"]

def renameFormer (entries : Entries) : Reader Entries := do
  match Entries.text? entries "highlight_without_lang" with
  | none => return entries
  | some value =>
    warn "'highlight_without_lang' is deprecated; use 'typst_default' instead"
    let entries := if Entries.has entries "typst_default" then entries
      else Entries.put entries (.text "typst_default") value
    return Entries.erase entries "highlight_without_lang"

def unknownKeys (entries : Entries) : List String :=
  let unknown := ((Entries.keys entries).map Key.plain).filter fun key =>
    !(ownKeys.contains key || bookKeys.contains key)
  unknown.mergeSort fun a b => a < b || a == b

def ofEntries (processors : Option Nat) (entries : Entries) : Reader Config := do
  let entries ← renameFormer entries
  (unknownKeys entries).forM fun key =>
    warn ("Ignoring unknown option '" ++ key ++ "' for " ++ preprocessorName)
  let standard := Config.standard processors
  let prelude ← string entries "prelude" standard.prelude
  let disableInline ← boolean entries "disable_inline" standard.disableInline
  let typstDefault ← boolean entries "typst_default" standard.typstDefault
  let render ← boolean entries "render" standard.render
  let theme ← filledString entries "theme" standard.theme
  let typstBinary ← filledString entries "typst_binary" standard.typstBinary
  let timeout ← positiveNumber entries "timeout" standard.timeout
  let jobs ← positiveInteger entries "jobs" standard.jobs
  return { disableInline, typstDefault, render, theme, typstBinary, timeout, jobs, prelude }

def ofOptions (processors : Option Nat) (options : Value) : Reader Config := do
  ofEntries processors (← tableAt ("preprocessor." ++ preprocessorName) (some options))

def ofBook (processors : Option Nat) (book : Entries) : Reader Config := do
  let preprocessors ← tableAt "preprocessor" (Entries.text? book "preprocessor")
  let options ← tableAt ("preprocessor." ++ preprocessorName)
    (Entries.text? preprocessors preprocessorName)
  ofEntries processors options

def ofContext (processors : Option Nat) : Value → Reader Config
  | .table context => do
    ofBook processors (← tableAt "context.config" (Entries.text? context "config"))
  | _ => throw (.misuse .noMember)

def run {α : Type} (reader : Reader α) : Except Error α × List LogLine :=
  match reader.run [] with
  | .ok result log => (.ok result, log)
  | .error e log => (.error e, log)

end BookHighlight.Config
