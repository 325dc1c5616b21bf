import BookHighlight.Book.Chapter
import BookHighlight.Book.Input
import BookHighlight.Config.Reading
import BookHighlight.Json.Writer
import BookHighlight.Theme.Library
import BookHighlight.Transform.Document

namespace BookHighlight

open Data

namespace Transformer

def ofConfig (themes : Theme.Library) (compiler : Compiler) (config : Config) :
    Except Config.Error Transformer :=
  match themes.load config.theme with
  | .ok theme => .ok { config, theme, compiler }
  | .error (.refused reason) => .error (.defect (.noTheme reason))
  | .error .broken => .error .brokenTheme

end Transformer

namespace Preprocessor

inductive Failure where
  | input (error : Book.InputError)
  | configuration (error : Config.Error)
  | misuse (misuse : Misuse)
  | interrupted (interruption : Interruption)

structure State where
  book : Value
  log : List LogLine
  workshop : Workshop

/-- A run keeps what it has changed when it fails. -/
abbrev Run := EStateM Failure State

abbrev Report := List (String × Outcome)

def record (lines : List LogLine) : Run Unit := modify fun s => { s with log := s.log ++ lines }

def attempt {α : Type} : Except Misuse α → Run α
  | .ok a => return a
  | .error m => throw (.misuse m)

def configure {α : Type} (reader : Config.Reader α) : Run α := do
  let (result, log) := Config.run reader
  record log
  match result with
  | .ok a => return a
  | .error e => throw (.configuration e)

structure Page where
  chapter : Book.Chapter
  label : String
  content : List Char
  constructs : List Markdown.Construct

def pages (book : Value) : Except Misuse (List Page) := do
  let chapters ← Book.chapters book
  chapters.zipIdx.mapM fun (chapter, position) => do
    let content ← chapter.content
    return { chapter, label := chapter.id position, content,
             constructs := Markdown.constructs content }

def process (t : Transformer) (constructs : List Markdown.Construct) : Run (List Outcome) := do
  let (result, workshop) := t.processOrStop (← get).workshop constructs
  modify fun s => { s with workshop }
  match result with
  | .ok outcomes => return outcomes
  | .error i =>
    record i.log
    throw (.interrupted i)

def fill : List Page → List Outcome → Run Report
  | [], _ => return []
  | page :: rest, outcomes => do
    if page.constructs.isEmpty then fill rest outcomes
    else
      let (here, later) := outcomes.splitAt page.constructs.length
      record (failureLog page.label page.content here)
      let text := splice page.content (editsOf here)
      modify fun s => { s with book := page.chapter.setContent text s.book }
      return here.map (page.label, ·) ++ (← fill rest later)

/-- Transforms all chapters of the book. Nothing is written before everything is processed. -/
def transformBook (t : Transformer) : Run Report := do
  let pages ← attempt (pages (← get).book)
  fill pages (← process t (pages.flatMap (·.constructs)))

def count (report : Report) (state : BookHighlight.State) : Nat :=
  report.countP fun entry => entry.2.state == state

def runWith (themes : Theme.Library) (compiler : Compiler) (reader : Config.Reader Config) :
    Run Report := do
  let config ← configure reader
  match Transformer.ofConfig themes compiler config with
  | .error e => throw (.configuration e)
  | .ok t =>
    let report ← transformBook t
    let number := fun state => toString (count report state)
    record [⟨.info, .preprocessor,
      Config.preprocessorName ++ ": " ++ number .highlighted ++ " highlighted, " ++
        number .rendered ++ " rendered, " ++ number .renderFailed ++ " render failures"⟩]
    return report

def start (book : Value) : State := ⟨book, [], .empty⟩

def run (loads : Book.Loader) (themes : Theme.Library) (processors : Option Nat)
    (compiler : Compiler) (payload : Book.Payload) : Except Failure String × List LogLine :=
  match Book.readInput loads payload with
  | .error e => (.error (.input e), [])
  | .ok (context, book) =>
    match (runWith themes compiler (Config.ofContext processors context)).run (start book) with
    | .ok _ s => (.ok (Json.write s.book), s.log)
    | .error e s => (.error e, s.log)

def supports (renderer : String) : Bool := renderer == "html"

end Preprocessor

end BookHighlight
