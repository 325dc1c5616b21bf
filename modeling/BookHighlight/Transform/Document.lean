import BookHighlight.Transform.Outcome
import BookHighlight.Transform.Splice

namespace BookHighlight

open Markdown (Construct)

structure Interruption where
  cause : Disruption
  killed : Nat
  deriving DecidableEq, Repr

def Interruption.log (i : Interruption) : List LogLine :=
  if i.killed = 0 then []
  else [.warning .transformer
    ("Interrupted; killed " ++ toString i.killed ++ " running typst process(es)")]

def editsOf (outcomes : List Outcome) : List Edit :=
  outcomes.filterMap fun o =>
    o.treatment.replacement?.map fun text => ⟨o.construct.start, o.construct.stop, text⟩

def lineNumber (content : List Char) (offset : Nat) : Nat := (content.take offset).count '\n' + 1

def failureLog (chapter : String) (content : List Char) (outcomes : List Outcome) :
    List LogLine :=
  outcomes.filterMap fun o =>
    o.treatment.reason?.map fun reason => .warning .transformer
      ("Failed to render Typst block in " ++ (if chapter.isEmpty then "<input>" else chapter) ++
        " at line " ++ toString (lineNumber content o.construct.start) ++ ": " ++ reason)

structure Transformed where
  text : List Char
  outcomes : List Outcome
  log : List LogLine

namespace Transformer

/-- Processes all pieces of code. If that is broken off, every process that is still running is
    killed. -/
def processOrStop (t : Transformer) (workshop : Workshop) (constructs : List Construct) :
    Except Interruption (List Outcome) × Workshop :=
  match t.processAll workshop constructs with
  | (.ok outcomes, workshop) => (.ok outcomes, workshop)
  | (.error cause, workshop) =>
    let (supervision, killed) := workshop.supervision.terminateAll
    (.error ⟨cause, killed⟩, { workshop with supervision })

def transform (t : Transformer) (workshop : Workshop) (content : List Char) (chapter : String) :
    Except Interruption Transformed × Workshop :=
  match t.processOrStop workshop (Markdown.constructs content) with
  | (.error i, workshop) => (.error i, workshop)
  | (.ok outcomes, workshop) =>
    (.ok {
      text := splice content (editsOf outcomes)
      outcomes
      log := failureLog chapter content outcomes }, workshop)

end Transformer

end BookHighlight
