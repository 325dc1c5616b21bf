import BookHighlight.Compiler.Basic
import BookHighlight.Compiler.Registry
import BookHighlight.Config.Basic
import BookHighlight.Number.Layout
import BookHighlight.Text.Blank
import BookHighlight.Text.Line
import BookHighlight.Text.Utf8

namespace BookHighlight

structure Renderer where
  binary : String := standardBinary
  timeout : Binary64 := standardTimeout
  prelude : List Char := standardPrelude.toList

inductive RenderFailure where
  | notFound
  | noWorkspace (reason : String)
  | notStarted (reason : String)
  | timedOut
  | exited (status : Int) (excerpt : List Char)
  | noOutput
  | unreadableOutput (reason : String)
  | emptyOutput
  deriving DecidableEq, Repr

inductive Disruption where
  | interrupt
  /-- the time limit is too long for the wait -/
  | overflow
  /-- the document holds what no file can hold -/
  | encoding
  deriving DecidableEq, Repr

inductive RenderResult where
  | image (bytes : List UInt8)
  | failed (failure : RenderFailure)
  | raised (disruption : Disruption)
  deriving DecidableEq, Repr

/-- The compilations so far: the processes, the number that were started, and the documents that
    were compiled, newest first. -/
structure Workshop where
  supervision : Compiler.Supervision Nat
  started : Nat
  compiled : List (List Char)

namespace Workshop

def empty : Workshop := ⟨.empty, 0, []⟩

def busy (n : Nat) : Workshop :=
  ⟨(List.range n).foldl Compiler.Supervision.add .empty, n, []⟩

end Workshop

def stderrExcerpt (stderr : List UInt8) : List Char :=
  let lines := Text.brokenLines (Text.trim (Text.ofUtf8Lossy stderr))
  let shown := (lines.take 5).filter fun line => !Text.isBlankText line.body
  (shown.map fun line => Text.trim line.body).intersperse " | ".toList |>.flatten

def isBlankByte (b : UInt8) : Bool := b == 0x20 || (0x09 ≤ b && b ≤ 0x0D)

def Artifact.read : Artifact → RenderResult
  | .missing => .failed .noOutput
  | .unreadable reason => .failed (.unreadableOutput reason)
  | .file bytes => if bytes.all isBlankByte then .failed .emptyOutput else .image bytes

namespace RenderFailure

def reason (renderer : Renderer) : RenderFailure → String
  | .notFound => "'" ++ renderer.binary ++ "' executable not found on PATH"
  | .noWorkspace reason => "temporary files unavailable: " ++ reason
  | .notStarted reason => "could not start '" ++ renderer.binary ++ "': " ++ reason
  | .timedOut =>
    "'" ++ renderer.binary ++ "' timed out after " ++ renderer.timeout.toDuration ++ " seconds"
  | .exited status excerpt =>
    "'" ++ renderer.binary ++ "' exited with status " ++ toString status ++
      (if excerpt.isEmpty then "" else ": " ++ String.ofList excerpt)
  | .noOutput => "compiler exited successfully but wrote no output"
  | .unreadableOutput reason => "could not read compiler output: " ++ reason
  | .emptyOutput => "compiler produced an empty output file"

end RenderFailure

namespace Renderer

def compose (renderer : Renderer) (source : List Char) (usePrelude : Bool) : List Char :=
  if !usePrelude then source
  else
    let prelude := renderer.prelude
    if prelude.isEmpty || prelude.getLast? == some '\n' then prelude ++ source
    else prelude ++ '\n' :: source

/-- What a process that was started yields, and what has become of it. However it goes, the
    process is made to end and is no longer tracked. -/
def await (process : Nat) (s : Compiler.Supervision Nat) (response : Response) :
    RenderResult × Compiler.Supervision Nat :=
  let s := s.add process
  let finish := fun (s : Compiler.Supervision Nat) => (s.kill process).discard process
  match response with
  | .notStarted reason => (.failed (.notStarted reason), finish s)
  | .timedOut none => (.failed .timedOut, finish (s.kill process))
  | .timedOut (some _) => (.failed .timedOut, finish ((s.exit process).kill process))
  | .interrupted => (.raised .interrupt, finish s)
  | .overflow => (.raised .overflow, finish s)
  | .exited status stderr artifact =>
    let result := if status = 0 then artifact.read
      else .failed (.exited status (stderrExcerpt stderr))
    (result, finish (s.exit process))

def render (renderer : Renderer) (compiler : Compiler) (workshop : Workshop) (source : List Char)
    (usePrelude : Bool) : RenderResult × Workshop :=
  if !compiler.found then (.failed .notFound, workshop)
  else
    match compiler.workspaceError with
    | some reason => (.failed (.noWorkspace reason), workshop)
    | none =>
      let document := renderer.compose source usePrelude
      if !compiler.writes document then (.raised .encoding, workshop)
      else
        let response := compiler.respond renderer.timeout workshop.compiled document
        let workshop := { workshop with compiled := document :: workshop.compiled }
        match response with
        | .notStarted reason => (.failed (.notStarted reason), workshop)
        | response =>
          let (result, supervision) := await workshop.started workshop.supervision response
          (result, { workshop with supervision, started := workshop.started + 1 })

end Renderer

end BookHighlight
