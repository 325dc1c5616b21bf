import BookHighlight.Number.Binary64
import BookHighlight.Text.Surrogate

namespace BookHighlight

inductive Artifact where
  | missing
  | unreadable (reason : String)
  | file (bytes : List UInt8)
  deriving DecidableEq, Repr

/-- What comes of the start of a process and the wait for it. -/
inductive Response where
  | notStarted (reason : String)
  /-- the wait is over before the error output is, although the process may have ended -/
  | timedOut (ended : Option Int)
  | interrupted
  /-- the time limit is too long for the wait -/
  | overflow
  | exited (status : Int) (stderr : List UInt8) (artifact : Artifact)
  deriving DecidableEq, Repr

/-- An external compiler, as far as its user can tell. -/
structure Compiler where
  found : Bool
  /-- why no temporary directory can be made, if none can -/
  workspaceError : Option String := none
  /-- whether a document can be written to a file -/
  writes : List Char → Bool := Text.isWritable
  /-- the response to a document, given the time limit and the documents compiled before it, newest
      first -/
  respond : (limit : Binary64) → (earlier : List (List Char)) → (document : List Char) → Response

namespace Compiler

def absent : Compiler where
  found := false
  respond _ _ _ := .timedOut none

structure Rule where
  contains : List Char
  /-- the response, given the document -/
  response : List Char → Response

def holds (text : List Char) : List Char → Bool
  | [] => text.isEmpty
  | c :: rest => text.isPrefixOf (c :: rest) || holds text rest

def scripted (rules : List Rule) (otherwise : List Char → Response) (_limit : Binary64)
    (_earlier : List (List Char)) (document : List Char) : Response :=
  match rules.find? fun rule => holds rule.contains document with
  | some rule => rule.response document
  | none => otherwise document

end Compiler

end BookHighlight
