import BookHighlight.Text.Word

namespace BookHighlight.Grammar

inductive Piece where
  | char (c : Char)
  | variable (name : String)
  deriving DecidableEq, Repr

def reference? : List Char → Option (String × Nat)
  | '{' :: '{' :: rest =>
    let name := rest.takeWhile Text.isWord
    match rest.drop name.length with
    | '}' :: '}' :: _ => if name.isEmpty then none else some (String.ofList name, name.length + 4)
    | _ => none
  | _ => none

/-- The pieces of a text; `skip` characters at the front belong to a variable already read. -/
def piecesFrom : (skip : Nat) → List Char → List Piece
  | _, [] => []
  | skip + 1, _ :: rest => piecesFrom skip rest
  | 0, c :: rest =>
    match reference? (c :: rest) with
    | some (name, width) => .variable name :: piecesFrom (width - 1) rest
    | none => .char c :: piecesFrom 0 rest

def pieces (s : List Char) : List Piece := piecesFrom 0 s

section

variable {m : Type → Type} [Monad m] (value : String → m (List Char))

def fill : List Piece → m (List Char)
  | [] => pure []
  | .char c :: rest => do return c :: (← fill rest)
  | .variable name :: rest => do
    let first ← value name
    let later ← fill rest
    return first ++ later

def substitute (s : List Char) : m (List Char) := fill value (pieces s)

end

end BookHighlight.Grammar
