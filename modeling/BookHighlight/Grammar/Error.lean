import BookHighlight.Data.Misuse
import BookHighlight.Data.Shown

namespace BookHighlight.Grammar

open Data

inductive Defect where
  | unreadable (file : String)
  | notATable (file : String)
  | noMainContext
  | contextNotAList (context : String)
  | metaScopeNotText (context : String)
  | includeCycle (trail : List String)
  | unknownContext (name : String)
  | unsupportedRule (context : String) (entry : Value)
  | unknownKeys (context : String) (keys : List Key)
  | variableCycle (trail : List String)
  | unknownVariable (name : String)
  | unknownVariableIn (context name : String)
  | invalidPattern (context : String) (source : String)
  | scopeNotText (context : String)
  | unknownTarget (context : String) (target : Value)

private def arrows (trail : List String) : String := " -> ".intercalate trail

def Defect.message : Defect → String
  | .unreadable file => "Unable to parse grammar file " ++ file
  | .notATable file => "Grammar file " ++ file ++ " must contain a mapping."
  | .noMainContext => "Grammar must define a 'contexts' mapping with a 'main' context."
  | .contextNotAList context => "Context '" ++ context ++ "' must be a list of rules."
  | .metaScopeNotText context => "meta_scope of context '" ++ context ++ "' must be a string."
  | .includeCycle trail => "Include cycle: " ++ arrows trail
  | .unknownContext name => "Unknown context '" ++ name ++ "'"
  | .unsupportedRule context entry =>
    "Unsupported rule in context '" ++ context ++ "': " ++ entry.shown
  | .unknownKeys context keys =>
    "Unknown keys " ++ (Value.list (keys.map Value.ofKey)).shown ++ " in context '" ++ context ++
      "'"
  | .variableCycle trail => "Variable cycle: " ++ arrows trail
  | .unknownVariable name => "Unknown variable '" ++ name ++ "'"
  | .unknownVariableIn context name =>
    "Unknown variable '" ++ name ++ "' in context '" ++ context ++ "'"
  | .invalidPattern context source =>
    "Invalid pattern " ++ shownText source ++ " in context '" ++ context ++ "'"
  | .scopeNotText context => "Scope in context '" ++ context ++ "' must be a string."
  | .unknownTarget context target =>
    "Unknown push/set target " ++ target.shown ++ " in context '" ++ context ++ "'"

inductive Error where
  | defect (defect : Defect)
  | misuse (misuse : Misuse)
  | missingFile (file : String)
  /-- compiling the text of a pattern broke down -/
  | brokenPattern (source : String)

/-- The error for a chain of names that comes back to one of its own. Only texts can be told. -/
def Error.cycle (defect : List String → Defect) (trail : List Key) : Error :=
  match trail.mapM fun | .text name => some name | _ => none with
  | some names => .defect (defect names)
  | none => .misuse .noItems

def Error.message? : Error → Option String
  | .defect d => some d.message
  | .misuse _ | .brokenPattern _ => none
  | .missingFile file => some ("Grammar file '" ++ file ++ "' not found.")

end BookHighlight.Grammar
