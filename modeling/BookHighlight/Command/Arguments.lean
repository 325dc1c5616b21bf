import BookHighlight.Command.Path

namespace BookHighlight

structure DocumentTask where
  source : String
  /-- the book configuration that holds the options -/
  config : Option String
  /-- the file for the result, which is printed otherwise -/
  output : Option String
  render : Option Bool
  theme : Option String
  deriving DecidableEq, Repr

inductive Command where
  | preprocess
  | supports (renderer : String)
  | document (task : DocumentTask)
  | themes
  deriving DecidableEq, Repr

namespace Command

structure Parameter where
  name : String
  /-- whether it is a switch, which takes no value -/
  isSwitch : Bool := false

structure Given where
  values : List (String × String)
  others : List String

def isOption (word : String) : Bool := word.toList.head? == some '-'

def splitOption (word : String) : Option (String × Option String) :=
  match word.toList with
  | '-' :: '-' :: rest =>
    let name := rest.takeWhile (· != '=')
    let value := match rest.drop name.length with
      | [] => none
      | _ :: value => some (String.ofList value)
    some (String.ofList name, value)
  | _ => none

def truthOf? (word : String) : Option Bool :=
  let word := word.toList.map Char.toLower
  if ["yes", "y", "1", "true", "t"].any (·.toList == word) then some true
  else if ["no", "n", "0", "false", "f"].any (·.toList == word) then some false
  else none

def truthText (b : Bool) : String := if b then "true" else "false"

/-- Sorts arguments into the values of options and the rest. Each option may be given once; all
    that follows two bare dashes is no option. -/
def sortArguments (parameters : List Parameter) (given : Given) : List String → Option Given
  | [] => some given
  | "--" :: rest => some { given with others := given.others ++ rest }
  | word :: rest =>
    if !isOption word then
      sortArguments parameters { given with others := given.others ++ [word] } rest
    else do
      let (name, value) ← splitOption word
      let isNew := fun (name : String) => !given.values.any (·.1 == name)
      let set := fun (name value : String) =>
        ({ given with values := given.values ++ [(name, value)] } : Given)
      match parameters.find? (·.name == name) with
      | some parameter =>
        if !isNew name then none
        else if parameter.isSwitch then
          let truth ← truthOf? (value.getD "true")
          sortArguments parameters (set name (truthText truth)) rest
        else
          match value, rest with
          | some value, rest => sortArguments parameters (set name value) rest
          | none, value :: rest =>
            if isOption value then none else sortArguments parameters (set name value) rest
          | none, [] => none
      | none =>
        let negated := parameters.find? fun p => p.isSwitch && name == "no-" ++ p.name
        match negated with
        | some parameter =>
          if !isNew parameter.name then none
          else
            let truth ← truthOf? (value.getD "true")
            sortArguments parameters (set parameter.name (truthText !truth)) rest
        | none => none

def variableName (option : String) : String :=
  "TYPST_HIGHLIGHT_" ++ String.ofList (option.toList.map Char.toUpper)

def options? (parameters : List Parameter) (environment : String → Option String)
    (arguments : List String) : Option (String → Option String) := do
  let given ← sortArguments parameters ⟨[], []⟩ arguments
  let values ← match given.others, parameters with
    | [], _ => some given.values
    | [word], first :: _ =>
      if given.values.any (·.1 == first.name) then none
      else some ((first.name, word) :: given.values)
    | _, _ => none
  return fun name => values.lookup name <|> environment (variableName name)

def ofArguments? (environment : String → Option String) : List String → Option Command
  | [] => some .preprocess
  | "supports" :: rest => do
    let value ← options? [⟨"renderer", false⟩] environment rest
    return .supports (← value "renderer")
  | "process" :: rest => do
    let value ← options?
      [⟨"source", false⟩, ⟨"config", false⟩, ⟨"output", false⟩, ⟨"render", true⟩, ⟨"theme", false⟩]
      environment rest
    let render ← match value "render" with
      | some word => (truthOf? word).map some
      | none => some none
    return .document {
      source := normalPath (← value "source")
      config := (value "config").map normalPath
      output := (value "output").map normalPath
      render
      theme := value "theme" }
  | "themes" :: rest => if rest.isEmpty then some .themes else none
  | _ => none

def inputs : Command → List String
  | .document task => task.source :: task.config.toList
  | _ => []

end Command

end BookHighlight
