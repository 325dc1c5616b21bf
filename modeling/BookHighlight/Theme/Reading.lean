import BookHighlight.Theme.Basic

namespace BookHighlight.Theme

open Data

inductive Error where
  | unknown (name : String)
  | unreadable (file : String)
  | notATable (file : String)
  | stylesNotATable (file : String)
  | invalidStyle (file : String) (selector : Key) (value : Value)

def Error.message : Error → String
  | .unknown name => "Unknown theme '" ++ name ++ "'"
  | .unreadable file => "Unable to parse theme file " ++ file
  | .notATable file => "Theme file " ++ file ++ " must contain a mapping."
  | .stylesNotATable file => "'styles' in " ++ file ++ " must be a mapping."
  | .invalidStyle file selector value =>
    "Invalid style at " ++ file ++ ":" ++ selector.plain ++ ": " ++ value.shown

def readStyle (file : String) (selector : Key) : Value → Except Error Style
  | .text name => .ok (.colour name)
  | .table fields =>
    let flag := fun name => (Entries.text? fields name).any Value.isTruthy
    .ok {
      foreground := (Entries.text? fields "foreground").getD .null
      bold := flag "bold"
      italic := flag "italic"
      underline := flag "underline" }
  | value => .error (.invalidStyle file selector value)

def putStyle (styles : List (String × Style)) (selector : String) (style : Style) :
    List (String × Style) :=
  if styles.any (·.1 == selector) then
    styles.map fun entry => if entry.1 == selector then (selector, style) else entry
  else styles ++ [(selector, style)]

def stem (file : String) : String :=
  let name := (file.toList.reverse.takeWhile (· != '/')).reverse
  let dotted := name.reverse.dropWhile (· != '.')
  let base := (dotted.drop 1).reverse
  if base.isEmpty || name.getLast? == some '.' then String.ofList name else String.ofList base

def ofValue (file : String) (value : Value) : Except Error Theme := do
  let fields ← match value with
    | .table fields => pure fields
    | value => if value.isTruthy then throw (.notATable file) else pure []
  let default ← match Entries.text? fields "default" with
    | some value => readStyle file (.text "default") value
    | none => pure (.colour pageForeground)
  let selectors ← match Entries.text? fields "styles" with
    | none => pure []
    | some (.table selectors) => pure selectors
    | some value => if value.isTruthy then throw (.stylesNotATable file) else pure []
  let styles ← selectors.mapM fun (selector, value) => do
    return (selector.plain, ← readStyle file selector value)
  let name := match Entries.text? fields "name" with
    | some value => value.plain
    | none => stem file
  return { name, default, styles := styles.foldl (fun done (s, style) => putStyle done s style) [] }

end BookHighlight.Theme
