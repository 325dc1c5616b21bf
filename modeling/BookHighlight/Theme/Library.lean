import BookHighlight.Theme.Palette
import BookHighlight.Theme.Reading

namespace BookHighlight

inductive Lookup (α : Type) where
  | absent
  | broken
  | found (a : α)
  deriving DecidableEq, Repr

namespace Theme

structure Library where
  /-- the theme file of a name, with what reading it comes to -/
  file : String → Lookup (Except Error Theme)
  /-- the palettes of another package -/
  palette : String → Lookup Palette

inductive LoadError where
  | refused (reason : Error)
  | broken

namespace Library

/-- The theme of a file or, if there is no file of that name, of a palette. -/
def load (library : Library) (name : String) : Except LoadError Theme :=
  match library.file name with
  | .found theme => theme.mapError .refused
  | .broken => .error .broken
  | .absent =>
    match library.palette name with
    | .found palette => .ok (palette.toTheme name)
    | .broken => .error .broken
    | .absent => .error (.refused (.unknown name))

end Library

end Theme

end BookHighlight
