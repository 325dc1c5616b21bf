import BookHighlight.Theme.Reading
import BookHighlight.Yaml.Node

namespace BookHighlight.Theme

def ofFile (file : String) (text : List Char) : Except Error Theme :=
  match Yaml.read? text with
  | none => .error (.unreadable file)
  | some value => ofValue file value

end BookHighlight.Theme
