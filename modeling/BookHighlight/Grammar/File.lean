import BookHighlight.Grammar.Reading
import BookHighlight.Yaml.Node

namespace BookHighlight.Grammar

def ofFile (dialect : Pattern.Dialect) (file : String) : Option (List Char) → Except Error Grammar
  | none => .error (.missingFile file)
  | some text =>
    match Yaml.read? text with
    | none => .error (.defect (.unreadable file))
    | some (.table payload) => ofEntries dialect payload
    | some _ => .error (.defect (.notATable file))

end BookHighlight.Grammar
