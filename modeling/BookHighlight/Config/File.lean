import BookHighlight.Config.Reading
import BookHighlight.Toml.Document

namespace BookHighlight.Config

def ofFile (reads : Toml.Parser) (processors : Option Nat) (file : String) :
    Option (List Char) → Reader Config
  | none => throw (.missingFile file)
  | some text =>
    match reads text with
    | .ok book => ofBook processors book
    | .error .invalid => fail (.unreadable file)
    | .error .repeatedKey => throw .repeatedKey

end BookHighlight.Config
