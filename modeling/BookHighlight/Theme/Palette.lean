import BookHighlight.Theme.Basic

namespace BookHighlight

structure TokenStyle where
  color : Option String := none
  bold : Bool := false
  italic : Bool := false
  underline : Bool := false

/-- The styles of token types such as `Token.Comment`; a type that is missing has no attributes. -/
abbrev Palette := List (String × TokenStyle)

namespace Palette

def borrowed : List (String × String) := [
  ("comment", "Token.Comment"),
  ("string", "Token.Literal.String"),
  ("constant.character.escape", "Token.Literal.String.Escape"),
  ("constant.character.shorthand", "Token.Operator"),
  ("constant.numeric", "Token.Literal.Number"),
  ("constant.language", "Token.Keyword.Constant"),
  ("keyword", "Token.Keyword"),
  ("keyword.operator", "Token.Operator"),
  ("keyword.operator.word", "Token.Operator.Word"),
  ("entity.name.function", "Token.Name.Function"),
  ("entity.name.label", "Token.Name.Label"),
  ("entity.name.reference", "Token.Name.Tag"),
  ("variable", "Token.Name.Variable"),
  ("support.constant", "Token.Name.Constant"),
  ("markup.heading", "Token.Generic.Heading"),
  ("markup.bold", "Token.Generic.Strong"),
  ("markup.italic", "Token.Generic.Emph"),
  ("markup.raw", "Token.Literal.String.Backtick"),
  ("markup.list", "Token.Name.Tag"),
  ("markup.underline.link", "Token.Name.Attribute"),
  ("punctuation", "Token.Punctuation")]

def style (palette : Palette) (tokenType : String) : Style :=
  let attributes := (palette.lookup tokenType).getD { }
  { foreground := match attributes.color with
      | some color => if color.isEmpty then .null else .text ("#" ++ color)
      | none => .null
    bold := attributes.bold
    italic := attributes.italic
    underline := attributes.underline }

def toTheme (palette : Palette) (name : String) : Theme :=
  let text := palette.style "Token.Text"
  { name
    default :=
      if text.foreground.isTruthy then text else { text with foreground := .text pageForeground }
    styles := borrowed.map fun (selector, tokenType) => (selector, palette.style tokenType) }

end Palette

end BookHighlight
