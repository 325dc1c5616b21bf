import BookHighlight.Theme.Library

namespace BookHighlight.Theme

def solarized (muted : String) : List (String × Style) := [
  ("comment", { foreground := .text muted, italic := true }),
  ("string", .colour "#2aa198"),
  ("constant.character.escape", .colour "#cb4b16"),
  ("constant.character.shorthand", .colour "#cb4b16"),
  ("constant.numeric", .colour "#d33682"),
  ("constant.language", .colour "#b58900"),
  ("keyword", .colour "#859900"),
  ("keyword.operator", .colour "#859900"),
  ("entity.name.function", .colour "#268bd2"),
  ("entity.name.label", .colour "#6c71c4"),
  ("entity.name.reference", .colour "#6c71c4"),
  ("variable", .colour "#268bd2"),
  ("support.constant", .colour "#b58900"),
  ("markup.heading", { foreground := .text "#268bd2", bold := true }),
  ("markup.bold", { bold := true }),
  ("markup.italic", { italic := true }),
  ("markup.raw", .colour "#2aa198"),
  ("markup.math", .colour "#2aa198"),
  ("markup.list", .colour "#cb4b16"),
  ("markup.underline.link", { foreground := .text "#268bd2", underline := true }),
  ("punctuation.definition.code", .colour "#dc322f"),
  ("punctuation.definition.heading", .colour "#268bd2"),
  ("punctuation.definition.list", .colour "#cb4b16")]

def solarizedDark : Theme := { name := "Solarized (dark)", styles := solarized "#586e75" }

def solarizedLight : Theme where
  name := "Solarized (light)"
  default := .colour "#657b83"
  styles := solarized "#93a1a1"

def bundled : List (String × Theme) :=
  [("solarized-dark", solarizedDark), ("solarized-light", solarizedLight)]

def bundledNames : List String := bundled.map (·.1)

def Library.withPalettes (palettes : List (String × Palette)) : Library where
  file name := ((bundled.lookup name).map fun theme => .found (.ok theme)).getD .absent
  palette name := ((palettes.lookup name).map .found).getD .absent

end BookHighlight.Theme
