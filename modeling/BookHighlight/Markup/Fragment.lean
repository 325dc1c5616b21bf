import BookHighlight.Grammar.Token
import BookHighlight.Markup.Entity
import BookHighlight.Theme.Basic

namespace BookHighlight.Markup

/-- Joins neighbours of equal style, into one run for each maximal such group. -/
def runs : List (Style × List Char) → List (Style × List Char)
  | [] => []
  | (style, text) :: rest =>
    match runs rest with
    | [] => [(style, text)]
    | (style', text') :: more =>
      if style == style' then (style', text ++ text') :: more
      else (style, text) :: (style', text') :: more

def fragment (style : Style) (text : List Char) : List Char :=
  if style.isPlain then escape text
  else ("<span style=\"" ++ style.css ++ "\">").toList ++ escape text ++ "</span>".toList

def fragments (theme : Theme) (tokens : List Token) : List (List Char) :=
  (runs (tokens.map fun token => (theme.styleFor token.scopes, token.text))).map
    fun (style, text) => fragment style text

def highlighted (theme : Theme) (tokens : List Token) : List Char :=
  (fragments theme tokens).flatten

def wrapped (inline : Bool) (body : List Char) : List Char :=
  if inline then "<code class=\"hljs\">".toList ++ body ++ "</code>".toList
  else
    "<pre style=\"margin: 0\"><code class=\"language-typ hljs\">".toList ++ body ++
      "</code></pre>".toList

def shown (code : List Char) : List Char :=
  if code.getLast? = some '\n' then code.dropLast else code

def highlight (grammar : Grammar) (theme : Theme) (inline : Bool) (code : List Char) :
    List Char :=
  wrapped inline (highlighted theme (grammar.tokens (shown code)))

end BookHighlight.Markup
