import BookHighlight.Markdown.Block
import BookHighlight.Markdown.Span

namespace BookHighlight.Markdown

inductive Construct where
  | block (block : Block)
  | span (span : Span)
  deriving DecidableEq, Repr

namespace Construct

def start : Construct → Nat
  | .block b => b.start
  | .span s => s.start

def stop : Construct → Nat
  | .block b => b.stop
  | .span s => s.stop

def code : Construct → List Char
  | .block b => b.code
  | .span s => s.code

end Construct

def slice (content : List Char) (start stop : Nat) : List Char :=
  (content.drop start).take (stop - start)

def constructsFrom (content : List Char) : (cursor : Nat) → List Block → List Construct
  | cursor, [] => (spansFrom 0 cursor (content.drop cursor)).map .span
  | cursor, block :: rest =>
    (spansFrom 0 cursor (slice content cursor block.start)).map .span ++
      .block block :: constructsFrom content block.stop rest

def constructs (content : List Char) : List Construct := constructsFrom content 0 (blocks content)

end BookHighlight.Markdown
