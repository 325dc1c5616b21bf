import BookHighlight.Config.Basic
import BookHighlight.Tag

namespace BookHighlight

structure Policy where
  highlight : Bool
  render : Bool
  usePrelude : Bool
  deriving DecidableEq, Repr

namespace Policy

def skip : Policy := ⟨false, false, false⟩

def inline (config : Config) : Policy := if config.disableInline then skip else ⟨true, false, false⟩

/-- The policy for blocks: those of the target languages are highlighted, and those without a tag
    where the options say so. A tag made of suffixes alone counts as none, but its suffixes
    apply. -/
def block (config : Config) : Option Tag → Policy
  | none => if config.typstDefault then ⟨true, config.render, true⟩ else skip
  | some tag =>
    if if tag.base.isEmpty then config.typstDefault else tag.isTarget then
      ⟨true, config.render && !tag.noRender, !tag.noPrelude⟩
    else skip

end Policy

end BookHighlight
