import BookHighlight.Text.Blank

namespace BookHighlight

inductive TagSuffix where
  | noPrelude
  | noRender
  deriving DecidableEq, Repr

structure Tag where
  raw : List Char
  base : List Char
  noPrelude : Bool
  noRender : Bool
  deriving DecidableEq, Repr

namespace TagSuffix

def text : TagSuffix → List Char
  | .noPrelude => "-noprelude".toList
  | .noRender => "-norender".toList

def all : List TagSuffix := [.noPrelude, .noRender]

def ofReversed? (word : List Char) : Option TagSuffix :=
  all.find? fun suffix => suffix.text.reverse.isPrefixOf word

/-- Splits the suffixes off a reversed word, the last one first; `skip` characters at its front
    belong to a suffix already found. -/
def splitFrom : (skip : Nat) → List Char → List TagSuffix × List Char
  | _, [] => ([], [])
  | skip + 1, _ :: rest => splitFrom skip rest
  | 0, c :: rest =>
    match ofReversed? (c :: rest) with
    | some suffix =>
      let (suffixes, base) := splitFrom (suffix.text.length - 1) rest
      (suffix :: suffixes, base)
    | none => ([], c :: rest)

end TagSuffix

namespace Tag

def isDelimiter (c : Char) : Bool := Text.isBlank c || c == ',' || c == '{'

def word (info : List Char) : List Char := (Text.trim info).takeWhile (!isDelimiter ·)

def ofWord (word : List Char) : Tag :=
  let (suffixes, base) := TagSuffix.splitFrom 0 word.reverse
  { raw := word
    base := base.reverse
    noPrelude := suffixes.contains .noPrelude
    noRender := suffixes.contains .noRender }

def ofInfo? (info : List Char) : Option Tag :=
  match word info with
  | [] => none
  | c :: rest => some (ofWord (c :: rest))

def targets : List (List Char) := ["typ".toList, "typst".toList]

def isTarget (tag : Tag) : Bool := targets.contains tag.base

end Tag

end BookHighlight
