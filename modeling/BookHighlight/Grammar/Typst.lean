import BookHighlight.Grammar.Basic
import BookHighlight.Pattern.Reader

namespace BookHighlight.Grammar.Typst

/-! The grammar of Typst markup, code and math. Rules are tried in order and the first match
wins. -/

abbrev Target := Fin 21

abbrev main : Target := 0
abbrev heading : Target := 2
abbrev strong : Target := 3
abbrev emph : Target := 4
abbrev rawBlock : Target := 5
abbrev rawInline : Target := 6
abbrev codeStatement : Target := 8
abbrev codeExpression : Target := 9
abbrev codeAtom : Target := 10
abbrev codeBlock : Target := 12
abbrev codeParen : Target := 13
abbrev contentBlock : Target := 14
abbrev string : Target := 17
abbrev math : Target := 18
abbrev blockComment : Target := 20

abbrev Rules := List (Rule 21)

def read (source : String) (readable : (Pattern.ofText? source.toList).isSome = true) : Pattern :=
  (Pattern.ofText? source.toList).get readable

section

variable (source : String)

def takes (scope : String)
    (readable : (Pattern.ofText? source.toList).isSome = true := by decide +kernel) : Rule 21 :=
  ⟨source, read source readable, some scope, none, false, none⟩

def passes
    (readable : (Pattern.ofText? source.toList).isSome = true := by decide +kernel) : Rule 21 :=
  ⟨source, read source readable, none, none, false, none⟩

def enters (scope : String) (target : Target)
    (readable : (Pattern.ofText? source.toList).isSome = true := by decide +kernel) : Rule 21 :=
  ⟨source, read source readable, some scope, some target, false, none⟩

def leaves (scope : String)
    (readable : (Pattern.ofText? source.toList).isSome = true := by decide +kernel) : Rule 21 :=
  ⟨source, read source readable, some scope, none, true, none⟩

def ends
    (readable : (Pattern.ofText? source.toList).isSome = true := by decide +kernel) : Rule 21 :=
  ⟨source, read source readable, none, none, true, none⟩

def replaces (scope : String) (target : Target)
    (readable : (Pattern.ofText? source.toList).isSome = true := by decide +kernel) : Rule 21 :=
  ⟨source, read source readable, some scope, none, false, some target⟩

end

def comments : Rules := [
  takes "//[^\\n]*" "comment.line.double-slash.typst",
  enters "/\\*" "punctuation.definition.comment.begin.typst" blockComment]

def constants : Rules := [
  takes "\\b(?:true|false)\\b(?!-)" "constant.language.boolean.typst",
  takes "\\b(?:none|auto)\\b(?!-)" "constant.language.typst"]

def numbers : Rules := [
  takes "\\b0x[0-9a-fA-F]+\\b|\\b0b[01]+\\b|\\b0o[0-7]+\\b" "constant.numeric.integer.typst",
  takes "\\b\\d+(?:\\.\\d+)?(?:e[+-]?\\d+)?(?:pt|mm|cm|in|em|fr|deg|rad|%)?"
    "constant.numeric.typst"]

def keywords : String :=
  "let|set|show|if|else|for|in|while|break|continue|return|import|include|as|context"

def embeddedCode : Rules := [
  enters ("#(?=(?:" ++ keywords ++ ")\\b)")
    "punctuation.definition.code.typst" codeStatement,
  enters "#\\\x7b" "punctuation.section.block.begin.typst" codeBlock,
  enters "#\\[" "punctuation.section.content.begin.typst" contentBlock,
  enters "#\\(" "punctuation.section.group.begin.typst" codeParen,
  enters "#(?=\"|\\d)" "punctuation.definition.code.typst" codeAtom,
  enters "#(?=[^\\W\\d][\\w-]*)" "punctuation.definition.code.typst" codeExpression]

def markup : Rules := comments ++ [
  takes "https?://[^\\s<>\\[\\]()\"]+" "markup.underline.link.typst",
  enters "`\x7b3,\x7d" "punctuation.definition.raw.begin.typst" rawBlock,
  enters "`" "punctuation.definition.raw.begin.typst" rawInline,
  takes "\\\\(?:u\\\x7b[0-9a-fA-F]+\\\x7d|\\S)" "constant.character.escape.typst",
  takes "\\\\(?=\\s)" "punctuation.separator.linebreak.typst",
  enters "^[ \\t]*=+(?=[ \\t])" "punctuation.definition.heading.typst" heading,
  takes "^[ \\t]*[-+](?=[ \\t])" "punctuation.definition.list.typst",
  takes "^[ \\t]*\\d+\\.(?=[ \\t])" "punctuation.definition.list.numbered.typst",
  takes "^[ \\t]*/[ \\t][^:\\n]*:" "markup.list.term.typst",
  takes "<[\\w\\-.:]+>" "entity.name.label.typst",
  takes "@[\\w\\-:]+(?:\\.[\\w\\-:]+)*" "entity.name.reference.typst",
  takes "~|---?|\\.\\.\\." "constant.character.shorthand.typst",
  enters "(?<!\\w)\\*" "punctuation.definition.bold.typst" strong,
  enters "(?<!\\w)_" "punctuation.definition.italic.typst" emph,
  enters "\\$" "punctuation.definition.math.begin.typst" math] ++ embeddedCode

def emphasisEnd : Rules := [ends "(?=\\]|\\n[ \\t]*\\n)"]

def code : Rules := comments ++ [
  enters "\"" "punctuation.definition.string.begin.typst" string] ++ constants ++ numbers ++ [
  takes ("\\b(?:" ++ keywords ++ ")\\b(?!-)")
    "keyword.control.typst",
  takes "\\b(?:and|or|not)\\b(?!-)" "keyword.operator.word.typst",
  takes "[^\\W\\d][\\w-]*(?=[\\[(])" "entity.name.function.typst",
  takes "[^\\W\\d][\\w-]*" "variable.other.typst",
  takes "=>|==|!=|<=|>=|\\+=|-=|\\*=|/=|\\.\\.|[=<>+\\-*/]" "keyword.operator.typst",
  takes "[,:;.]" "punctuation.separator.typst",
  takes "<[\\w\\-.:]+>" "entity.name.label.typst",
  enters "\\\x7b" "punctuation.section.block.begin.typst" codeBlock,
  enters "\\(" "punctuation.section.group.begin.typst" codeParen,
  enters "\\[" "punctuation.section.content.begin.typst" contentBlock,
  enters "\\$" "punctuation.definition.math.begin.typst" math]

def codeExpressionRules : Rules := comments ++ constants ++ [
  takes "[^\\W\\d][\\w-]*(?=[\\[(])" "entity.name.function.typst",
  takes "[^\\W\\d][\\w-]*" "variable.other.typst",
  takes "\\.(?=[^\\W\\d][\\w-]*)" "punctuation.accessor.typst",
  enters "\\(" "punctuation.section.group.begin.typst" codeParen,
  enters "\\[" "punctuation.section.content.begin.typst" contentBlock,
  ends "(?=[\\s\\S])"]

def codeAtomRules : Rules :=
  replaces "\"" "punctuation.definition.string.begin.typst" string :: numbers ++
    [ends "(?=[\\s\\S])"]

def stringRules : Rules := [
  takes "\\\\(?:u\\\x7b[0-9a-fA-F]+\\\x7d|.)" "constant.character.escape.typst",
  leaves "\"" "punctuation.definition.string.end.typst",
  passes "[^\"\\\\]+"]

def mathRules : Rules := leaves "\\$" "punctuation.definition.math.end.typst" :: comments ++ [
  takes "\\\\(?:u\\\x7b[0-9a-fA-F]+\\\x7d|\\S)" "constant.character.escape.typst",
  enters "\"" "punctuation.definition.string.begin.typst" string] ++ embeddedCode ++ [
  takes "\\d+(?:\\.\\d+)?" "constant.numeric.typst",
  takes "[a-zA-Z]\x7b2,\x7d(?:\\.[a-zA-Z]+)*(?=\\()" "entity.name.function.math.typst",
  takes "[a-zA-Z]\x7b2,\x7d(?:\\.[a-zA-Z]+)*" "support.constant.math.typst",
  takes ":=|->|=>|<=|>=|!=|[=<>+\\-*/^_&!|']" "keyword.operator.math.typst"]

def blockCommentRules : Rules := [
  enters "/\\*" "punctuation.definition.comment.begin.typst" blockComment,
  leaves "\\*/" "punctuation.definition.comment.end.typst",
  passes "[^*/]+"]

def contexts : List (Context 21) := [
  ⟨.text "main", markup, none⟩,
  ⟨.text "markup", markup, none⟩,
  ⟨.text "heading", ends "(?=\\n)" :: markup, some "markup.heading.typst"⟩,
  ⟨.text "strong", leaves "\\*" "punctuation.definition.bold.typst" :: emphasisEnd ++ markup,
    some "markup.bold.typst"⟩,
  ⟨.text "emph", leaves "_(?!\\w)" "punctuation.definition.italic.typst" :: emphasisEnd ++ markup,
    some "markup.italic.typst"⟩,
  ⟨.text "raw-block", [leaves "`\x7b3,\x7d" "punctuation.definition.raw.end.typst", passes "[^`]+"],
    some "markup.raw.block.typst"⟩,
  ⟨.text "raw-inline", [leaves "`" "punctuation.definition.raw.end.typst", passes "[^`]+"],
    some "markup.raw.inline.typst"⟩,
  ⟨.text "embedded-code", embeddedCode, none⟩,
  ⟨.text "code-statement",
    ends "(?=\\n|\\])" :: leaves ";" "punctuation.terminator.typst" :: code, none⟩,
  ⟨.text "code-expression", codeExpressionRules, none⟩,
  ⟨.text "code-atom", codeAtomRules, none⟩,
  ⟨.text "code", code, none⟩,
  ⟨.text "code-block", leaves "\\\x7d" "punctuation.section.block.end.typst" :: code,
    some "meta.block.code.typst"⟩,
  ⟨.text "code-paren", leaves "\\)" "punctuation.section.group.end.typst" :: code,
    some "meta.group.typst"⟩,
  ⟨.text "content-block", leaves "\\]" "punctuation.section.content.end.typst" :: markup,
    some "meta.content.typst"⟩,
  ⟨.text "constants", constants, none⟩,
  ⟨.text "numbers", numbers, none⟩,
  ⟨.text "string", stringRules, some "string.quoted.double.typst"⟩,
  ⟨.text "math", mathRules, some "markup.math.typst"⟩,
  ⟨.text "comments", comments, none⟩,
  ⟨.text "block-comment", blockCommentRules, some "comment.block.typst"⟩]

end Typst

def typst : Grammar where
  name := "Typst"
  scope := "source.typst"
  size := 21
  contexts := Typst.contexts
  sized := rfl
  main := Typst.main

end BookHighlight.Grammar
