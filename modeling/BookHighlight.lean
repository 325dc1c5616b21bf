import BookHighlight.Book.Chapter
import BookHighlight.Book.Input
import BookHighlight.Command.Arguments
import BookHighlight.Command.Path
import BookHighlight.Command.Run
import BookHighlight.Compiler.Basic
import BookHighlight.Compiler.Interleaving
import BookHighlight.Compiler.Registry
import BookHighlight.Compiler.Rendering
import BookHighlight.Config.Basic
import BookHighlight.Config.File
import BookHighlight.Config.Reading
import BookHighlight.Data.Misuse
import BookHighlight.Data.Path
import BookHighlight.Data.Shown
import BookHighlight.Data.Value
import BookHighlight.Grammar.Basic
import BookHighlight.Grammar.Error
import BookHighlight.Grammar.File
import BookHighlight.Grammar.Reading
import BookHighlight.Grammar.Template
import BookHighlight.Grammar.Token
import BookHighlight.Grammar.Typst
import BookHighlight.Json.Reader
import BookHighlight.Json.Writer
import BookHighlight.Log
import BookHighlight.Main
import BookHighlight.Markdown.Block
import BookHighlight.Markdown.Column
import BookHighlight.Markdown.Construct
import BookHighlight.Markdown.Fence
import BookHighlight.Markdown.Line
import BookHighlight.Markdown.Span
import BookHighlight.Markup.Entity
import BookHighlight.Markup.Fragment
import BookHighlight.Number.Binary64
import BookHighlight.Number.Digits
import BookHighlight.Number.Layout
import BookHighlight.Number.Power
import BookHighlight.Pattern.Basic
import BookHighlight.Pattern.CharSet
import BookHighlight.Pattern.Cursor
import BookHighlight.Pattern.Match
import BookHighlight.Pattern.Reader
import BookHighlight.Policy
import BookHighlight.Preprocessor
import BookHighlight.Proofs.Compiler.Interleaving
import BookHighlight.Proofs.Compiler.Rendering
import BookHighlight.Proofs.Data.Path
import BookHighlight.Proofs.Grammar.Loop
import BookHighlight.Proofs.Grammar.Partition
import BookHighlight.Proofs.Markdown.Block
import BookHighlight.Proofs.Markdown.Column
import BookHighlight.Proofs.Markdown.Construct
import BookHighlight.Proofs.Markdown.Fence
import BookHighlight.Proofs.Markdown.Line
import BookHighlight.Proofs.Markdown.Run
import BookHighlight.Proofs.Markdown.Slice
import BookHighlight.Proofs.Markdown.Span
import BookHighlight.Proofs.Markup.Entity
import BookHighlight.Proofs.Markup.Fragment
import BookHighlight.Proofs.Markup.VisibleText
import BookHighlight.Proofs.Text.Base64
import BookHighlight.Proofs.Text.Line
import BookHighlight.Proofs.Theme.Colour
import BookHighlight.Proofs.Transform.Document
import BookHighlight.Proofs.Transform.Outcome
import BookHighlight.Proofs.Transform.Splice
import BookHighlight.Tag
import BookHighlight.Text.Base64
import BookHighlight.Text.Blank
import BookHighlight.Text.Digit
import BookHighlight.Text.Encoding
import BookHighlight.Text.Hexadecimal
import BookHighlight.Text.LetterCase
import BookHighlight.Text.Line
import BookHighlight.Text.Printable
import BookHighlight.Text.Quoted
import BookHighlight.Text.Ranges
import BookHighlight.Text.Surrogate
import BookHighlight.Text.Utf8
import BookHighlight.Text.Word
import BookHighlight.Theme.Basic
import BookHighlight.Theme.Bundled
import BookHighlight.Theme.File
import BookHighlight.Theme.Library
import BookHighlight.Theme.Palette
import BookHighlight.Theme.Reading
import BookHighlight.Theme.Style
import BookHighlight.Toml.Document
import BookHighlight.Toml.Scalar
import BookHighlight.Toml.Table
import BookHighlight.Transform.Document
import BookHighlight.Transform.Outcome
import BookHighlight.Transform.Splice
import BookHighlight.Yaml.Node
import BookHighlight.Yaml.Scalar
import BookHighlight.Yaml.Source
import BookHighlight.Yaml.Text
import BookHighlight.Proofs.Book.Chapter
import BookHighlight.Proofs.Preprocessor.Failure
import BookHighlight.Proofs.Transform.Steady
import BookHighlight.Proofs.Preprocessor.Book
import BookHighlight.Proofs.Markdown.Mark
import BookHighlight.Proofs.Transform.Again
import BookHighlight.Proofs.Markdown.BlankLine
import BookHighlight.Proofs.Transform.Illustration
import BookHighlight.Proofs.Markdown.Container
import BookHighlight.Proofs.Text.Blank
import BookHighlight.Proofs.Markdown.Written
import BookHighlight.Transform.Schedule
import BookHighlight.Proofs.Transform.Process
import BookHighlight.Proofs.Transform.Schedule
import BookHighlight.Proofs.Transform.Sequential
import BookHighlight.Proofs.Markdown.Opened
import BookHighlight.Proofs.Markdown.Lead
import BookHighlight.Proofs.Markdown.Nest
import BookHighlight.Proofs.Markdown.Code
import BookHighlight.Proofs.Book.Walk
import BookHighlight.Proofs.Config.Options
import BookHighlight.Proofs.Preprocessor.Run
import BookHighlight.Proofs.Text.Utf8
import BookHighlight.Proofs.Command.Preprocess
import BookHighlight.Proofs.Markdown.Move
import BookHighlight.Proofs.Markdown.State
import BookHighlight.Proofs.Markdown.Margin
import BookHighlight.Proofs.Markdown.Heading
import BookHighlight.Proofs.Markdown.Indented
import BookHighlight.Proofs.Markdown.WrittenSpan
import BookHighlight.Proofs.Markdown.Pairing
import BookHighlight.Proofs.Markdown.LineEnding
import BookHighlight.Proofs.Grammar.Stack
import BookHighlight.Proofs.Pattern.Outlook
import BookHighlight.Proofs.Grammar.Round
import BookHighlight.Proofs.Pattern.Repetition
import BookHighlight.Proofs.Grammar.Comment
import BookHighlight.Proofs.Grammar.Quote
import BookHighlight.Proofs.Theme.Selector
import BookHighlight.Proofs.Grammar.Trail
import BookHighlight.Proofs.Grammar.Variables
import BookHighlight.Proofs.Data.Table
import BookHighlight.Proofs.Grammar.Rule
import BookHighlight.Proofs.Grammar.Include
import BookHighlight.Proofs.Grammar.Reading
import BookHighlight.Proofs.Grammar.Inline
import BookHighlight.Proofs.Grammar.Malformed
import BookHighlight.Proofs.Markup.Run
import BookHighlight.Proofs.Markup.Escape
import BookHighlight.Proofs.Tag.Suffix
import BookHighlight.Proofs.Book.Preorder
import BookHighlight.Proofs.Markdown.Items
import BookHighlight.Proofs.Markdown.Split
import BookHighlight.Proofs.Config.Acceptance
