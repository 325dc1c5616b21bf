namespace BookHighlight

inductive LogLevel where
  | info
  | warning
  | error
  deriving DecidableEq, Repr

inductive LogSource where
  | configuration
  | transformer
  | preprocessor
  | commandLine
  deriving DecidableEq, Repr

structure LogLine where
  level : LogLevel
  source : LogSource
  message : String
  deriving DecidableEq, Repr

def LogLevel.name : LogLevel → String
  | .info => "INFO"
  | .warning => "WARNING"
  | .error => "ERROR"

def LogLevel.severity : LogLevel → Nat
  | .info => 20
  | .warning => 30
  | .error => 40

def LogSource.name : LogSource → String
  | .configuration => "typst_highlight.config.loader"
  | .transformer => "typst_highlight.transformer"
  | .preprocessor => "typst_highlight.preprocessor"
  | .commandLine => "typst_highlight.cli"

namespace LogLine

def text (line : LogLine) : String :=
  line.level.name ++ " [" ++ line.source.name ++ "] " ++ line.message

def warning (source : LogSource) (message : String) : LogLine := ⟨.warning, source, message⟩

end LogLine

end BookHighlight
