import BookHighlight.Command.Arguments
import BookHighlight.Config.File
import BookHighlight.Preprocessor
import BookHighlight.Text.LetterCase
import BookHighlight.Theme.Bundled

namespace BookHighlight.Command

structure Surroundings where
  processors : Option Nat
  compiler : Compiler
  themes : Theme.Library
  loads : Book.Loader
  readsToml : Toml.Parser
  /-- the least severity of the log lines that are shown -/
  severity : Nat
  /-- the text of a file, if there is one of that name -/
  file : String → Option (List Char)
  isFolder : String → Bool
  /-- whether a text can be written to the standard output -/
  prints : List Char → Bool
  input : List UInt8

structure Effects where
  status : Nat
  output : String
  diagnostics : String
  /-- a file and its new content -/
  written : Option (String × String)
  deriving DecidableEq, Repr

inductive Failure where
  | preprocessor (failure : Preprocessor.Failure)
  | unprintable
  | missingSource (file : String)
  | missingFolder (folder : String)

def Failure.message : Failure → String
  | .preprocessor (.configuration error) =>
    error.message?.getD "The configuration holds a value that cannot be used."
  | .preprocessor (.input error) =>
    if error.summary.isEmpty then "The input is not a text." else error.summary
  | .preprocessor _ => "The input holds a value that cannot be used."
  | .unprintable => "The output holds a character that cannot be written."
  | .missingSource file => "File '" ++ file ++ "' not found."
  | .missingFolder folder => "Folder '" ++ folder ++ "' not found."

def severityOf (setting : Option String) : Nat :=
  match setting.map fun s => String.ofList (s.toList.map Text.toCapital) with
  | some "CRITICAL" | some "FATAL" => 50
  | some "ERROR" => LogLevel.error.severity
  | some "INFO" => LogLevel.info.severity
  | some "DEBUG" => 10
  | some "NOTSET" => 0
  | _ => LogLevel.warning.severity

def shownLog (severity : Nat) (log : List LogLine) : String :=
  String.join ((log.filter (severity ≤ ·.level.severity)).map fun line => line.text ++ "\n")

def Effects.success (output diagnostics : String) : Effects := ⟨0, output, diagnostics, none⟩

def Effects.reported (severity : Nat) (log : List LogLine) (message : String) : Effects :=
  ⟨1, "", shownLog severity (log ++ [⟨.error, .commandLine, message⟩]), none⟩

def Effects.interrupted (severity : Nat) (log : List LogLine) : Effects :=
  ⟨130, "", shownLog severity log, none⟩

/-- Reports what is wrong with input and options, and breaks down for other reasons. -/
def endOf (severity : Nat) (log : List LogLine) : Preprocessor.Failure → Except Failure Effects
  | .configuration (.defect defect) => .ok (.reported severity log defect.message)
  | .input .broken => .error (.preprocessor (.input .broken))
  | .input error => .ok (.reported severity log error.message)
  | .interrupted ⟨.interrupt, _⟩ => .ok (.interrupted severity log)
  | failure => .error (.preprocessor failure)

def print (around : Surroundings) (log : List LogLine) (text : String) : Except Failure Effects :=
  if around.prints text.toList then .ok (.success text (shownLog around.severity log))
  else .error .unprintable

def configOf (around : Surroundings) (task : DocumentTask) :
    Except Config.Error Config × List LogLine :=
  let (result, log) := match task.config with
    | some file =>
      Config.run (Config.ofFile around.readsToml around.processors file (around.file file))
    | none => (.ok (.standard around.processors), [])
  (result.map fun config =>
    { config with
      render := task.render.getD config.render
      theme := task.theme.getD config.theme }, log)

def runDocument (around : Surroundings) (task : DocumentTask) : Except Failure Effects :=
  match configOf around task with
  | (.error e, log) => endOf around.severity log (.configuration e)
  | (.ok config, log) =>
    match around.file task.source with
    | none => .error (.missingSource task.source)
    | some text =>
      match Transformer.ofConfig around.themes around.compiler config with
      | .error e => endOf around.severity log (.configuration e)
      | .ok t =>
        match (t.transform .empty (Text.normalizeBreaks text) task.source).1 with
        | .error i => endOf around.severity (log ++ i.log) (.interrupted i)
        | .ok result =>
          let text := String.ofList result.text
          let log := log ++ result.log
          match task.output with
          | none => print around log text
          | some file =>
            if around.isFolder (folderOf file) then
              .ok ⟨0, "", shownLog around.severity log ++ "wrote " ++ file ++ "\n",
                some (file, text)⟩
            else .error (.missingFolder (folderOf file))

def themesText : String :=
  String.join ((Theme.bundledNames ++ ["(any Pygments style name is accepted as well)"]).map
    (· ++ "\n"))

def runPreprocessor (around : Surroundings) : Except Failure Effects :=
  match Preprocessor.run around.loads around.themes around.processors around.compiler
    (.bytes around.input) with
  | (.ok output, log) => print around log output
  | (.error failure, log) => endOf around.severity log failure

def run (around : Surroundings) : Command → Except Failure Effects
  | .preprocess => runPreprocessor around
  | .supports renderer => .ok ⟨if Preprocessor.supports renderer then 0 else 1, "", "", none⟩
  | .document task => runDocument around task
  | .themes => .ok (.success themesText "")

def usageStatus : Nat := 2

def signalStatus (signal : Nat) : Nat := 128 + signal

end BookHighlight.Command
