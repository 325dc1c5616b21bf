import BookHighlight.Command.Run

open BookHighlight

partial def readStream (stream : IO.FS.Stream) (front : ByteArray := .empty) : IO ByteArray := do
  let chunk ← stream.read 65536
  if chunk.isEmpty then return front else readStream stream (front ++ chunk)

def readText? (file : String) : IO (Option (List Char)) := do
  let bytes? ← try some <$> IO.FS.readBinFile file catch _ => pure none
  match bytes? with
  | none => return none
  | some bytes =>
    match Text.ofUtf8? false bytes.toList with
    | some text => return some text
    | none => throw (IO.userError ("File '" ++ file ++ "' is not a text."))

def perform (command : Command) : IO UInt32 := do
  let files ← command.inputs.mapM fun file => return (file, ← readText? file)
  let input ← match command with
    | .preprocess => readStream (← IO.getStdin)
    | _ => pure .empty
  let around : Command.Surroundings := {
    processors := none
    compiler := .absent
    themes := .withPalettes []
    loads := Book.load
    readsToml := Toml.read
    severity := Command.severityOf (← IO.getEnv "TYPST_HIGHLIGHT_LOG")
    file := fun file => (files.lookup file).join
    isFolder := fun _ => true
    prints := Text.isWritable
    input := input.toList }
  match Command.run around command with
  | .ok effects =>
    if let some (file, content) := effects.written then IO.FS.writeFile file content
    IO.print effects.output
    IO.eprint effects.diagnostics
    return effects.status.toUInt32
  | .error failure =>
    IO.eprintln failure.message
    return 1

def main (arguments : List String) : IO UInt32 := do
  let parameters := ["SOURCE", "CONFIG", "OUTPUT", "RENDER", "THEME", "RENDERER"]
  let environment ← parameters.mapM fun name => do
    let name := "TYPST_HIGHLIGHT_" ++ name
    return (name, ← IO.getEnv name)
  match Command.ofArguments? (fun name => (environment.lookup name).join) arguments with
  | some command => perform command
  | none =>
    IO.eprintln "usage: typst-highlight [supports RENDERER | process SOURCE | themes]"
    return Command.usageStatus.toUInt32
