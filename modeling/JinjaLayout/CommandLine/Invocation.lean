import JinjaLayout.CommandLine.Arguments
import JinjaLayout.Finding.Basic

namespace JinjaLayout.CommandLine

/-- What becomes of a template that was formatted. -/
inductive FormatMode where
  | print
  | write
  | check
deriving DecidableEq

/-- What is to be done. -/
inductive Command where
  | check (files : List Text) (format : ReportFormat)
  | format (files : List Text) (mode : FormatMode) (verify : Bool) (assignments : Option Text)
  | tokens (file : Text)

/-- A command and the settings it runs under. -/
structure Invocation where
  command : Command
  config : Option Text
  trimBlocks : Bool
  lstripBlocks : Bool
  keepTrailingNewline : Bool

/-- The command that the arguments behind its name ask for. -/
def Command.ofReading (name : String) (reading : Reading) : Except Stop Command :=
  match name with
  | "check" =>
      if reading.words.isEmpty then .error .usage
      else
        let format := (reading.options.lookup .output).bind fun word =>
          ReportFormat.ofWord? word.asString
        .ok (.check reading.words (format.getD .text))
  | "fmt" =>
      if reading.words.isEmpty || (reading.has .write && reading.has .check) then .error .usage
      else
        let mode :=
          if reading.has .check then .check else if reading.has .write then .write else .print
        .ok (.format reading.words mode (reading.has .verify) (reading.options.lookup .extraVars))
  | _ =>
      match reading.words with
      | [file] => .ok (.tokens file)
      | _ => .error .usage

def Command.switches? : String → Option (List Switch)
  | "check" => some [.output]
  | "fmt" => some [.write, .check, .verify, .extraVars]
  | "tokens" => some []
  | _ => none

/-- What the arguments of a command line ask for. An option behind the command outweighs the same
one in front of it. -/
def Invocation.ofArguments (arguments : List Text) : Except Stop Invocation := do
  let (before, rest) ← readOptions (Switch.version :: Switch.global) {} arguments
  let word :: rest := rest | throw .usage
  if word = "help".toList then throw .help
  let some switches := Command.switches? word.asString | throw .usage
  let reading ← readAll (switches ++ Switch.global) {} rest
  let command ← Command.ofReading word.asString reading
  let has (switch : Switch) : Bool := before.has switch || reading.has switch
  return {
    command
    config := reading.options.lookup .config <|> before.options.lookup .config
    trimBlocks := has .trimBlocks
    lstripBlocks := has .lstripBlocks
    keepTrailingNewline := has .keepTrailingNewline }

def Command.files : Command → List Text
  | check files _ | format files _ _ _ => files
  | tokens file => [file]

end JinjaLayout.CommandLine
