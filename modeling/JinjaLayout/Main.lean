import JinjaLayout.CommandLine.Run

open JinjaLayout

def readNamedFiles (names : List Text) : IO (List (Text × Text)) :=
  names.filterMapM fun name => do
    try
      return some (name, (← IO.FS.readFile name.asString).toList)
    catch _ => return none

def readInput : IO Text := do
  return ((String.fromUTF8? (← (← IO.getStdin).readBinToEnd)).getD "").toList

/-- Checks or formats templates, or prints their tokens. -/
def main (arguments : List String) : IO UInt32 := do
  let arguments := arguments.map String.toList
  let names := CommandLine.namedFiles arguments
  let input ← if names.contains ['-'] then readInput else pure []
  let files ← readNamedFiles names
  let outcome := CommandLine.outcome arguments { files, input }
  IO.print outcome.world.printed.asString
  for (name, text) in outcome.world.files do
    if files.lookup name ≠ some text then IO.FS.writeFile name.asString text.asString
  if let some error := outcome.error then IO.eprintln error.message
  return outcome.code.toUInt32
