import JinjaLayout.CommandLine.Invocation
import JinjaLayout.Rendering.Basic
import JinjaLayout.Settings.Basic
import JinjaLayout.Template
import JinjaLayout.Token.Report

/-!
What a command does to the files it is given. A run that fails keeps what it has printed and written
before.
-/

namespace JinjaLayout.CommandLine

structure World where
  files : List (Text × Text)
  input : Text := []
  printed : Text := []

abbrev Run := ExceptT TemplateError (StateM World)

def ofResult {α : Type} (result : Except TemplateError α) : Run α :=
  ExceptT.mk (pure result)

def print (text : Text) : Run Unit :=
  modify fun world => { world with printed := world.printed ++ text }

def readFile (path : Text) : Run Text := do
  match (← get).files.lookup path with
  | some text => return text
  | none => throw .unreadable

/-- The text of a template: of a file, or for a dash what is left of the standard input. -/
def readSource (path : Text) : Run Text := do
  if path = ['-'] then
    let world ← get
    set { world with input := [] }
    return world.input
  else readFile path

def writeFile (path text : Text) : Run Unit :=
  modify fun world =>
    { world with
      files := world.files.map fun file => if file.1 = path then (path, text) else file }

def environment (invocation : Invocation) : Run Environment := do
  let env ← match invocation.config with
    | some path => do ofResult (Environment.ofSettings (← readFile path))
    | none => pure {}
  return { env with
    trimBlocks := env.trimBlocks || invocation.trimBlocks
    lstripBlocks := env.lstripBlocks || invocation.lstripBlocks
    keepTrailingNewline := env.keepTrailingNewline || invocation.keepTrailingNewline }

def check (files : List Text) (format : ReportFormat) : Run Bool := do
  let findings ← files.filterMapM fun file => do
    return Finding.ofText? file (← readSource file)
  print (Finding.report format findings)
  return findings.isEmpty

/-- The variables of a list of assignments between commas. A value is JSON or else a string, and the
last assignment to a name counts. -/
def bindingsOf (assignments : Option Text) : Rendering.Bindings :=
  let binding? (assignment : Text) : Option (Text × Value) :=
    let name := assignment.takeWhile (· != '=')
    if name.length < assignment.length then
      let text := assignment.drop (name.length + 1)
      some (Text.trimEnd Text.isBlank (name.dropWhile Text.isBlank),
        (Value.ofJson? text).getD (.str text))
    else none
  (((assignments.map (Text.splitAt ',')).getD []).filterMap binding?).reverse

/-- Formats one file; the result tells whether it was clean. -/
def formatFile (env : Environment) (engine : Option Engine) (bindings : Rendering.Bindings)
    (mode : FormatMode) (file : Text) : Run Bool := do
  let source ← readSource file
  let formatted ← ofResult (Template.reformat env source)
  let isKept ← match engine with
    | some engine => ofResult (engine.rendersSame bindings source formatted)
    | none => pure true
  let isChanged := formatted ≠ source
  if !isKept then return false
  else if mode = .check then
    if isChanged then print (file ++ ": would reformat\n".toList)
    return !isChanged
  else if mode = .write && file != ['-'] then
    if isChanged then writeFile file formatted
    return true
  else
    print formatted
    return true

def format (env : Environment) (files : List Text) (mode : FormatMode) (verify : Bool)
    (assignments : Option Text) : Run Bool := do
  let engine ← if verify then some <$> ofResult (Engine.ofEnvironment env) else pure none
  files.foldlM (fun isClean file => do
    return (← formatFile env engine (bindingsOf assignments) mode file) && isClean) true

def tokens (env : Environment) (file : Text) : Run Bool := do
  let source ← readSource file
  let (_, table) ← ofResult (Template.parseAnnotated env (some file.asString) source)
  print table.report
  return true

/-- Runs a command; the result tells whether everything was clean. -/
def run (invocation : Invocation) : Run Bool := do
  let env ← environment invocation
  match invocation.command with
  | .check files reportFormat => check files reportFormat
  | .format files mode verify assignments => format env files mode verify assignments
  | .tokens file => tokens env file

/-- What remains of a run: the exit code, the world and the error that ended it. -/
structure Outcome where
  code : Nat
  world : World
  error : Option TemplateError := none

def versionLine : Text :=
  "rustle-jinja 0.1.0\n"

def usage : Text :=
  "Usage: [OPTIONS] <check|fmt|tokens> [ARGUMENTS]\n"

def outcome (arguments : List Text) (world : World) : Outcome :=
  match Invocation.ofArguments arguments with
  | .error .usage => ⟨2, world, none⟩
  | .error .version => ⟨0, { world with printed := world.printed ++ versionLine }, none⟩
  | .error .help => ⟨0, { world with printed := world.printed ++ usage }, none⟩
  | .ok invocation =>
      match (run invocation).run world with
      | (.error error, world) => ⟨1, world, some error⟩
      | (.ok isClean, world) => ⟨if isClean then 0 else 2, world, none⟩

def namedFiles (arguments : List Text) : List Text :=
  match Invocation.ofArguments arguments with
  | .ok invocation => (invocation.config.toList ++ invocation.command.files).eraseDups
  | .error _ => []

end JinjaLayout.CommandLine
