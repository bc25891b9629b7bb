import JinjaLayout.Text.Basic

/-!
The arguments of a command line: options with and without values, and the words between them. The
arguments are read from the left, and the first one that makes no sense ends the reading.
-/

namespace JinjaLayout.CommandLine

/-- Why the arguments do not ask for a run. -/
inductive Stop where
  | usage
  | version
  | help
deriving DecidableEq

/-- An option. -/
inductive Switch where
  | config
  | trimBlocks
  | lstripBlocks
  | keepTrailingNewline
  | verbose
  | output
  | write
  | check
  | verify
  | extraVars
  | version
  | help
deriving DecidableEq

namespace Switch

def long : Switch → Text
  | config => "config"
  | trimBlocks => "trim-blocks"
  | lstripBlocks => "lstrip-blocks"
  | keepTrailingNewline => "keep-trailing-newline"
  | verbose => "verbose"
  | output => "output"
  | write => "write"
  | check => "check"
  | verify => "verify"
  | extraVars => "extra-vars"
  | version => "version"
  | help => "help"

def letter? : Switch → Option Char
  | config => some 'c'
  | output => some 'o'
  | extraVars => some 'e'
  | version => some 'V'
  | help => some 'h'
  | _ => none

def takesValue : Switch → Bool
  | config | output | extraVars => true
  | _ => false

def accepts (value : Text) : Switch → Bool
  | config => !value.isEmpty
  | output => ["text".toList, "json".toList, "yaml".toList].contains value
  | _ => true

/-- The options that may stand in front of the command and behind it. -/
def global : List Switch :=
  [config, trimBlocks, lstripBlocks, keepTrailingNewline, verbose, help]

end Switch

/-- An argument by its form. An option may bring its value along. -/
inductive Argument where
  | word (text : Text)
  | option (switch : Switch) (value : Option Text)
  | separator
  | unknown
deriving DecidableEq

/-- The form of an argument where the given options are known. -/
def Argument.ofText (known : List Switch) (text : Text) : Argument :=
  match text with
  | ['-', '-'] => .separator
  | '-' :: '-' :: rest =>
      let name := rest.takeWhile (· != '=')
      let value := if name.length < rest.length then some (rest.drop (name.length + 1)) else none
      match known.find? fun switch => switch.long == name with
      | some switch => if switch.takesValue || value.isNone then .option switch value else .unknown
      | none => .unknown
  | '-' :: letter :: rest =>
      match known.find? fun switch => switch.letter? == some letter with
      | some switch =>
          if !switch.takesValue || rest.isEmpty then .option switch none
          else .option switch (some (if rest.head? = some '=' then rest.drop 1 else rest))
      | none => .unknown
  | text => .word text

structure Reading where
  options : List (Switch × Text) := []
  words : List Text := []

namespace Reading

/-- Adds an option, which must not be there already. -/
def withOption (reading : Reading) (switch : Switch) (value : Text) : Except Stop Reading :=
  if switch = .version then .error .version
  else if switch = .help then .error .help
  else if (reading.options.lookup switch).isSome || !switch.accepts value then .error .usage
  else .ok { reading with options := (switch, value) :: reading.options }

def has (reading : Reading) (switch : Switch) : Bool :=
  (reading.options.lookup switch).isSome

end Reading

def mayBeValue (text : Text) : Bool :=
  text.head? != some '-' || text == ['-']

/-- Reads options up to the first word. Nothing but a word may follow a separator. -/
def readOptions (known : List Switch) : Reading → List Text → Except Stop (Reading × List Text)
  | reading, [] => .ok (reading, [])
  | reading, text :: rest =>
      match Argument.ofText known text with
      | .unknown | .separator => .error .usage
      | .word _ => .ok (reading, text :: rest)
      | .option switch value =>
          match switch.takesValue && value.isNone, rest with
          | true, value :: rest =>
              if mayBeValue value then do
                readOptions known (← reading.withOption switch value) rest
              else .error .usage
          | true, [] => .error .usage
          | false, rest => do
              readOptions known (← reading.withOption switch (value.getD [])) rest

/-- Reads options and words up to the end. Behind a separator there are only words. -/
def readAll (known : List Switch) : Reading → List Text → Except Stop Reading
  | reading, [] => .ok reading
  | reading, text :: rest =>
      match Argument.ofText known text with
      | .unknown => .error .usage
      | .separator => .ok { reading with words := reading.words ++ rest }
      | .word text => readAll known { reading with words := reading.words ++ [text] } rest
      | .option switch value =>
          match switch.takesValue && value.isNone, rest with
          | true, value :: rest =>
              if mayBeValue value then do
                readAll known (← reading.withOption switch value) rest
              else .error .usage
          | true, [] => .error .usage
          | false, rest => do
              readAll known (← reading.withOption switch (value.getD [])) rest

end JinjaLayout.CommandLine
