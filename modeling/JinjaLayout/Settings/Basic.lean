import JinjaLayout.Error
import JinjaLayout.Settings.Document

/-!
The settings of an environment, one entry for each. An entry with another name says nothing, and
none of the settings may be given twice.
-/

namespace JinjaLayout

namespace Settings

def Node.text? : Node → Option Text
  | scalar _ text => some text
  | collection => none

/-- A setting that may be absent. -/
def Node.optionalText? : Node → Option (Option Text)
  | scalar true text =>
      if ["".toList, "null".toList, "Null".toList, "NULL".toList, "~".toList].contains text then
        some none
      else some (some text)
  | scalar false text => some (some text)
  | collection => none

/-- A setting that is on or off. -/
def Node.bool? : Node → Option Bool
  | scalar true text =>
      if ["true".toList, "True".toList, "TRUE".toList].contains text then some true
      else if ["false".toList, "False".toList, "FALSE".toList].contains text then some false
      else none
  | _ => none

/-- The environment after one setting, nothing if the setting has the wrong type. -/
def withSetting? (env : Environment) (name : String) (node : Node) : Option Environment :=
  match name with
  | "block_start_string" => node.text?.map fun text => { env with blockStart := text }
  | "block_end_string" => node.text?.map fun text => { env with blockEnd := text }
  | "variable_start_string" => node.text?.map fun text => { env with variableStart := text }
  | "variable_end_string" => node.text?.map fun text => { env with variableEnd := text }
  | "comment_start_string" => node.text?.map fun text => { env with commentStart := text }
  | "comment_end_string" => node.text?.map fun text => { env with commentEnd := text }
  | "line_statement_prefix" =>
      node.optionalText?.map fun mark => { env with lineStatementMark := mark }
  | "line_comment_prefix" => node.optionalText?.map fun mark => { env with lineCommentMark := mark }
  | "trim_blocks" => node.bool?.map fun isOn => { env with trimBlocks := isOn }
  | "lstrip_blocks" => node.bool?.map fun isOn => { env with lstripBlocks := isOn }
  | "keep_trailing_newline" => node.bool?.map fun isOn => { env with keepTrailingNewline := isOn }
  | _ => some env

def names : List String :=
  ["block_start_string", "block_end_string", "variable_start_string", "variable_end_string",
    "comment_start_string", "comment_end_string", "line_statement_prefix", "line_comment_prefix",
    "trim_blocks", "lstrip_blocks", "keep_trailing_newline"]

def environment? (entries : List (Text × Node)) : Option Environment :=
  let known := (entries.map fun entry => entry.1.asString).filter names.contains
  if known.eraseDups.length < known.length then none
  else entries.foldlM (fun env (key, node) => withSetting? env key.asString node) {}

end Settings

def Environment.ofSettings (document : Text) : Except TemplateError Environment :=
  match (Settings.document? document).bind Settings.environment? with
  | none => .error .invalidSettings
  | some env =>
      match env.validate with
      | .ok () => .ok env
      | .error what => .error (.unsupported what)

end JinjaLayout
