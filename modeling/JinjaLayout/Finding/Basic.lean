import JinjaLayout.Finding.Scalar
import JinjaLayout.Spacing.Report
import JinjaLayout.Value.Json

namespace JinjaLayout

/-- A template whose spacing could be better, or that cannot be read. -/
structure Finding where
  path : Text
  tag : Text
  details : Text
  reformatted : Option Text

/-- How findings are written. -/
inductive ReportFormat where
  | text
  | json
  | yaml
deriving DecidableEq, Inhabited

namespace ReportFormat

def word : ReportFormat → String
  | text => "text"
  | json => "json"
  | yaml => "yaml"

def ofWord? (word : String) : Option ReportFormat :=
  [text, json, yaml].find? fun format => format.word == word

def ofName (name : String) : Except String ReportFormat :=
  match ofWord? name.toLower with
  | some format => .ok format
  | none => .error ("Unknown output format: " ++ name)

end ReportFormat

namespace Finding

def ofText? (path text : Text) : Option Finding :=
  let report := Spacing.check text
  if report.isClean text then none
  else some
    { path
      tag := report.tag
      details := report.details text
      reformatted := match report with
        | .spacing reformatted => some reformatted
        | .invalid _ => none }

def fields (finding : Finding) : List (Text × Text) :=
  [("path".toList, finding.path), ("tag".toList, finding.tag),
    ("details".toList, finding.details)] ++
    finding.reformatted.toList.map fun text => ("reformatted".toList, text)

def line (finding : Finding) : Text :=
  finding.path ++ ": jinja[".toList ++ finding.tag ++ "]: ".toList ++ finding.details ++ ['\n']

def toValue (finding : Finding) : Value :=
  .dict (finding.fields.map fun (key, text) => (key, .str text))

def yamlItem (finding : Finding) : Text :=
  let entry (field : Text × Text) : Text := field.1 ++ ':' :: ' ' :: scalar "    " field.2
  '-' :: ' ' :: Text.joined "  " (finding.fields.map entry)

def report (format : ReportFormat) (findings : List Finding) : Text :=
  match format with
  | .text => findings.flatMap line
  | .json => (Value.list (findings.map toValue)).toJson 0 ++ ['\n']
  | .yaml => if findings.isEmpty then "[]\n" else findings.flatMap yamlItem

end Finding

end JinjaLayout
