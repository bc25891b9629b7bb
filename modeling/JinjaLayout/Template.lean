import JinjaLayout.Alignment.Statement
import JinjaLayout.Error
import JinjaLayout.Grammar.Statement
import JinjaLayout.Writing.Statement

namespace JinjaLayout.Template

def tokens (env : Environment) (name : Option String) (source : Text) :
    Except TemplateError TokenTable :=
  (TokenTable.build env name source).mapError (TemplateError.ofTableFault name)

def ofLexemes (name : Option String) (lexemes : List Lexeme) : Except TemplateError Template :=
  (Grammar.template lexemes).mapError (TemplateError.malformed name)

def parse (env : Environment) (name : Option String) (source : Text) :
    Except TemplateError Template := do
  ofLexemes name (← tokens env name source).lexemes

/-- Gives a template the layout of the source with the given tokens. -/
def annotateWith (table : TokenTable) (template : Template) : Except TemplateError Template :=
  (Alignment.annotate table.tokens template).mapError fun
    | .diverged divergence => .diverged table.name divergence
    | .tooDeep => .tooDeep

def annotate (env : Environment) (source : Text) (template : Template) :
    Except TemplateError (Template × TokenTable) := do
  let table ← tokens env none source
  return (← annotateWith table template, table)

def parseAnnotated (env : Environment) (name : Option String) (source : Text) :
    Except TemplateError (Template × TokenTable) := do
  let table ← tokens env name source
  let template ← ofLexemes name table.lexemes
  return (← annotateWith table template, table)

def dump (env : Environment) (template : Template) : Except TemplateError Text :=
  (Writing.dump env template).elim (.error .tooDeep) .ok

def reformat (env : Environment) (source : Text) : Except TemplateError Text := do
  let (template, _) ← parseAnnotated env none source
  dump env template

end JinjaLayout.Template
