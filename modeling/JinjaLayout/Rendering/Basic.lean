import JinjaLayout.Error
import JinjaLayout.Rendering.Statement

namespace JinjaLayout

/-- An environment that templates can be rendered in: it has no line forms, and what starts a tag
tells what the tag is. -/
structure Engine where
  env : Environment

namespace Engine

def ofEnvironment (env : Environment) : Except TemplateError Engine :=
  if env.lineStatementMark.isSome || env.lineCommentMark.isSome then
    .error (.unsupported .renderingLineForms)
  else if env.blockStart = env.variableStart ∨ env.blockStart = env.commentStart ∨
      env.variableStart = env.commentStart then
    .error (.rendering { kind := .invalidDelimiters })
  else .ok ⟨env⟩

def render (engine : Engine) (bindings : Rendering.Bindings) (source : Text) :
    Except TemplateError Text :=
  let rendered := do
    Rendering.statements false bindings (← Rendering.Grammar.parse engine.env source)
  (rendered.map Rendering.Rendered.text).mapError .rendering

def rendersSame (engine : Engine) (bindings : Rendering.Bindings) (first second : Text) :
    Except TemplateError Bool := do
  let before ← engine.render bindings first
  let after ← engine.render bindings second
  return before == after

end Engine

end JinjaLayout
