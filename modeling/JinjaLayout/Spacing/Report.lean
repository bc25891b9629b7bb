import JinjaLayout.Spacing.Passes

namespace JinjaLayout.Spacing

/-- What the spacing check finds: the text with the preferred spacing, or why the text cannot be cut
into tokens. -/
inductive Report where
  | spacing (reformatted : Text)
  | invalid (fault : SyntaxFault)

namespace Report

def tag : Report → Text
  | spacing _ => "spacing"
  | invalid _ => "invalid"

/-- The text with the preferred spacing, empty when there is none. -/
def reformatted : Report → Text
  | spacing text => text
  | invalid _ => []

/-- Whether the text that was checked has the preferred spacing. -/
def isClean (text : Text) : Report → Bool
  | spacing reformatted => reformatted == text
  | invalid _ => false

def details (text : Text) : Report → Text
  | spacing reformatted =>
      if reformatted = text then []
      else "Jinja2 spacing could be improved: ".toList ++ text ++ " -> ".toList ++ reformatted
  | invalid fault => fault.message.toList

end Report

def check (text : Text) : Report :=
  match scan .spacingCheck (Text.normalizeNewlines text) with
  | .ok pieces =>
      .spacing ((respaced (pieces.map Token.ofPiece)).flatMap Token.text)
  | .error error => .invalid error.fault

end JinjaLayout.Spacing
