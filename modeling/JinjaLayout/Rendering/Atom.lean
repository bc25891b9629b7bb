import JinjaLayout.Number.Double

namespace JinjaLayout.Rendering

/-- What a source is read as: text, the ends of tags, and inside of tags names, literals and
symbols. -/
inductive Atom where
  | data (text : Text)
  | valueStart
  | valueEnd
  | blockStart
  | blockEnd
  | name (ident : Text)
  | str (value : Text)
  | int (value : Nat)
  | float (value : Double)
  | symbol (text : Text)
deriving DecidableEq

namespace Atom

def words : Atom → String
  | data _ => "template-data"
  | valueStart => "start of variable block"
  | valueEnd => "end of variable block"
  | blockStart => "start of block"
  | blockEnd => "end of block"
  | name _ => "identifier"
  | str _ => "string"
  | int _ => "integer"
  | float _ => "float"
  | symbol text => "\x60" ++ text.asString ++ "\x60"

def symbols : List Text :=
  ["//".toList, "**".toList, "==".toList, "!=".toList, ">=".toList, "<=".toList, "+".toList,
    "-".toList, "*".toList, "/".toList, "%".toList, ".".toList, ",".toList, ":".toList, "~".toList,
    "|".toList, "=".toList, ">".toList, "<".toList, "(".toList, ")".toList, "[".toList, "]".toList,
    ['{'], ['}']]

end Atom

structure LocatedAtom where
  line : Nat
  atom : Atom

end JinjaLayout.Rendering
