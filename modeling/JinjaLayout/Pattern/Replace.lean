import JinjaLayout.Pattern.Reader

/-!
Replacing every match of a pattern. In the replacement a dollar sign and a number or a name stand
for what a group has matched, and two dollar signs for one.
-/

namespace JinjaLayout.NamedPattern

/-- What the group with the given number or name has matched; nothing for a group that is not
there. Number zero is the whole match. -/
def groupText (names : List (Text × Nat)) (groups : List (Nat × Text)) (name : Text) : Text :=
  let index := match Text.unsigned? 10 name with
    | some index => some index
    | none => names.lookup name
  (index.bind fun index => groups.lookup index).getD []

/-- A character of a group name that stands without braces. -/
def isNameChar (c : Char) : Bool :=
  c.isAlphanum || c == '_'

def expandWithin (groupText : Text → Text) : Nat → Text → Text
  | 0, _ => []
  | bound + 1, text =>
      match text with
      | [] => []
      | '$' :: '$' :: rest => '$' :: expandWithin groupText bound rest
      | '$' :: '{' :: rest =>
          let name := rest.takeWhile (· != '}')
          if name.length < rest.length then
            groupText name ++ expandWithin groupText bound (rest.drop (name.length + 1))
          else '$' :: expandWithin groupText bound ('{' :: rest)
      | '$' :: rest =>
          let name := rest.takeWhile isNameChar
          if name.isEmpty then '$' :: expandWithin groupText bound rest
          else groupText name ++ expandWithin groupText bound (rest.drop name.length)
      | c :: rest => c :: expandWithin groupText bound rest

def expand (names : List (Text × Nat)) (groups : List (Nat × Text)) (replacement : Text) : Text :=
  expandWithin (groupText names groups) (replacement.length + 1) replacement

/-- Replaces the matches in the rest of a text, which stands behind the given character. An empty
match right behind the last one does not count. The first argument bounds the number of steps. -/
def replaceFrom (named : NamedPattern) (replacement : Text) :
    Nat → Option Char → Bool → Text → Text
  | 0, _, _, text => text
  | bound + 1, previous, behindMatch, text =>
      let found := (named.pattern.match? previous text).filter fun place =>
        !(behindMatch && place.rest.length == text.length)
      match found, text with
      | some place, _ =>
          let matched := text.take (text.length - place.rest.length)
          expand named.names ((0, matched) :: place.groups) replacement ++
            replaceFrom named replacement bound place.previous true place.rest
      | none, [] => []
      | none, c :: rest => c :: replaceFrom named replacement bound (some c) false rest

def replaceAll (named : NamedPattern) (text replacement : Text) : Text :=
  replaceFrom named replacement (2 * text.length + 2) none false text

end JinjaLayout.NamedPattern
