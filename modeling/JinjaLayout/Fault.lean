import JinjaLayout.Token.Lexeme

namespace JinjaLayout

/-- The deepest nesting of statements and expressions that is read, annotated or written. -/
def nestingLimit : Nat := 128

/-- Why a text is not a template. -/
inductive SyntaxFault where
  | missingRawEnd
  | missingCommentEnd
  | unexpectedEnd
  | unexpectedCloser (closer : Char)
  | mismatchedCloser (closer expected : Char)
  | unexpectedChar (char : Char) (offset : Nat)
  | invalidEscape (letter : Char) (digits : Text)
  | nestingExceeded
  | endedBefore (expected : String)
  | expectedToken (expected found : String)
  | unexpectedToken (found : String)
  | tagNameExpected
  | unknownTag (name : Text)
  | unclosedBody (endTags : List String)
  | hyphenatedBlockName
  | underscoredImport
  | requiredAfterDefault
  | callExpected
  | notAssignable (kind : String)
  | integerOutOfRange
  | invalidFloat
  | expressionExpected (found : String)
  | nameOrNumberExpected
  | invalidCall
  | chainedTests
  /-- A loop went on without reading anything. -/
  | stalled
deriving DecidableEq

def SyntaxFault.message : SyntaxFault → String
  | missingRawEnd => "missing end of raw directive"
  | missingCommentEnd => "missing end of comment tag"
  | unexpectedEnd => "unexpected end of template"
  | unexpectedCloser closer => "unexpected '" ++ closer.toString ++ "'"
  | mismatchedCloser closer expected =>
      "unexpected '" ++ closer.toString ++ "', expected '" ++ expected.toString ++ "'"
  | unexpectedChar char offset =>
      "unexpected char '" ++ char.toString ++ "' at " ++ toString offset
  | invalidEscape letter digits =>
      "invalid escape '\\" ++ letter.toString ++ digits.asString ++ "'"
  | nestingExceeded => "template nesting exceeds " ++ toString nestingLimit ++ " levels"
  | endedBefore expected => "unexpected end of template, expected " ++ expected
  | expectedToken expected found => "expected token " ++ expected ++ ", got " ++ found
  | unexpectedToken found => "unexpected " ++ found
  | tagNameExpected => "tag name expected"
  | unknownTag name => "Encountered unknown tag '" ++ name.asString ++ "'."
  | unclosedBody endTags =>
      "Unexpected end of template. Jinja was looking for the following tags: " ++
        " or ".intercalate (endTags.map fun tag => "'" ++ tag ++ "'") ++ "."
  | hyphenatedBlockName =>
      "Block names in Jinja have to be valid Python identifiers and may not contain hyphens, " ++
        "use an underscore instead."
  | underscoredImport => "names starting with an underline can not be imported"
  | requiredAfterDefault => "non-default argument follows default argument"
  | callExpected => "expected call"
  | notAssignable kind => "can't assign to " ++ kind
  | integerOutOfRange => "integer literal out of range"
  | invalidFloat => "invalid float literal"
  | expressionExpected found => "Expected an expression, got " ++ found
  | nameOrNumberExpected => "expected name or number"
  | invalidCall => "invalid syntax for function call expression"
  | chainedTests => "You cannot chain multiple tests with is"
  | stalled => "no progress"

structure SyntaxError where
  line : Nat
  fault : SyntaxFault
deriving DecidableEq

end JinjaLayout
