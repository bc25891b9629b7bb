import JinjaLayout.Text.Quoted
import JinjaLayout.Text.StringLiteral
import JinjaLayout.Token.Scan

namespace JinjaLayout

/-- A piece with its place in the source. The partner of a bracket or delimiter is the index of the
token it is paired with; only significant tokens have a lexeme. -/
structure Token where
  index : Nat
  start : Nat
  stop : Nat
  line : Nat
  kind : TokenKind
  text : Text
  lexeme : Option Lexeme
  partner : Option Nat
  chomp : Chomp
deriving DecidableEq, Inhabited

namespace Token

def isSignificant (token : Token) : Bool :=
  token.lexeme.isSome

def describe (token : Token) : String :=
  "#" ++ toString token.index ++ " " ++ token.kind.label ++ " " ++ (Text.quoted token.text).asString

def opens (token : Token) : Bool :=
  token.kind.isBegin ||
    (token.kind == .operator && ["(".toList, "[".toList, ['{']].contains token.text)

/-- Whether the token may be the partner of an earlier one. -/
def closes (token : Token) : Bool :=
  token.kind.isEnd ||
    (token.kind == .operator && [")".toList, "]".toList, ['}']].contains token.text)

def matchesOpener (token opener : Token) : Bool :=
  if token.kind == .operator then
    opener.kind == .operator &&
      [("(".toList, ")".toList), ("[".toList, "]".toList), (['{'], ['}'])].contains
        (opener.text, token.text)
  else opener.kind.closing? == some token.kind

end Token

/-- The lexeme of a piece; none for blanks, comments and the marks of raw blocks. -/
def Piece.lexeme? (piece : Piece) : Except SyntaxError (Option Lexeme) :=
  match piece.kind with
  | .initial | .whitespace | .commentBegin | .comment | .commentEnd | .lineCommentBegin
  | .lineComment | .lineCommentEnd | .rawBegin | .rawEnd => .ok none
  | .lineStatementBegin => .ok (some ⟨piece.line, .blockBegin, piece.text⟩)
  | .lineStatementEnd => .ok (some ⟨piece.line, .blockEnd, piece.text⟩)
  | .string =>
      match Text.unescape piece.text with
      | .ok value => .ok (some ⟨piece.line, .string, value⟩)
      | .error fault => .error ⟨piece.line, fault⟩
  | .integer | .float => .ok (some ⟨piece.line, piece.kind, piece.text.filter (· != '_')⟩)
  | kind => .ok (some ⟨piece.line, kind, piece.text⟩)

/-- The whitespace control that a delimiter carries. -/
def Piece.chomp (env : Environment) (piece : Piece) : Chomp :=
  let afterStart (start : Text) := Chomp.ofChar? ((Text.after? start piece.text).bind List.head?)
  let beforeEnd (stop : Text) := Chomp.ofChar? ((Text.before? stop piece.text).bind List.getLast?)
  match piece.kind with
  | .blockBegin | .rawBegin => afterStart env.blockStart
  | .variableBegin => afterStart env.variableStart
  | .commentBegin => afterStart env.commentStart
  | .blockEnd | .rawEnd => beforeEnd env.blockEnd
  | .variableEnd => beforeEnd env.variableEnd
  | .commentEnd => beforeEnd env.commentEnd
  | _ => .none

inductive TableFault where
  | malformed (error : SyntaxError)
  | unlocated (kind : TokenKind) (text : Text) (offset : Nat)
deriving DecidableEq

structure TokenTable where
  name : Option String
  source : Text
  tokens : List Token

namespace TokenTable

def initialToken : Token :=
  ⟨0, 0, 0, 1, .initial, [], none, none, .none⟩

def eofToken (index offset line : Nat) (rest : Text) : Token :=
  ⟨index, offset, offset + Text.byteLength rest, line, .eof, rest, some ⟨line, .eof, []⟩, none,
    .none⟩

/-- Locates each piece in the text after the one before it. The result ends with the token for the
end of the template. -/
def locate (env : Environment) (index offset line : Nat) (rest : Text) :
    List Piece → Except TableFault (List Token)
  | [] => .ok [eofToken index offset line rest]
  | piece :: pieces =>
      match Text.position? piece.text rest with
      | none => .error (.unlocated piece.kind piece.text offset)
      | some skipped =>
          match piece.lexeme? with
          | .error error => .error (.malformed error)
          | .ok lexeme =>
              let start := offset + Text.byteLength (rest.take skipped)
              let stop := start + Text.byteLength piece.text
              let token : Token :=
                ⟨index, start, stop, piece.line, piece.kind, piece.text, lexeme, none,
                  piece.chomp env⟩
              (locate env (index + 1) stop (piece.line + Text.lineBreaks piece.text)
                (rest.drop (skipped + piece.text.length)) pieces).map (token :: ·)

/-- The pairs of opening and closing tokens. The stack holds the open tokens, innermost first; a
closing token that does not match the innermost one has no partner. -/
def pairings : List Token → List Token → List (Nat × Nat)
  | _, [] => []
  | stack, token :: tokens =>
      if token.opens then pairings (token :: stack) tokens
      else if token.closes then
        match stack with
        | [] => pairings [] tokens
        | opener :: outer =>
            if token.matchesOpener opener then
              (opener.index, token.index) :: pairings outer tokens
            else pairings (opener :: outer) tokens
      else pairings stack tokens

def partner? (pairs : List (Nat × Nat)) (index : Nat) : Option Nat :=
  pairs.findSome? fun pair =>
    if pair.1 = index then some pair.2 else if pair.2 = index then some pair.1 else none

def withPartners (tokens : List Token) : List Token :=
  let pairs := pairings [] tokens
  tokens.map fun token => { token with partner := partner? pairs token.index }

def build (env : Environment) (name : Option String) (source : Text) :
    Except TableFault TokenTable :=
  let source := Text.normalizeNewlines source
  match scan env source with
  | .error error => .error (.malformed error)
  | .ok pieces =>
      (locate env 1 0 1 source pieces).map fun tokens =>
        ⟨name, source, withPartners (initialToken :: tokens)⟩

/-- What the grammar reads, up to the end of the template. -/
def lexemes (table : TokenTable) : List Lexeme :=
  table.tokens.filterMap Token.lexeme

end TokenTable

end JinjaLayout
