import JinjaLayout.Token.Table
import JinjaLayout.Value.Json

namespace JinjaLayout

def Lexeme.toValue (lexeme : Lexeme) : Value :=
  .dict
    [("lineno".toList, .nat lexeme.line), ("kind".toList, .str lexeme.kind.label.toList),
      ("value".toList, .str lexeme.value)]

def Token.toValue (token : Token) : Value :=
  .dict
    [("index".toList, .nat token.index), ("start_pos".toList, .nat token.start),
      ("end_pos".toList, .nat token.stop), ("lineno".toList, .nat token.line),
      ("kind".toList, .str token.kind.label.toList), ("value_str".toList, .str token.text),
      ("jinja".toList, token.lexeme.elim .none Lexeme.toValue),
      ("pair".toList, token.partner.elim .none Value.nat),
      ("chomp".toList, .str token.chomp.sign)]

def TokenTable.report (table : TokenTable) : Text :=
  (Value.list (table.tokens.map Token.toValue)).toJson 0 ++ ['\n']

end JinjaLayout
