import JinjaLayout.Pattern.Replace
import JinjaLayout.Rendering.Grammar
import JinjaLayout.Text.Uppercase
import JinjaLayout.Value.Text

/-!
The values of expressions. A name without a value is undefined: it prints as nothing, and nothing
can be looked up in it. A fault is reported on the line of the last name or literal of the part that
was evaluated.
-/

namespace JinjaLayout.Rendering

abbrev Evaluation := Except RenderFault

/-- What the names in a template stand for. -/
abbrev Bindings := List (Text × Value)

def stop {α : Type} (line : Nat) (kind : RenderFaultKind) : Evaluation α :=
  .error ⟨kind, none, some line⟩

def stopWith {α : Type} (line : Nat) (kind : RenderFaultKind) (detail : Text) : Evaluation α :=
  .error ⟨kind, some detail, some line⟩

/-- Stops at a construct that cannot be rendered. -/
def unrenderable {α : Type} (line : Nat) : Evaluation α :=
  .error (.unrendered line)

mutual

def isLiteral : Expr → Bool
  | .const .. => true
  | .list items _ => areLiterals items
  | .dict entries _ => areLiteralEntries entries
  | _ => false

def areLiterals : List Expr → Bool
  | [] => true
  | expr :: exprs => isLiteral expr && areLiterals exprs

def areLiteralEntries : List (Entry Expr) → Bool
  | [] => true
  | ⟨key, value, _⟩ :: entries => isLiteral key && isLiteral value && areLiteralEntries entries

end

mutual

/-- The line of the last name or literal in an expression. The outcomes of a condition come behind
its test. -/
def lastLine : Expr → Nat
  | .list items layout =>
      if areLiterals items then layout.line else lastLineOf layout.line items
  | .dict entries layout =>
      if areLiteralEntries entries then layout.line else lastEntryLine layout.line entries
  | .conditional _ whenTrue whenFalse _ => lastLineIn (lastLine whenTrue) whenFalse
  | .binary _ _ right _ => lastLine right
  | .unary _ operand _ _ | .attr operand _ _ => lastLine operand
  | .compare first others _ => lastOperandLine (lastLine first) others
  | .item _ index _ _ => lastLine index
  | .filter operand _ ⟨positional, keywords, _, _⟩ layout =>
      lastKeywordLine (lastLineOf (lastLineIn layout.line operand) positional) keywords
  | expr => expr.layout.line

def lastLineIn (line : Nat) : Option Expr → Nat
  | none => line
  | some expr => lastLine expr

def lastLineOf (line : Nat) : List Expr → Nat
  | [] => line
  | expr :: exprs => lastLineOf (lastLine expr) exprs

def lastEntryLine (line : Nat) : List (Entry Expr) → Nat
  | [] => line
  | ⟨_, value, _⟩ :: entries => lastEntryLine (lastLine value) entries

def lastOperandLine (line : Nat) : List (Operand Expr) → Nat
  | [] => line
  | ⟨_, value, _⟩ :: others => lastOperandLine (lastLine value) others

def lastKeywordLine (line : Nat) : List (Keyword Expr) → Nat
  | [] => line
  | ⟨_, value, _⟩ :: keywords => lastKeywordLine (lastLine value) keywords

end

def ofConstant : Constant → Value
  | .none => .none
  | .bool value => .bool value
  | .int value => .int value
  | .float value => .float value
  | .str value => .str value

/-- The item at an index, counted from the end when the index is negative. -/
def itemAt? (items : List Value) (index : Int) : Option Value :=
  if 0 ≤ index then items[index.toNat]?
  else if (items.length : Int) + index < 0 then none
  else items[((items.length : Int) + index).toNat]?

/-- What a value that is not undefined holds under a key. -/
def found? (key : Value) : Value → Option Value
  | .list items => key.integer?.bind (itemAt? items)
  | .str text => key.integer?.bind (itemAt? (text.map fun c => .str [c]))
  | container => key.text?.bind fun key => container.entry? key

def lookup (line : Nat) (key : Option Value) : Option Value → Evaluation (Option Value)
  | none => stop line .undefinedValue
  | some container => return key.bind fun key => found? key container

def printed (value : Option Value) : Text :=
  value.elim [] Value.printed

def isTruthy (value : Option Value) : Bool :=
  value.any Value.isTruthy

def isSame : Option Value → Option Value → Bool
  | none, none => true
  | some a, some b => a.isSame b
  | _, _ => false

def holds (line : Nat) (op : CompareOp) (left right : Option Value) : Evaluation Bool :=
  match op with
  | .eq => return isSame left right
  | .ne => return !isSame left right
  | _ => unrenderable line

def opposite (line : Nat) : Option Value → Evaluation (Option Value)
  | some (.int value) => return some (.int (-value))
  | some (.float value) => return some (.float (.ofBits (!value.isNegative) value.magnitude))
  | _ => stop line .invalidOperation

def replaceMatches (line : Nat) (value pattern replacement : Option Value) :
    Evaluation (Option Value) :=
  match value.bind Value.text?, pattern.bind Value.text?, replacement.bind Value.text? with
  | some text, some pattern, some replacement =>
      match Pattern.ofText pattern with
      | .ok named => return some (.str (named.replaceAll text replacement))
      | .error fault =>
          stopWith line .invalidOperation ("Invalid regex: ".toList ++ fault.message pattern)
  | _, _, _ => stopWith line .invalidOperation "regex_replace takes string arguments"

def demanded (line : Nat) (value message : Option Value) : Evaluation (Option Value) :=
  match value with
  | none | some .none =>
      stopWith line .undefinedValue
        ((message.bind Value.text?).getD "Mandatory variable not defined".toList)
  | some value => return some value

/-- The filters that take part in the language and are not rendered. -/
def unrenderedFilters : List String :=
  ["abs", "attr", "batch", "bool", "capitalize", "chain", "default", "d", "dictsort", "e", "escape",
    "first", "float", "format", "groupby", "indent", "int", "items", "join", "last", "length",
    "lines", "list", "lower", "map", "max", "min", "pprint", "reject", "rejectattr", "replace",
    "reverse", "round", "safe", "select", "selectattr", "slice", "sort", "split", "string", "sum",
    "title", "tojson", "trim", "unique", "urlencode", "zip", "count"]

def filtered (line : Nat) (name : Text) (value : Option Value) (arguments : List (Option Value)) :
    Evaluation (Option Value) :=
  match name.asString, arguments with
  | "upper", [] => return some (.str (Text.uppercase (printed value)))
  | "mandatory", [] => demanded line value none
  | "mandatory", [message] => demanded line value message
  | "regex_replace", [pattern, replacement] => replaceMatches line value pattern replacement
  | "regex_replace", [] | "regex_replace", [_] => stop line .missingArgument
  | "upper", _ | "mandatory", _ | "regex_replace", _ => stop line .excessArgument
  | word, _ =>
      if unrenderedFilters.contains word then unrenderable line
      else stopWith line .unknownFilter ("filter ".toList ++ name ++ " is unknown".toList)

/-- A dictionary with one more entry; its keys are in order and a later value replaces an earlier
one. -/
def withEntry (key : Text) (value : Value) : List (Text × Value) → List (Text × Value)
  | [] => [(key, value)]
  | (other, found) :: entries =>
      if key = other then (key, value) :: entries
      else if Text.isBefore key other then (key, value) :: (other, found) :: entries
      else (other, found) :: withEntry key value entries

mutual

def evaluate (bindings : Bindings) : Expr → Evaluation (Option Value)
  | .name ident _ _ => return bindings.lookup ident
  | .const value _ => return some (ofConstant value)
  | .data text _ => return some (.str text)
  | .list items _ => do
      return some (.list ((← evaluateAll bindings items).map (·.getD .none)))
  | .dict entries layout => do
      return some (.dict (← evaluateEntries bindings layout.line entries))
  | .attr operand key _ => do
      lookup (lastLine operand) (some (.str key)) (← evaluate bindings operand)
  | .item operand index _ _ => do
      let container ← evaluate bindings operand
      lookup (lastLine index) (← evaluate bindings index) container
  | .compare first others _ => do
      compared bindings (← evaluate bindings first) others
  | .unary .not operand _ _ => do
      return some (.bool (!isTruthy (← evaluate bindings operand)))
  | .unary .neg operand _ _ => do opposite (lastLine operand) (← evaluate bindings operand)
  | .binary .and left right _ => do
      let value ← evaluate bindings left
      if isTruthy value then evaluate bindings right else return value
  | .binary .or left right _ => do
      let value ← evaluate bindings left
      if isTruthy value then return value else evaluate bindings right
  | .conditional test whenTrue whenFalse _ => do
      if isTruthy (← evaluate bindings test) then evaluate bindings whenTrue
      else evaluateIn bindings whenFalse
  | .filter (some operand) name ⟨positional, keywords, none, none⟩ _ => do
      let line := lastKeywordLine (lastLineOf (lastLine operand) positional) keywords
      let value ← evaluate bindings operand
      let arguments ← evaluateAll bindings positional
      let options ← evaluateKeywords bindings keywords
      filtered line name value
        (if options.isEmpty then arguments else arguments ++ [some (.dict options)])
  | expr => unrenderable expr.layout.line

def evaluateIn (bindings : Bindings) : Option Expr → Evaluation (Option Value)
  | none => return none
  | some expr => evaluate bindings expr

/-- The values of expressions, from the first to the last. -/
def evaluateAll (bindings : Bindings) : List Expr → Evaluation (List (Option Value))
  | [] => return []
  | expr :: exprs => do
      let value ← evaluate bindings expr
      return value :: (← evaluateAll bindings exprs)

/-- The entries of a dictionary, whose keys have to be strings. -/
def evaluateEntries (bindings : Bindings) (line : Nat) :
    List (Entry Expr) → Evaluation (List (Text × Value))
  | [] => return []
  | ⟨key, value, _⟩ :: entries => do
      let found ← evaluate bindings key
      let value ← evaluate bindings value
      let others ← evaluateEntries bindings line entries
      match found with
      | some (.str key) =>
          return if (others.lookup key).isSome then others
            else withEntry key (value.getD .none) others
      | _ => unrenderable line

def evaluateKeywords (bindings : Bindings) :
    List (Keyword Expr) → Evaluation (List (Text × Value))
  | [] => return []
  | ⟨key, value, _⟩ :: keywords => do
      let value ← evaluate bindings value
      return (key, value.getD .none) :: (← evaluateKeywords bindings keywords)

/-- Whether each value of a chain compares with the next one, up to the first that does not. -/
def compared (bindings : Bindings) (left : Option Value) :
    List (Operand Expr) → Evaluation (Option Value)
  | [] => return some (.bool true)
  | ⟨op, operand, _⟩ :: others => do
      let right ← evaluate bindings operand
      if ← holds (lastLine operand) op left right then
        compared bindings right others
      else return some (.bool false)

end

end JinjaLayout.Rendering
