import JinjaLayout.Text.StringLiteral
import JinjaLayout.Tree.Basic

/-!
Expressions as text. Parentheses are written where an operand binds more loosely than its place
asks for; a nesting that is too deep has no text.
-/

namespace JinjaLayout

/-- The literal of a constant. A float beyond all finite ones is written as a literal that is read
as infinity. -/
def Constant.text : Constant → Text
  | none => "none"
  | bool true => "true"
  | bool false => "false"
  | int value => (toString value).toList
  | float value =>
      if value.isNaN then "(1e999 * 0)"
      else if value.isInfinite then if value.isNegative then "-1e999" else "1e999"
      else value.text
  | str value => Text.literal value

namespace Writing

/-- How tightly an expression binds; the loosest comes first. -/
abbrev Strength := Nat

namespace Strength

def condition : Strength := 1

def disjunction : Strength := 2

def conjunction : Strength := 3

def negation : Strength := 4

def comparison : Strength := 5

def sum : Strength := 6

def concatenation : Strength := 7

def product : Strength := 8

def power : Strength := 9

def filter : Strength := 10

def sign : Strength := 11

def atom : Strength := 12

/-- How tightly a binary operator binds. -/
def ofBinary : BinaryOp → Strength
  | .or => disjunction
  | .and => conjunction
  | .add | .sub => sum
  | .mul | .div | .floorDiv | .mod => product
  | .pow => power

/-- How tightly a constant binds: a negative number is written with a sign. -/
def ofConstant : Constant → Strength
  | .int value => if value < 0 then sign else atom
  | .float value => if value.isNegative then sign else atom
  | _ => atom

/-- How tightly an expression binds. -/
def ofExpr : Expr → Strength
  | .conditional .. => condition
  | .binary op _ _ _ => ofBinary op
  | .unary .not operand inline _ => if inline && operand.isTest then filter else negation
  | .unary .. => sign
  | .compare .. => comparison
  | .concat .. => concatenation
  | .filter .. | .test .. => filter
  | .const value _ => ofConstant value
  | _ => atom

end Strength

/-- Writes an expression one level deeper where the given strength is asked for. -/
abbrev ExprWriter := Strength → Expr → Option Text

def commaSeparated (texts : List Text) : Text :=
  Text.joined ", " texts

def inParentheses (text : Text) : Text :=
  '(' :: (text ++ [')'])

def tupleItems (texts : List Text) : Text :=
  commaSeparated texts ++ if texts.length = 1 then [','] else []

/-- Whether a tuple is written without parentheses where that is possible: as in its source, or
unless it is read. -/
def isBare (context : Context) (layout : Layout) : Bool :=
  if layout.isAnnotated then layout.pairs.isEmpty else context != .load

def tupleOr (write : ExprWriter) (strength : Strength) (expr : Expr) : Option Text :=
  match expr with
  | .tuple items context layout =>
      if isBare context layout && !items.isEmpty then
        tupleItems <$> items.mapM (write strength)
      else write strength expr
  | expr => write strength expr

/-- The number of keyword arguments before the starred one: those that stood before it in the
source. -/
def starPosition (arguments : Arguments Expr) : Nat :=
  match arguments.star.bind fun star => star.layout.span with
  | some (start, _) =>
      arguments.keywords.findIdx fun keyword =>
        keyword.layout.span.any fun span => start < span.1
  | none => 0

def callArguments (write : ExprWriter) (arguments : Arguments Expr) : Option Text := do
  let positional ← arguments.positional.mapM (write Strength.condition)
  let keywords ← arguments.keywords.mapM fun keyword => do
    return keyword.key ++ '=' :: (← write Strength.condition keyword.value)
  let star ← arguments.star.toList.mapM fun star => do
    return '*' :: (← write Strength.condition star)
  let doubleStar ← arguments.doubleStar.toList.mapM fun star => do
    return '*' :: '*' :: (← write Strength.condition star)
  let place := starPosition arguments
  return inParentheses (commaSeparated
    (positional ++ keywords.take place ++ star ++ keywords.drop place ++ doubleStar))

/-- The arguments of a filter, unless there are none and no parentheses in the source. -/
def filterArguments (write : ExprWriter) (arguments : Arguments Expr) (layout : Layout) :
    Option Text :=
  if arguments.isEmpty && layout.pairs.isEmpty then some [] else callArguments write arguments

/-- The arguments of a test. A single atom needs no parentheses if there are none in the source. -/
def testArguments (write : ExprWriter) (arguments : Arguments Expr) (layout : Layout) :
    Option Text :=
  match arguments with
  | ⟨[argument], [], none, none⟩ =>
      if layout.pairs.isEmpty && Strength.atom ≤ Strength.ofExpr argument then do
        return ' ' :: (← write Strength.atom argument)
      else callArguments write arguments
  | arguments => filterArguments write arguments layout

/-- A test, with a negation written inside it or without. -/
def testText (write : ExprWriter) (negated : Bool) (operand : Expr) (name : Text)
    (arguments : Arguments Expr) (layout : Layout) : Option Text := do
  let operand ← write Strength.filter operand
  let arguments ← testArguments write arguments layout
  let word : Text := if negated then " is not " else " is "
  return operand ++ word ++ name ++ arguments

/-- An operator with blanks around it. -/
def spaced (symbol : Text) : Text :=
  ' ' :: (symbol ++ [' '])

def leftSide (write : ExprWriter) (strength : Strength) : Expr → Option Text
  | .binary op left right _ => do
      let own := Strength.ofBinary op
      let left ← leftSide write own left
      let right ← write (own + 1) right
      let text := left ++ spaced op.symbol ++ right
      return if own < strength then inParentheses text else text
  | expr => write strength expr

def entryText (write : ExprWriter) (entry : Entry Expr) : Option Text := do
  let key ← write Strength.condition entry.key
  let value ← write Strength.condition entry.value
  return key ++ ':' :: ' ' :: value

/-- A comparison operator and its right side. -/
def operandText (write : ExprWriter) (operand : Operand Expr) : Option Text := do
  return spaced operand.op.symbol ++ (← write Strength.sum operand.value)

/-- What follows an operand to take one of its items. -/
def indexText (write : ExprWriter) (index : Expr) (dotted : Bool) : Option Text :=
  match index, dotted with
  | .const (.int (.ofNat value)) _, true => some ('.' :: Nat.toDigits 10 value)
  | index, _ => do return '[' :: ((← tupleOr write Strength.condition index) ++ [']'])

/-- A part that may be missing, with a text before it. -/
def optionalText (write : ExprWriter) (before : Text) (expr : Option Expr) : Option Text :=
  match expr with
  | some expr => do return before ++ (← write Strength.condition expr)
  | none => some []

/-- An expression without parentheses around it. -/
def content (write : ExprWriter) : Expr → Option Text
  | .name ident _ _ => some ident
  | .member ident key _ => some (ident ++ '.' :: key)
  | .const value _ => some value.text
  | .data text _ => some text
  | .tuple items _ _ => do
      return inParentheses (tupleItems (← items.mapM (write Strength.condition)))
  | .list items _ => do
      return '[' :: (commaSeparated (← items.mapM (write Strength.condition)) ++ [']'])
  | .dict entries _ => do
      return '{' :: (commaSeparated (← entries.mapM (entryText write)) ++ ['}'])
  | .conditional test whenTrue whenFalse _ => do
      let whenTrue ← write Strength.disjunction whenTrue
      let test ← write Strength.disjunction test
      let whenFalse ← optionalText write " else " whenFalse
      return whenTrue ++ spaced "if" ++ test ++ whenFalse
  | .binary op left right _ => do
      let strength := Strength.ofBinary op
      let left ← leftSide write strength left
      let right ← write (strength + 1) right
      return left ++ spaced op.symbol ++ right
  | .unary .not (.test operand name arguments layout) true _ =>
      testText write true operand name arguments layout
  | .unary .not operand _ _ => do
      return "not ".toList ++ (← write Strength.negation operand)
  | .unary op operand _ _ => do return op.symbol ++ (← write Strength.sign operand)
  | .concat items _ => do
      return Text.joined (spaced "~") (← items.mapM (write Strength.product))
  | .compare first others _ => do
      let first ← write Strength.sum first
      return first ++ (← others.mapM (operandText write)).flatten
  | .attr operand key _ => do return (← write Strength.atom operand) ++ '.' :: key
  | .item operand index dotted _ => do
      return (← write Strength.atom operand) ++ (← indexText write index dotted)
  | .slice start stop step _ => do
      let start ← optionalText write [] start
      let stop ← optionalText write [] stop
      return start ++ ':' :: stop ++ (← optionalText write ":" step)
  | .filter operand name arguments layout => do
      let operand ← match operand with
        | some operand => do pure ((← write Strength.filter operand) ++ spaced "|")
        | none => some []
      return operand ++ name ++ (← filterArguments write arguments layout)
  | .test operand name arguments layout => testText write false operand name arguments layout
  | .call operand arguments _ => do
      return (← write Strength.atom operand) ++ (← callArguments write arguments)

/-- An expression that may nest the given number of levels. -/
def expression : Nat → ExprWriter
  | 0 => fun _ _ => none
  | levels + 1 => fun strength expr => do
      let text ← content (expression levels) expr
      return if Strength.ofExpr expr < strength then inParentheses text else text

end Writing

end JinjaLayout
