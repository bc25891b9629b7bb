import JinjaLayout.Alignment.Walk

namespace JinjaLayout.Alignment

/-- Annotates an expression one level deeper and gives the tokens it covers. -/
abbrev Visitor := Expr → Walking (Expr × (Nat × Nat))

def part (visit : Visitor) (expr : Expr) : Covering Expr := do
  let (expr, span) ← visit expr
  modify fun extent => extent.cover span
  return expr

/-- Annotates a part that may be missing. -/
def optionalPart (visit : Visitor) : Option Expr → Covering (Option Expr)
  | some expr => do return some (← part visit expr)
  | none => return none

def parts (visit : Visitor) (items : List Expr) : Covering (List Expr) :=
  items.mapM fun item => do
    let item ← part visit item
    consumeIfNext ","
    return item

def keyword (visit : Visitor) (node : Keyword Expr) : Covering (Keyword Expr) := do
  let (value, span) ← covering do
    consumeName node.key
    consumeOperator "="
    part visit node.value
  return { node with value, layout := { node.layout with span := some span } }

/-- Annotates an argument after a star or two, with a comma behind it. -/
def starred (visit : Visitor) (stars : Text) (expr : Expr) : Covering Expr := do
  consumeOperator stars
  let expr ← part visit expr
  consumeIfNext ","
  return expr

def starredHere (visit : Visitor) : Option Expr → Covering (Option Expr)
  | some expr => do if ← nextIs "*" then return some (← starred visit "*" expr) else return none
  | none => return none

/-- Annotates keyword arguments and the starred argument, which may stand between any two. -/
def keywords (visit : Visitor) (star : Option Expr) :
    List (Keyword Expr) → Covering (List (Keyword Expr) × Option Expr)
  | [] => do return ([], ← star.mapM (starred visit "*"))
  | node :: nodes => do
      match ← starredHere visit star with
      | some expr =>
          let others ← (node :: nodes).mapM single
          return (others, some expr)
      | none =>
          let node ← single node
          let (others, star) ← keywords visit star nodes
          return (node :: others, star)
where
  single (node : Keyword Expr) : Covering (Keyword Expr) := do
    let node ← keyword visit node
    consumeIfNext ","
    return node

def parentheses (opening closing : Token) : TagPair :=
  { opening, closing }

def callArguments (visit : Visitor) (arguments : Arguments Expr) :
    Covering (Arguments Expr × TagPair) := do
  let opening ← consume .operator (some "(")
  let positional ← parts visit arguments.positional
  let (keywords, star) ← keywords visit arguments.star arguments.keywords
  let doubleStar ← arguments.doubleStar.mapM (starred visit "**")
  let closing ← consume .operator (some ")")
  return ({ positional, keywords, star, doubleStar }, parentheses opening closing)

/-- Annotates the arguments of a filter if there are parentheses. -/
def optionalArguments (visit : Visitor) (arguments : Arguments Expr) :
    Covering (Arguments Expr × List TagPair) := do
  if ← nextIs "(" then
    let (arguments, pair) ← callArguments visit arguments
    return (arguments, [pair])
  else return (arguments, [])

/-- Annotates the arguments of a test; without parentheses there is at most one. -/
def testArguments (visit : Visitor) (arguments : Arguments Expr) :
    Covering (Arguments Expr × List TagPair) := do
  if ← nextIs "(" then
    let (arguments, pair) ← callArguments visit arguments
    return (arguments, [pair])
  else match arguments.positional with
    | [] => return (arguments, [])
    | first :: others =>
        return ({ arguments with positional := (← part visit first) :: others }, [])

/-- Takes the tokens of a literal; adjacent strings are one literal. -/
def literal : Constant → Covering Unit
  | .str _ => do
      let _ ← consume .string none
      let others := Cursor.leadingSignificant (fun token => Cursor.fits token .string none)
        (← getThe Walk).cursor.rest
      others.forM fun _ => do
        let _ ← consume .string none
  | .int _ => do let _ ← consume .integer none
  | .float _ => do let _ ← consume .float none
  | .bool _ | .none => do let _ ← consume .name none

def compareOperator : CompareOp → Covering Unit
  | .mem => consumeName "in"
  | .notMem => do
      consumeName "not"
      consumeName "in"
  | op => consumeOperator op.symbol

/-- Annotates one comparison of a chain. -/
def operand (visit : Visitor) (node : Operand Expr) : Covering (Operand Expr) := do
  let (value, span) ← covering do
    compareOperator node.op
    part visit node.value
  return { node with value, layout := { node.layout with span := some span } }

def entry (visit : Visitor) (node : Entry Expr) : Covering (Entry Expr) := do
  let ((key, value), span) ← covering do
    let key ← part visit node.key
    consumeOperator ":"
    let value ← part visit node.value
    return (key, value)
  consumeIfNext ","
  return { key, value, layout := { node.layout with span := some span } }

def operatorAndRight (visit : Visitor) (op : BinaryOp) (right : Expr) : Covering Expr := do
  if op.isWord then consumeName op.symbol else consumeOperator op.symbol
  part visit right

/-- Annotates the left side of a binary expression. The operators to the left are not one level
deeper each: all their operands stand on one level. -/
def leftSide (visit : Visitor) : Expr → Walking (Expr × (Nat × Nat))
  | .binary op left right layout => do
      let (left, span) ← leftSide visit left
      let walked ← (do
        modify fun extent => extent.cover span
        let right ← operatorAndRight visit op right
        let _ ← closeAllGroups
        let (layout, span) ← finish layout []
        return (.binary op left right layout, span) : Covering (Expr × (Nat × Nat))).run {}
      return walked.1
  | expr => visit expr

/-- Takes the word or sign of a unary operator, unless it is written inside a test. -/
def unaryOperator (op : UnaryOp) (inline : Bool) : Covering Unit :=
  match op, inline with
  | .not, true => return ()
  | .not, false => consumeName "not"
  | op, _ => consumeOperator op.symbol

def concatenated (visit : Visitor) : List Expr → Covering (List Expr)
  | [] => return []
  | first :: others => do
      let first ← part visit first
      let others ← others.mapM fun item => do
        consumeOperator "~"
        part visit item
      return first :: others

/-- Annotates the parts of an expression. Gives it with the pairs that belong to it; its own layout
is not finished. -/
def content (visit : Visitor) : Expr → Covering (Expr × List TagPair)
  | .name ident context layout => do
      consumeName ident
      return (.name ident context layout, [])
  | .member ident key layout => do
      consumeName ident
      consumeOperator "."
      consumeName key
      return (.member ident key layout, [])
  | .const value layout => do
      literal value
      return (.const value layout, [])
  | .data text layout => do
      let (skipped, token) ← seek .data
      modify fun extent => extent.take token.index
      return (.data text { layout with leading := textOf skipped }, [])
  | .tuple items context layout => do
      return (.tuple (← parts visit items) context layout, [])
  | .list items layout => do
      consumeOperator "["
      let items ← parts visit items
      consumeOperator "]"
      return (.list items layout, [])
  | .dict entries layout => do
      consumeOperator ['{']
      let entries ← entries.mapM (entry visit)
      consumeOperator ['}']
      return (.dict entries layout, [])
  | .conditional test whenTrue whenFalse layout => do
      let whenTrue ← part visit whenTrue
      consumeName "if"
      let test ← part visit test
      let whenFalse ← whenFalse.mapM fun expr => do
        consumeName "else"
        part visit expr
      return (.conditional test whenTrue whenFalse layout, [])
  | .binary op left right layout => do
      let left ← part (leftSide visit) left
      let right ← operatorAndRight visit op right
      return (.binary op left right layout, [])
  | .unary op operand inline layout => do
      unaryOperator op inline
      return (.unary op (← part visit operand) inline layout, [])
  | .concat items layout => do
      return (.concat (← concatenated visit items) layout, [])
  | .compare first others layout => do
      let first ← part visit first
      return (.compare first (← others.mapM (operand visit)) layout, [])
  | .attr operand key layout => do
      let operand ← part visit operand
      consumeOperator "."
      consumeName key
      return (.attr operand key layout, [])
  | .item operand index dotted layout => do
      let operand ← part visit operand
      consumeOperator (if dotted then "." else "[")
      let index ← part visit index
      if !dotted then consumeOperator "]"
      return (.item operand index dotted layout, [])
  | .slice start stop step layout => do
      let start ← optionalPart visit start
      consumeOperator ":"
      let stop ← optionalPart visit stop
      consumeIfNext ":"
      return (.slice start stop (← optionalPart visit step) layout, [])
  | .filter operand name arguments layout => do
      let operand ← optionalPart visit operand
      if operand.isSome then consumeOperator "|" else consumeIfNext "|"
      consumeDotted (Text.splitAt '.' name)
      let (arguments, pairs) ← optionalArguments visit arguments
      return (.filter operand name arguments layout, pairs)
  | .test operand name arguments layout => do
      let operand ← part visit operand
      consumeName "is"
      if ← nextFits .name (some "not") then consumeName "not"
      consumeDotted (Text.splitAt '.' name)
      let (arguments, pairs) ← testArguments visit arguments
      return (.test operand name arguments layout, pairs)
  | .call operand arguments layout => do
      let operand ← part visit operand
      let (arguments, pair) ← callArguments visit arguments
      return (.call operand arguments layout, [pair])

/-- Annotates an expression with the parentheses around it. A tuple keeps the innermost pair. -/
def grouped (visit : Visitor) (expr : Expr) : Walking (Expr × (Nat × Nat)) := do
  let walked ← (do
    openGroups
    let (expr, pairs) ← content visit expr
    let innermost ← closeAllGroups
    let own :=
      if expr.isTuple then innermost.toList.map fun (opening, closing) =>
        parentheses opening closing
      else []
    let (layout, span) ← finish expr.layout (pairs ++ own)
    return (expr.withLayout layout, span) : Covering (Expr × (Nat × Nat))).run {}
  return walked.1

/-- Annotates an expression that may nest the given number of levels. -/
def expression : Nat → Visitor
  | 0 => fun _ => throw .tooDeep
  | levels + 1 => grouped (expression levels)

end JinjaLayout.Alignment
