import Mathlib
import JinjaLayout.Token.Cursor
import JinjaLayout.Tree.Basic

/-!
How expressions are spelled. A tree is related to its significant tokens, whatever precedence put
them in this order: each kind of expression has its parts and the tokens between them, and may stand
in parentheses. The relation is the least one that is closed under a layer of these rules. A marked
tree also knows the places of its tokens.
-/

namespace JinjaLayout

open List

namespace Token

/-- Whether the grammar reads the operator `symbol` here. -/
def isOperator (token : Token) (symbol : Text) : Bool :=
  Cursor.fits token .operator (some symbol)

def isName (token : Token) (word : Text) : Bool :=
  Cursor.fits token .name (some word)

/-- Whether the grammar reads a token of the category here. -/
def isKind (token : Token) (kind : TokenKind) : Bool :=
  Cursor.fits token kind none

end Token

/-- `spelling value ts us` says that the tokens `ts` spell the value where `us` come behind them. -/
abbrev Spelling (α : Type) := α → List Token → List Token → Prop

namespace Spelling

variable {α : Type}

/-- The first of the tokens, if there is one, is none of those. -/
def NotNext (those : Token → Bool) (us : List Token) : Prop :=
  ∀ token ∈ us.head?, those token = false

theorem notNext_append {those : Token → Bool} {ts us : List Token} (hne : ts ≠ []) :
    NotNext those (ts ++ us) ↔ NotNext those ts := by
  obtain ⟨token, ts, rfl⟩ := exists_cons_of_ne_nil hne
  simp [NotNext]

/-- Values with commas between them; one may follow the last. -/
inductive Listed (spelled : Spelling α) : Spelling (List α) where
  | nil {us} : Listed spelled [] [] us
  | last {value ts us} (hvalue : spelled value ts us) (hnext : NotNext (·.isOperator ",") us) :
      Listed spelled [value] ts us
  | more {value values comma ts ts' us} (hvalue : spelled value ts (comma :: (ts' ++ us)))
      (hcomma : comma.isOperator ",") (hvalues : Listed spelled values ts' us) :
      Listed spelled (value :: values) (ts ++ comma :: ts') us

/-- Values one after the other. -/
inductive Chained (spelled : Spelling α) : Spelling (List α) where
  | nil {us} : Chained spelled [] [] us
  | cons {value values ts ts' us} (hvalue : spelled value ts (ts' ++ us))
      (hvalues : Chained spelled values ts' us) : Chained spelled (value :: values) (ts ++ ts') us

theorem Chained.concat {spelled : Spelling α} {values : List α} {value : α}
    {ts ts' us : List Token} (h : Chained spelled values ts (ts' ++ us))
    (hvalue : spelled value ts' us) : Chained spelled (values ++ [value]) (ts ++ ts') us := by
  generalize hrest : ts' ++ us = rest at h
  induction h with
  | nil =>
      have hlast : Chained spelled [value] (ts' ++ []) us := .cons hvalue .nil
      rwa [append_nil] at hlast
  | cons hfirst _ ih =>
      subst hrest
      rw [← append_assoc] at hfirst
      simpa using Chained.cons hfirst (ih rfl)

/-- A value that may be missing. -/
inductive Possibly (spelled : Spelling α) : Spelling (Option α) where
  | none {us} : Possibly spelled none [] us
  | some {value ts us} (h : spelled value ts us) : Possibly spelled (some value) ts us

inductive Behind (front : Token → Bool) (spelled : Spelling α) : Spelling α where
  | mk {value token ts us} (htoken : front token) (h : spelled value ts us) :
      Behind front spelled value (token :: ts) us

section Mono

variable {spelled spelled' : Spelling α} {ts us : List Token}

theorem Listed.mono (h : ∀ value ts us, spelled value ts us → spelled' value ts us)
    {values : List α} (hvalues : Listed spelled values ts us) : Listed spelled' values ts us := by
  induction hvalues with
  | nil => exact .nil
  | last hvalue hnext => exact .last (h _ _ _ hvalue) hnext
  | more hvalue hcomma _ ih => exact .more (h _ _ _ hvalue) hcomma ih

theorem Chained.mono (h : ∀ value ts us, spelled value ts us → spelled' value ts us)
    {values : List α} (hvalues : Chained spelled values ts us) : Chained spelled' values ts us := by
  induction hvalues with
  | nil => exact .nil
  | cons hvalue _ ih => exact .cons (h _ _ _ hvalue) ih

theorem Possibly.mono (h : ∀ value ts us, spelled value ts us → spelled' value ts us)
    {value : Option α} (hvalue : Possibly spelled value ts us) : Possibly spelled' value ts us := by
  cases hvalue with
  | none => exact .none
  | some hvalue => exact .some (h _ _ _ hvalue)

theorem Behind.mono {front : Token → Bool}
    (h : ∀ value ts us, spelled value ts us → spelled' value ts us) {value : α}
    (hvalue : Behind front spelled value ts us) : Behind front spelled' value ts us := by
  cases hvalue with
  | mk htoken hvalue => exact .mk htoken (h _ _ _ hvalue)

end Mono

section Commas

inductive Commas (spelled : Spelling α) : Spelling (List α) where
  | nil {us} : Commas spelled [] [] us
  | cons {value values comma ts ts' us} (hvalue : spelled value ts (comma :: (ts' ++ us)))
      (hcomma : comma.isOperator ",") (hvalues : Commas spelled values ts' us) :
      Commas spelled (value :: values) (ts ++ comma :: ts') us

/-- Values with commas between them, where a comma or the end is due. -/
def Pending (spelled : Spelling α) : Spelling (List α) :=
  fun values ts us => ∃ before last ts' ts'', values = before ++ [last] ∧ ts = ts' ++ ts'' ∧
    Commas spelled before ts' (ts'' ++ us) ∧ spelled last ts'' us

variable {spelled : Spelling α} {values others : List α} {value : α} {comma : Token}
  {ts ts' us : List Token}

theorem Commas.listed (h : Commas spelled values ts (ts' ++ us))
    (hothers : Listed spelled others ts' us) : Listed spelled (values ++ others) (ts ++ ts') us := by
  generalize hrest : ts' ++ us = rest at h
  induction h with
  | nil => exact hothers
  | cons hvalue hcomma _ ih =>
      subst hrest
      rw [← append_assoc] at hvalue
      simpa using Listed.more hvalue hcomma (ih rfl)

theorem Commas.toListed (h : Commas spelled values ts us) : Listed spelled values ts us := by
  induction h with
  | nil => exact .nil
  | cons hvalue hcomma _ ih => exact .more hvalue hcomma ih

theorem Commas.concat (h : Commas spelled values ts (ts' ++ comma :: us))
    (hvalue : spelled value ts' (comma :: us)) (hcomma : comma.isOperator ",") :
    Commas spelled (values ++ [value]) (ts ++ (ts' ++ [comma])) us := by
  generalize hrest : ts' ++ comma :: us = rest at h
  induction h with
  | nil =>
      have hlast : Commas spelled [value] (ts' ++ comma :: []) us := .cons hvalue hcomma .nil
      exact hlast
  | @cons first _ firstComma ts more _ hfirst hfirstComma _ ih =>
      subst hrest
      have hnext := ih rfl
      have hfirst' : spelled first ts (firstComma :: ((more ++ (ts' ++ [comma])) ++ us)) := by
        simpa using hfirst
      simpa using Commas.cons hfirst' hfirstComma hnext

theorem Pending.first (h : spelled value ts us) : Pending spelled [value] ts us :=
  ⟨[], value, [], ts, rfl, rfl, .nil, h⟩

theorem Pending.listed (h : Pending spelled values ts us)
    (hnext : NotNext (·.isOperator ",") us) : Listed spelled values ts us := by
  obtain ⟨before, last, ts', ts'', rfl, rfl, hbefore, hlast⟩ := h
  exact hbefore.listed (.last hlast hnext)

theorem Pending.commas (h : Pending spelled values ts (comma :: us))
    (hcomma : comma.isOperator ",") : Commas spelled values (ts ++ [comma]) us := by
  obtain ⟨before, last, ts', ts'', rfl, rfl, hbefore, hlast⟩ := h
  rw [append_assoc]
  exact hbefore.concat hlast hcomma

theorem Pending.single (h : Pending spelled [value] ts us) : spelled value ts us := by
  obtain ⟨before, last, ts', ts'', hvalues, rfl, hbefore, hlast⟩ := h
  cases before with
  | nil =>
      cases hbefore
      obtain rfl : value = last := (cons.inj hvalues).1
      exact hlast
  | cons first before => simp at hvalues

theorem Commas.pending (h : Commas spelled values ts (ts' ++ us)) (hvalue : spelled value ts' us) :
    Pending spelled (values ++ [value]) (ts ++ ts') us :=
  ⟨values, value, ts, ts', rfl, rfl, h, hvalue⟩

inductive Tupled (spelled : Spelling α) : Spelling (List α) where
  | mk {first others comma ts ts' us} (hfirst : spelled first ts (comma :: (ts' ++ us)))
      (hcomma : comma.isOperator ",") (hothers : Listed spelled others ts' us) :
      Tupled spelled (first :: others) (ts ++ comma :: ts') us

theorem Tupled.mono {spelled' : Spelling α}
    (h : ∀ value ts us, spelled value ts us → spelled' value ts us)
    (hvalues : Tupled spelled values ts us) : Tupled spelled' values ts us := by
  cases hvalues with
  | mk hfirst hcomma hothers => exact .mk (h _ _ _ hfirst) hcomma (hothers.mono h)

theorem Commas.tupled (h : Commas spelled values ts (ts' ++ us)) (hne : values ≠ [])
    (hothers : Listed spelled others ts' us) : Tupled spelled (values ++ others) (ts ++ ts') us := by
  cases h with
  | nil => exact absurd rfl hne
  | cons hfirst hcomma hvalues =>
      rw [← append_assoc] at hfirst
      simpa using Tupled.mk hfirst hcomma (hvalues.listed hothers)

theorem Commas.toTupled (h : Commas spelled values ts us) (hne : values ≠ []) :
    Tupled spelled values ts us := by
  cases h with
  | nil => exact absurd rfl hne
  | cons hfirst hcomma hvalues => exact .mk hfirst hcomma hvalues.toListed

theorem Tupled.ne_nil (h : Tupled spelled values ts us) : ts ≠ [] := by
  cases h
  simp

theorem Listed.tupled {second : α} (h : Listed spelled (value :: second :: others) ts us) :
    Tupled spelled (value :: second :: others) ts us := by
  cases h with
  | more hfirst hcomma hothers => exact .mk hfirst hcomma hothers

end Commas

/-! ### The parts of expressions -/

/-- Where an expression stands: where it is read, in brackets behind an operand, at the start of a
block whose output is filtered, or where something is assigned to. -/
inductive Place where
  | value
  | index
  | filter
  | target (context : Context)
  | member
deriving DecidableEq

namespace Place

/-- How names and tuples are used at a place, if they may stand there. -/
def context? : Place → Option Context
  | value => some .load
  | target context => some context
  | _ => none

def takesFilters : Place → Bool
  | value | filter => true
  | _ => false

end Place

def spanOf (ts : List Token) : Nat × Nat :=
  ((ts.head?.map Token.index).getD 0, (ts.getLast?.map fun token => token.index + 1).getD 0)

def unaryFits (op : UnaryOp) (token : Token) : Bool :=
  if op = .not then token.isName op.symbol else token.isOperator op.symbol

def binaryFits (op : BinaryOp) (token : Token) : Bool :=
  if op.isWord then token.isName op.symbol else token.isOperator op.symbol

inductive Compares : CompareOp → List Token → Prop where
  | mem {token} (h : token.isName "in") : Compares .mem [token]
  | notMem {first second} (hfirst : first.isName "not")
      (hsecond : second.isName "in") : Compares .notMem [first, second]
  | symbol {op token} (hmem : op ≠ .mem) (hnot : op ≠ .notMem)
      (h : token.isOperator op.symbol) : Compares op [token]

/-- Names with points between them. -/
inductive Dotted : List Text → List Token → Prop where
  | last {word token} (h : token.isName word) : Dotted [word] [token]
  | more {word words token point ts} (h : token.isName word)
      (hpoint : point.isOperator ".") (hwords : Dotted words ts) :
      Dotted (word :: words) (token :: point :: ts)

theorem Dotted.concat {words : List Text} {word : Text} {ts : List Token} {point token : Token}
    (h : Dotted words ts) (hpoint : point.isOperator ".") (htoken : token.isName word) :
    Dotted (words ++ [word]) (ts ++ [point, token]) := by
  induction h with
  | last hword => exact .more hword hpoint (.last htoken)
  | more hword hfirst _ ih => exact .more hword hfirst ih

theorem Dotted.ne_nil {words : List Text} {ts : List Token} (h : Dotted words ts) : ts ≠ [] := by
  cases h <;> simp

theorem Dotted.exists_cons {words : List Text} {ts : List Token} (h : Dotted words ts) :
    ∃ word token rest, ts = token :: rest ∧ token.isName word := by
  cases h with
  | last htoken => exact ⟨_, _, _, rfl, htoken⟩
  | more htoken _ _ => exact ⟨_, _, _, rfl, htoken⟩

theorem splitAt_of_not_mem {separator : Char} {text : Text} (h : separator ∉ text) :
    Text.splitAt separator text = [text] := by
  induction text with
  | nil => rfl
  | cons c text ih =>
      rw [mem_cons, not_or] at h
      rw [Text.splitAt, if_neg (Ne.symm h.1), ih h.2]

theorem splitAt_ne_nil (separator : Char) (text : Text) : Text.splitAt separator text ≠ [] := by
  cases text with
  | nil => simp [Text.splitAt]
  | cons c text =>
      rw [Text.splitAt]
      split
      · simp
      · split <;> simp

theorem splitAt_append {separator : Char} (text : Text) {word : Text} (h : separator ∉ word) :
    Text.splitAt separator (text ++ separator :: word) = Text.splitAt separator text ++ [word] := by
  induction text with
  | nil => simp [Text.splitAt, splitAt_of_not_mem h]
  | cons c text ih =>
      rw [cons_append, Text.splitAt, Text.splitAt]
      split
      · rw [ih, cons_append]
      · obtain ⟨first, others, hsplit⟩ := exists_cons_of_ne_nil (splitAt_ne_nil separator text)
        rw [ih, hsplit]
        rfl

def constantKind : Constant → TokenKind
  | .none | .bool _ => .name
  | .int _ => .integer
  | .float _ => .float
  | .str _ => .string

/-- An argument at its place among the others. -/
inductive Argument where
  | positional (value : Expr)
  | keyword (keyword : Keyword Expr)
  | star (value : Expr)
  | doubleStar (value : Expr)

/-- The arguments in the order of the source: the starred one stands anywhere among the keywords. -/
inductive Arranged : Arguments Expr → List Argument → Prop where
  | plain {positional keywords doubleStar} :
      Arranged ⟨positional, keywords, none, doubleStar⟩
        (positional.map .positional ++
          (keywords.map .keyword ++ doubleStar.toList.map .doubleStar))
  | starred {positional before after star doubleStar} :
      Arranged ⟨positional, before ++ after, some star, doubleStar⟩
        (positional.map .positional ++
          (before.map .keyword ++
            .star star :: (after.map .keyword ++ doubleStar.toList.map .doubleStar)))

section Arranged

variable {positional : List Expr} {keywords : List (Keyword Expr)} {star doubleStar : Option Expr}
  {items : List Argument}

theorem Arranged.add_positional (h : Arranged ⟨positional, keywords, none, none⟩ items)
    (hkeywords : keywords = []) (value : Expr) :
    Arranged ⟨positional ++ [value], keywords, none, none⟩ (items ++ [.positional value]) := by
  cases h
  subst hkeywords
  simpa using @Arranged.plain (positional ++ [value]) [] none

theorem Arranged.add_keyword (h : Arranged ⟨positional, keywords, star, none⟩ items)
    (keyword : Keyword Expr) :
    Arranged ⟨positional, keywords ++ [keyword], star, none⟩ (items ++ [.keyword keyword]) := by
  cases h with
  | plain => simpa using @Arranged.plain positional (keywords ++ [keyword]) none
  | @starred _ before after star =>
      simpa using @Arranged.starred positional before (after ++ [keyword]) star none

theorem Arranged.add_star (h : Arranged ⟨positional, keywords, none, none⟩ items) (value : Expr) :
    Arranged ⟨positional, keywords, some value, none⟩ (items ++ [.star value]) := by
  cases h
  simpa using @Arranged.starred positional keywords [] value none

theorem Arranged.add_doubleStar (h : Arranged ⟨positional, keywords, star, none⟩ items)
    (value : Expr) :
    Arranged ⟨positional, keywords, star, some value⟩ (items ++ [.doubleStar value]) := by
  cases h with
  | plain => simpa using @Arranged.plain positional keywords (some value)
  | @starred _ before after star =>
      simpa using @Arranged.starred positional before after star (some value)

end Arranged

def parenthesesOf (pair : Token × Token) : TagPair :=
  { opening := pair.1, closing := pair.2 }

section Layer

variable (marked : Prop) (spelled : Place → Spelling Expr)

/-- What may stand in brackets behind an operand. -/
def InBrackets : Spelling Expr :=
  fun value ts us => ∃ place, (place = .value ∨ place = .index) ∧ spelled place value ts us

inductive EntrySpelled : Spelling (Entry Expr) where
  | mk {key value layout colon ts ts' us} (hkey : spelled .value key ts (colon :: (ts' ++ us)))
      (hcolon : colon.isOperator ":") (hvalue : spelled .value value ts' us)
      (hmarked : marked → layout.span = some (spanOf (ts ++ colon :: ts'))) :
      EntrySpelled ⟨key, value, layout⟩ (ts ++ colon :: ts') us

/-- A comparison operator and its right side. -/
inductive OperandSpelled : Spelling (Operand Expr) where
  | mk {op value layout ts ts' us} (hop : Compares op ts) (hvalue : spelled .value value ts' us)
      (hmarked : marked → layout.span = some (spanOf (ts ++ ts'))) :
      OperandSpelled ⟨op, value, layout⟩ (ts ++ ts') us

/-- An argument without the comma behind it. -/
inductive ArgumentSpelled : Spelling Argument where
  | positional {value ts us} (h : spelled .value value ts us) :
      ArgumentSpelled (.positional value) ts us
  | keyword {key value layout name equals ts us} (hname : name.isName key)
      (hequals : equals.isOperator "=") (hvalue : spelled .value value ts us)
      (hmarked : marked → layout.span = some (spanOf (name :: equals :: ts))) :
      ArgumentSpelled (.keyword ⟨key, value, layout⟩) (name :: equals :: ts) us
  | star {value star ts us} (hstar : star.isOperator "*")
      (hvalue : spelled .value value ts us) : ArgumentSpelled (.star value) (star :: ts) us
  | doubleStar {value star ts us} (hstar : star.isOperator "**")
      (hvalue : spelled .value value ts us) : ArgumentSpelled (.doubleStar value) (star :: ts) us

inductive CallSpelled : Arguments Expr → TagPair → List Token → List Token → Prop where
  | mk {arguments items opening closing ts us} (hitems : Arranged arguments items)
      (hopening : opening.isOperator "(")
      (h : Listed (ArgumentSpelled marked spelled) items ts (closing :: us))
      (hclosing : closing.isOperator ")") :
      CallSpelled arguments (parenthesesOf (opening, closing)) (opening :: (ts ++ [closing])) us

inductive FilterArguments : Arguments Expr → List TagPair → List Token → List Token → Prop where
  | none {us} (hnext : NotNext (·.isOperator "(") us) : FilterArguments {} [] [] us
  | call {arguments pair ts us} (h : CallSpelled marked spelled arguments pair ts us) :
      FilterArguments arguments [pair] ts us

inductive TestArguments : Arguments Expr → List TagPair → List Token → List Token → Prop where
  | none {us} (hnext : NotNext (·.isOperator "(") us) : TestArguments {} [] [] us
  | bare {value ts us} (h : spelled .value value ts us)
      (hnext : NotNext (·.isOperator "(") (ts ++ us)) :
      TestArguments { positional := [value] } [] ts us
  | call {arguments pair ts us} (h : CallSpelled marked spelled arguments pair ts us) :
      TestArguments arguments [pair] ts us

/-- An expression without parentheses around it, and the pairs of tokens that belong to it. Its own
layout does not matter. -/
inductive Core : Place → Expr → List TagPair → List Token → List Token → Prop where
  | name {place ident context layout token us} (hplace : place.context? = some context)
      (hassigned : place ≠ .value → ident ∉ Expr.constantNames)
      (h : token.isName ident) : Core place (.name ident context layout) [] [token] us
  | member {ident key layout name point word us} (hname : name.isName ident)
      (hpoint : point.isOperator ".") (hkey : word.isName key) :
      Core .member (.member ident key layout) [] [name, point, word] us
  | const {value layout token us} (hvalue : constantKind value ≠ .string)
      (h : token.isKind (constantKind value)) :
      Core .value (.const value layout) [] [token] us
  | string {value layout token ts us} (hfirst : token.isKind .string)
      (hothers : ∀ other ∈ ts, other.isKind .string = true) (hnext : NotNext (·.isKind .string) us) :
      Core .value (.const (.str value) layout) [] (token :: ts) us
  | emptyTuple {place context layout us} (hplace : place.context? = some context) :
      Core place (.tuple [] context layout) [] [] us
  | tuple {place items context layout ts us} (hplace : place.context? = some context)
      (hitems : Tupled (spelled place) items ts us) :
      Core place (.tuple items context layout) [] ts us
  | indexTuple {items layout ts us} (hitems : Tupled (InBrackets spelled) items ts us) :
      Core .index (.tuple items .load layout) [] ts us
  | list {items layout opening closing ts us} (hopening : opening.isOperator "[")
      (hitems : Listed (spelled .value) items ts (closing :: us))
      (hclosing : closing.isOperator "]") :
      Core .value (.list items layout) [] (opening :: (ts ++ [closing])) us
  | dict {entries layout opening closing ts us} (hopening : opening.isOperator ['{'])
      (hentries : Listed (EntrySpelled marked spelled) entries ts (closing :: us))
      (hclosing : closing.isOperator ['}']) :
      Core .value (.dict entries layout) [] (opening :: (ts ++ [closing])) us
  | conditional {test whenTrue whenFalse layout word ts ts' ts'' us}
      (htrue : spelled .value whenTrue ts (word :: (ts' ++ (ts'' ++ us))))
      (hword : word.isName "if") (htest : spelled .value test ts' (ts'' ++ us))
      (hfalse : Possibly (Behind (·.isName "else") (spelled .value)) whenFalse ts'' us) :
      Core .value (.conditional test whenTrue whenFalse layout) [] (ts ++ word :: (ts' ++ ts'')) us
  | binary {op left right layout token ts ts' us}
      (hleft : spelled .value left ts (token :: (ts' ++ us))) (hop : binaryFits op token)
      (hright : spelled .value right ts' us) :
      Core .value (.binary op left right layout) [] (ts ++ token :: ts') us
  | unary {op operand layout token ts us} (hop : unaryFits op token)
      (hoperand : spelled .value operand ts us) :
      Core .value (.unary op operand false layout) [] (token :: ts) us
  | concat {first second others layout ts ts' us} (hfirst : spelled .value first ts (ts' ++ us))
      (hothers : Chained (Behind (·.isOperator "~") (spelled .value)) (second :: others) ts' us) :
      Core .value (.concat (first :: second :: others) layout) [] (ts ++ ts') us
  | compare {first second others layout ts ts' us} (hfirst : spelled .value first ts (ts' ++ us))
      (hothers : Chained (OperandSpelled marked spelled) (second :: others) ts' us) :
      Core .value (.compare first (second :: others) layout) [] (ts ++ ts') us
  | attr {operand key layout point word ts us}
      (hoperand : spelled .value operand ts (point :: word :: us))
      (hpoint : point.isOperator ".") (hword : word.isName key) :
      Core .value (.attr operand key layout) [] (ts ++ [point, word]) us
  | dotted {operand index layout point ts ts' us}
      (hoperand : spelled .value operand ts (point :: (ts' ++ us)))
      (hpoint : point.isOperator ".") (hindex : spelled .value index ts' us) :
      Core .value (.item operand index true layout) [] (ts ++ point :: ts') us
  | item {operand index layout opening closing ts ts' us}
      (hoperand : spelled .value operand ts (opening :: (ts' ++ closing :: us)))
      (hopening : opening.isOperator "[")
      (hindex : InBrackets spelled index ts' (closing :: us))
      (hclosing : closing.isOperator "]") :
      Core .value (.item operand index false layout) [] (ts ++ opening :: (ts' ++ [closing])) us
  | emptyItem {operand layout context indexLayout opening closing ts us}
      (hoperand : spelled .value operand ts (opening :: closing :: us))
      (hopening : opening.isOperator "[") (hclosing : closing.isOperator "]")
      (hmarked : marked → indexLayout.span = some (opening.index + 1, opening.index + 1)) :
      Core .value (.item operand (.tuple [] context indexLayout) false layout) []
        (ts ++ [opening, closing]) us
  | slice {start stop layout colon ts ts' us}
      (hstart : Possibly (spelled .value) start ts (colon :: (ts' ++ us)))
      (hcolon : colon.isOperator ":") (hstop : Possibly (spelled .value) stop ts' us)
      (hnext : NotNext (·.isOperator ":") us) :
      Core .index (.slice start stop none layout) [] (ts ++ colon :: ts') us
  | steppedSlice {start stop step layout colon second ts ts' ts'' us}
      (hstart : Possibly (spelled .value) start ts (colon :: (ts' ++ second :: (ts'' ++ us))))
      (hcolon : colon.isOperator ":")
      (hstop : Possibly (spelled .value) stop ts' (second :: (ts'' ++ us)))
      (hsecond : second.isOperator ":") (hstep : Possibly (spelled .value) step ts'' us) :
      Core .index (.slice start stop step layout) [] (ts ++ colon :: (ts' ++ second :: ts'')) us
  | filter {place operand name arguments pairs layout bar ts ts' ts'' us}
      (hplace : place.takesFilters)
      (hoperand : spelled place operand ts (bar :: (ts' ++ (ts'' ++ us))))
      (hbar : bar.isOperator "|") (hname : Dotted (Text.splitAt '.' name) ts')
      (harguments : FilterArguments marked spelled arguments pairs ts'' us) :
      Core place (.filter (some operand) name arguments layout) pairs
        (ts ++ bar :: (ts' ++ ts'')) us
  | blockFilter {name arguments pairs layout bars ts ts' us}
      (hbars : bars = [] ∨ ∃ bar, bars = [bar] ∧ bar.isOperator "|" = true)
      (hname : Dotted (Text.splitAt '.' name) ts)
      (harguments : FilterArguments marked spelled arguments pairs ts' us) :
      Core .filter (.filter none name arguments layout) pairs (bars ++ (ts ++ ts')) us
  | test {operand name arguments pairs layout word nots ts ts' ts'' us}
      (hoperand : spelled .value operand ts (word :: (nots ++ (ts' ++ (ts'' ++ us)))))
      (hword : word.isName "is")
      (hnots : nots = [] ∧ NotNext (·.isName "not") ts' ∨
        ∃ token, nots = [token] ∧ token.isName "not" = true)
      (hname : Dotted (Text.splitAt '.' name) ts')
      (harguments : TestArguments marked spelled arguments pairs ts'' us) :
      Core .value (.test operand name arguments layout) pairs
        (ts ++ word :: (nots ++ (ts' ++ ts''))) us
  | call {operand arguments pair layout ts ts' us} (hoperand : spelled .value operand ts (ts' ++ us))
      (harguments : CallSpelled marked spelled arguments pair ts' us) :
      Core .value (.call operand arguments layout) [pair] (ts ++ ts') us

/-- Tokens with parentheses around them, the innermost ones first. -/
inductive Wraps (ts : List Token) : List Token → List (Token × Token) → Prop where
  | bare : Wraps ts ts []
  | paren {ts' groups opening closing} (h : Wraps ts ts' groups)
      (hopening : opening.isOperator "(") (hclosing : closing.isOperator ")") :
      Wraps ts (opening :: (ts' ++ [closing])) (groups ++ [(opening, closing)])

def ownPairs (expr : Expr) (groups : List (Token × Token)) : List TagPair :=
  if expr.isTuple then groups.head?.toList.map parenthesesOf else []

/-- An expression with the parentheses around it. Those around a negation inside a test belong to
the test. -/
inductive Layer : Place → Spelling Expr where
  | group {place expr pairs groups ts ts' us}
      (hcore : Core marked spelled place expr pairs ts (groups.map Prod.snd ++ us))
      (hwraps : Wraps ts ts' groups) (hne : ts' ≠ [])
      (hmarked : marked → expr.layout.span = some (spanOf ts') ∧
        expr.layout.pairs = pairs ++ ownPairs expr groups) :
      Layer place expr ts' us
  | inline {operand layout ts us} (h : spelled .value operand ts us)
      (htest : operand.isTest)
      (hmarked : marked → layout.span = some (spanOf ts) ∧ layout.pairs = []) :
      Layer .value (.unary .not operand true layout) ts us

end Layer

section Mono

variable {marked : Prop} {spelled spelled' : Place → Spelling Expr} {ts us : List Token}
  (h : ∀ place expr ts us, spelled place expr ts us → spelled' place expr ts us)

include h

theorem InBrackets.mono {expr : Expr} (hexpr : InBrackets spelled expr ts us) :
    InBrackets spelled' expr ts us := by
  obtain ⟨place, hplace, hexpr⟩ := hexpr
  exact ⟨place, hplace, h _ _ _ _ hexpr⟩

theorem EntrySpelled.mono {entry : Entry Expr} (hentry : EntrySpelled marked spelled entry ts us) :
    EntrySpelled marked spelled' entry ts us := by
  cases hentry with
  | mk hkey hcolon hvalue hmarked => exact .mk (h _ _ _ _ hkey) hcolon (h _ _ _ _ hvalue) hmarked

theorem OperandSpelled.mono {operand : Operand Expr}
    (hoperand : OperandSpelled marked spelled operand ts us) :
    OperandSpelled marked spelled' operand ts us := by
  cases hoperand with
  | mk hop hvalue hmarked => exact .mk hop (h _ _ _ _ hvalue) hmarked

theorem ArgumentSpelled.mono {argument : Argument}
    (hargument : ArgumentSpelled marked spelled argument ts us) :
    ArgumentSpelled marked spelled' argument ts us := by
  cases hargument with
  | positional hvalue => exact .positional (h _ _ _ _ hvalue)
  | keyword hname hequals hvalue hmarked => exact .keyword hname hequals (h _ _ _ _ hvalue) hmarked
  | star hstar hvalue => exact .star hstar (h _ _ _ _ hvalue)
  | doubleStar hstar hvalue => exact .doubleStar hstar (h _ _ _ _ hvalue)

theorem CallSpelled.mono {arguments : Arguments Expr} {pair : TagPair}
    (hcall : CallSpelled marked spelled arguments pair ts us) :
    CallSpelled marked spelled' arguments pair ts us := by
  cases hcall with
  | mk hitems hopening hlisted hclosing =>
      exact .mk hitems hopening (hlisted.mono fun _ _ _ => ArgumentSpelled.mono h) hclosing

theorem FilterArguments.mono {arguments : Arguments Expr} {pairs : List TagPair}
    (harguments : FilterArguments marked spelled arguments pairs ts us) :
    FilterArguments marked spelled' arguments pairs ts us := by
  cases harguments with
  | none hnext => exact .none hnext
  | call hcall => exact .call (hcall.mono h)

theorem TestArguments.mono {arguments : Arguments Expr} {pairs : List TagPair}
    (harguments : TestArguments marked spelled arguments pairs ts us) :
    TestArguments marked spelled' arguments pairs ts us := by
  cases harguments with
  | none hnext => exact .none hnext
  | bare hvalue hnext => exact .bare (h _ _ _ _ hvalue) hnext
  | call hcall => exact .call (hcall.mono h)

theorem Core.mono {place : Place} {expr : Expr} {pairs : List TagPair}
    (hcore : Core marked spelled place expr pairs ts us) :
    Core marked spelled' place expr pairs ts us := by
  have hvalue : ∀ value ts us, spelled .value value ts us → spelled' .value value ts us := h .value
  cases hcore with
  | name hplace hassigned htoken => exact .name hplace hassigned htoken
  | member hname hpoint hkey => exact .member hname hpoint hkey
  | const hkind htoken => exact .const hkind htoken
  | string hfirst hothers hnext => exact .string hfirst hothers hnext
  | emptyTuple hplace => exact .emptyTuple hplace
  | tuple hplace hitems => exact .tuple hplace (hitems.mono (h _))
  | indexTuple hitems => exact .indexTuple (hitems.mono fun _ _ _ => InBrackets.mono h)
  | list hopening hitems hclosing => exact .list hopening (hitems.mono hvalue) hclosing
  | dict hopening hentries hclosing =>
      exact .dict hopening (hentries.mono fun _ _ _ => EntrySpelled.mono h) hclosing
  | conditional htrue hword htest hfalse =>
      exact .conditional (h _ _ _ _ htrue) hword (h _ _ _ _ htest)
        (hfalse.mono fun _ _ _ => Behind.mono hvalue)
  | binary hleft hop hright => exact .binary (h _ _ _ _ hleft) hop (h _ _ _ _ hright)
  | unary hop hoperand => exact .unary hop (h _ _ _ _ hoperand)
  | concat hfirst hothers =>
      exact .concat (h _ _ _ _ hfirst) (hothers.mono fun _ _ _ => Behind.mono hvalue)
  | compare hfirst hothers =>
      exact .compare (h _ _ _ _ hfirst) (hothers.mono fun _ _ _ => OperandSpelled.mono h)
  | attr hoperand hpoint hword => exact .attr (h _ _ _ _ hoperand) hpoint hword
  | dotted hoperand hpoint hindex => exact .dotted (h _ _ _ _ hoperand) hpoint (h _ _ _ _ hindex)
  | item hoperand hopening hindex hclosing =>
      exact .item (h _ _ _ _ hoperand) hopening (hindex.mono h) hclosing
  | emptyItem hoperand hopening hclosing hmarked =>
      exact .emptyItem (h _ _ _ _ hoperand) hopening hclosing hmarked
  | slice hstart hcolon hstop hnext =>
      exact .slice (hstart.mono hvalue) hcolon (hstop.mono hvalue) hnext
  | steppedSlice hstart hcolon hstop hsecond hstep =>
      exact .steppedSlice (hstart.mono hvalue) hcolon (hstop.mono hvalue) hsecond
        (hstep.mono hvalue)
  | filter hplace hoperand hbar hname harguments =>
      exact .filter hplace (h _ _ _ _ hoperand) hbar hname (harguments.mono h)
  | blockFilter hbars hname harguments => exact .blockFilter hbars hname (harguments.mono h)
  | test hoperand hword hnots hname harguments =>
      exact .test (h _ _ _ _ hoperand) hword hnots hname (harguments.mono h)
  | call hoperand harguments => exact .call (h _ _ _ _ hoperand) (harguments.mono h)

theorem Layer.mono {place : Place} {expr : Expr} (hlayer : Layer marked spelled place expr ts us) :
    Layer marked spelled' place expr ts us := by
  cases hlayer with
  | group hcore hwraps hne hmarked => exact .group (hcore.mono h) hwraps hne hmarked
  | inline hoperand htest hmarked => exact .inline (h _ _ _ _ hoperand) htest hmarked

end Mono

/-! ### Expressions -/

def Spells (marked : Prop) : Place → Spelling Expr :=
  fun place expr ts us => ∀ spelled : Place → Spelling Expr,
    (∀ place expr ts us, Layer marked spelled place expr ts us → spelled place expr ts us) →
      spelled place expr ts us

namespace Spells

variable {marked : Prop} {place : Place} {expr : Expr} {ts us : List Token}

theorem fold (h : Layer marked (Spells marked) place expr ts us) :
    Spells marked place expr ts us :=
  fun spelled hclosed => hclosed _ _ _ _ (h.mono fun _ _ _ _ hpart => hpart spelled hclosed)

theorem unfold (h : Spells marked place expr ts us) :
    Layer marked (Spells marked) place expr ts us :=
  h _ fun _ _ _ _ hlayer => hlayer.mono fun _ _ _ _ hpart => fold hpart

theorem induct {motive : Place → Spelling Expr}
    (hstep : ∀ place expr ts us,
      Layer marked (fun place expr ts us => Spells marked place expr ts us ∧ motive place expr ts us)
        place expr ts us → motive place expr ts us)
    (h : Spells marked place expr ts us) : motive place expr ts us :=
  (h (fun place expr ts us => Spells marked place expr ts us ∧ motive place expr ts us)
    fun _ _ _ _ hlayer =>
      ⟨fold (hlayer.mono fun _ _ _ _ hpart => hpart.1), hstep _ _ _ _ hlayer⟩).2

theorem ne_nil (h : Spells marked place expr ts us) : ts ≠ [] := by
  refine induct (motive := fun _ _ ts _ => ts ≠ []) ?_ h
  intro place expr ts us hlayer
  cases hlayer with
  | group _ _ hne _ => exact hne
  | inline hoperand _ _ => exact hoperand.2

theorem of_core {pairs : List TagPair}
    (h : Core False (Spells False) place expr pairs ts us) (hne : ts ≠ []) :
    Spells False place expr ts us := by
  have hwraps : Wraps ts ts [] := .bare
  exact fold (.group (by exact h) hwraps hne False.elim)

theorem paren {opening closing : Token} (h : Spells False place expr ts (closing :: us))
    (hopening : opening.isOperator "(") (hclosing : closing.isOperator ")") :
    Spells False place expr (opening :: (ts ++ [closing])) us := by
  have hall : ∀ rest, closing :: rest = closing :: us →
      Spells False place expr (opening :: (ts ++ [closing])) rest := by
    refine induct (motive := fun place expr ts us => ∀ rest, closing :: rest = us →
      Spells False place expr (opening :: (ts ++ [closing])) rest) ?_ h
    rintro place expr ts us hlayer rest rfl
    cases hlayer with
    | @group _ _ pairs groups inner _ _ hcore hwraps hne _ =>
        have hinner : Core False (Spells False) place expr pairs inner
            ((groups ++ [(opening, closing)]).map Prod.snd ++ rest) := by
          have hpart := hcore.mono fun _ _ _ _ hpart => hpart.1
          simpa using hpart
        exact fold (.group hinner (hwraps.paren hopening hclosing) (by simp) False.elim)
    | inline hoperand htest _ => exact fold (.inline (hoperand.2 rest rfl) htest False.elim)
  exact hall us rfl

theorem emptyParen {opening closing : Token} {layout : Layout}
    (hopening : opening.isOperator "(") (hclosing : closing.isOperator ")") :
    Spells False .value (.tuple [] .load layout) [opening, closing] us :=
  fold (.group (.emptyTuple rfl) (Wraps.bare.paren hopening hclosing) (by simp) False.elim)

end Spells

theorem allWithContext_eq_map (context : Context) (exprs : List Expr) :
    Expr.allWithContext context exprs = exprs.map (Expr.withContext context) := by
  induction exprs with
  | nil => rfl
  | cons expr exprs ih => rw [Expr.allWithContext, ih, map_cons]

theorem areAssignable_eq_all (exprs : List Expr) :
    Expr.areAssignable exprs = exprs.all Expr.isAssignable := by
  induction exprs with
  | nil => rfl
  | cons expr exprs ih => rw [Expr.areAssignable, ih, all_cons]

mutual

theorem isAssignable_withContext (context : Context) :
    (expr : Expr) → (expr.withContext context).isAssignable = expr.isAssignable
  | .name .. | .member .. | .const .. | .data .. | .list .. | .dict .. | .conditional ..
  | .binary .. | .unary .. | .concat .. | .compare .. | .attr .. | .item .. | .slice ..
  | .filter .. | .test .. | .call .. => rfl
  | .tuple items _ _ => areAssignable_allWithContext context items

theorem areAssignable_allWithContext (context : Context) :
    (exprs : List Expr) →
      Expr.areAssignable (Expr.allWithContext context exprs) = Expr.areAssignable exprs
  | [] => rfl
  | expr :: exprs => by
      rw [Expr.allWithContext, Expr.areAssignable, Expr.areAssignable,
        isAssignable_withContext context expr, areAssignable_allWithContext context exprs]

end

section Map

variable {α β : Type} {spelled : Spelling α} {spelled' : Spelling β} {f : α → β} {values : List α}
  {ts us : List Token}

theorem Listed.map (h : Listed spelled values ts us)
    (hf : ∀ value ∈ values, ∀ ts us, spelled value ts us → spelled' (f value) ts us) :
    Listed spelled' (values.map f) ts us := by
  induction h with
  | nil => exact .nil
  | last hvalue hnext => exact .last (hf _ mem_cons_self _ _ hvalue) hnext
  | more hvalue hcomma _ ih =>
      exact .more (hf _ mem_cons_self _ _ hvalue) hcomma
        (ih fun value hmem => hf value (mem_cons_of_mem _ hmem))

theorem Tupled.map (h : Tupled spelled values ts us)
    (hf : ∀ value ∈ values, ∀ ts us, spelled value ts us → spelled' (f value) ts us) :
    Tupled spelled' (values.map f) ts us := by
  cases h with
  | mk hfirst hcomma hothers =>
      exact .mk (hf _ mem_cons_self _ _ hfirst) hcomma
        (hothers.map fun value hmem => hf value (mem_cons_of_mem _ hmem))

theorem Chained.map (h : Chained spelled values ts us)
    (hf : ∀ value ∈ values, ∀ ts us, spelled value ts us → spelled' (f value) ts us) :
    Chained spelled' (values.map f) ts us := by
  induction h with
  | nil => exact .nil
  | cons hvalue _ ih =>
      exact .cons (hf _ mem_cons_self _ _ hvalue)
        (ih fun value hmem => hf value (mem_cons_of_mem _ hmem))

end Map

/-- What may be assigned to, with its parts in the given context. -/
def IsTarget (context : Context) (place : Place) : Spelling Expr :=
  fun expr ts us => place.context?.isSome = true →
    (expr.withContext context).isAssignable = true →
      Spells False (.target context) (expr.withContext context) ts us

theorem Core.withContext {place : Place} {expr : Expr} {pairs : List TagPair} {ts us : List Token}
    {context : Context}
    (h : Core False (fun place expr ts us => Spells False place expr ts us ∧
      IsTarget context place expr ts us) place expr pairs ts us)
    (hplace : place.context?.isSome)
    (hassignable : (expr.withContext context).isAssignable) :
    Core False (Spells False) (.target context) (expr.withContext context) [] ts us := by
  cases h with
  | name _ _ htoken =>
      refine .name rfl (fun _ => ?_) htoken
      simpa [Expr.withContext, Expr.isAssignable] using hassignable
  | emptyTuple => exact .emptyTuple rfl
  | tuple _ hitems =>
      simp only [Expr.withContext, Expr.isAssignable, allWithContext_eq_map, areAssignable_eq_all,
        all_eq_true, mem_map, forall_exists_index, and_imp,
        forall_apply_eq_imp_iff₂] at hassignable ⊢
      refine .tuple rfl (hitems.map fun value hvalue _ _ hspelled => ?_)
      exact hspelled.2 hplace (hassignable value hvalue)
  | indexTuple | member | slice | steppedSlice | blockFilter => simp [Place.context?] at hplace
  | _ => simp [Expr.withContext, Expr.isAssignable] at hassignable

theorem Spells.withContext {place : Place} {expr : Expr} {ts us : List Token} (context : Context)
    (h : Spells False place expr ts us) : IsTarget context place expr ts us := by
  refine induct (motive := IsTarget context) ?_ h
  intro place expr ts us hlayer hplace hassignable
  cases hlayer with
  | group hcore hwraps hne _ =>
      exact fold (.group (hcore.withContext hplace hassignable) hwraps hne False.elim)
  | inline => simp [Expr.withContext, Expr.isAssignable] at hassignable

end Spelling

end JinjaLayout
