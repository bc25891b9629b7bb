import Mathlib
import JinjaLayout.Proofs.Spelling
import JinjaLayout.Proofs.TablePairs

/-!
How statements are spelled. The tags of a statement stand in the order of the source, each with its
keyword and what is said inside it, and the statements of its bodies stand between them. In a marked
tree every tag also has the text that is skipped before and behind it in the token table.
-/

namespace JinjaLayout.Spelling

/-! ### Places between tags -/

section Table

variable (table : List Token)

def closesTag (token : Token) : Bool :=
  token.isKind .blockEnd || token.isKind .variableEnd

def blanksAt (index : Nat) : Nat :=
  ((table.drop index).takeWhile fun token => !token.isSignificant && token.kind == .whitespace).length

/-- The index behind a token outside of tags: a tag takes the whitespace behind it away. -/
def leave (token : Token) : Nat :=
  if closesTag token then token.index + 1 + blanksAt table (token.index + 1) else token.index + 1

/-- The index behind tokens that were read. -/
def behind (done : List Token) : Nat :=
  (done.getLast?.map (leave table)).getD 1

def enter (token : Token) : Nat :=
  behind table (significant (table.take token.index))

/-- The tokens from behind what was read before to behind the last. -/
def reachOf (ts : List Token) : Nat × Nat :=
  ((ts.head?.map (enter table)).getD 0, (ts.getLast?.map (leave table)).getD 0)

/-- The source text of the tokens from one index up to another. -/
def textFrom (start stop : Nat) : Text :=
  ((table.take stop).drop start).flatMap Token.text

def tagPair (keyword : Text) (opening : Token) (colon : Bool) (closing : Token) : TagPair :=
  { opening, closing, keyword, colon
    before := textFrom table (enter table opening) opening.index
    after := textFrom table (closing.index + 1) (leave table closing) }

end Table

/-! ### What stands in a tag -/

/-- What tokens say where others come behind them. -/
abbrev Phrase := List Token → List Token → Prop

def Then (first second : Phrase) : Phrase :=
  fun ts us => ∃ ts' ts'', ts = ts' ++ ts'' ∧ first ts' (ts'' ++ us) ∧ second ts'' us

def Words (words : List Text) : Phrase :=
  fun ts _ => List.Forall₂ (fun word token => token.isName word = true) words ts

def Symbol (symbol : Text) : Phrase :=
  fun ts _ => ∃ token, ts = [token] ∧ token.isOperator symbol = true

def Nothing : Phrase :=
  fun ts _ => ts = []

/-- The words for whether another template gets the variables. -/
def contextWords : Option Bool → List Text
  | some true => ["with".toList, "context".toList]
  | some false => ["without".toList, "context".toList]
  | none => []

def wordIf (condition : Bool) (word : Text) : List Text :=
  if condition then [word] else []

def ImportSpelled : Spelling ImportedName :=
  fun name => Words (name.name :: name.newName.elim [] fun word => ["as".toList, word])

section Statements

variable (table : List Token) (marked : Prop)

def SetTarget (target : Expr) : Phrase :=
  fun ts us => ∃ place, (place = .target .store ∨ place = .member) ∧
    Spells marked place target ts us

def ParameterSpelled : Spelling (Expr × Option Expr) :=
  fun parameter => Then (Spells marked (.target .param) parameter.1)
    (Possibly (Behind (·.isOperator "=") (Spells marked .value)) parameter.2)

/-- Parameters in parentheses, the last ones with their defaults. -/
inductive SignatureSpelled : List Expr → List Expr → List Token → List Token → Prop where
  | mk {plain : List Expr} {withs : List (Expr × Expr)} {opening closing ts us}
      (hopening : opening.isOperator "(")
      (h : Listed (ParameterSpelled marked)
        (plain.map (·, none) ++ withs.map fun parameter => (parameter.1, some parameter.2)) ts
        (closing :: us))
      (hclosing : closing.isOperator ")") :
      SignatureSpelled (plain ++ withs.map Prod.fst) (withs.map Prod.snd)
        (opening :: (ts ++ [closing])) us

def BoundSpelled : Spelling (Expr × Expr) :=
  fun node => Then (Spells marked (.target .param) node.1)
    (Then (Symbol "=") (Spells marked .value node.2))

inductive TagSpelled (keyword : Text) (inside : Phrase) : TagPair → List Token → List Token → Prop
  where
  | mk {pair opening word colons closing ts us} (hopening : opening.isKind .blockBegin)
      (hword : word.isName keyword) (hinside : inside ts (colons ++ closing :: us))
      (hcolons : colons = [] ∨ ∃ colon, colons = [colon] ∧ colon.isOperator ":" = true)
      (hclosing : closing.isKind .blockEnd)
      (hmarked : marked → pair = tagPair table keyword opening (!colons.isEmpty) closing) :
      TagSpelled keyword inside pair (opening :: word :: (ts ++ (colons ++ [closing]))) us

/-- Text or an expression of an output, with the pair around the expression. -/
inductive NodeSpelled : Spelling (Expr × Option TagPair) where
  | data {text layout token us} (htoken : token.isKind .data)
      (htext : token.lexeme.map Lexeme.value = some text)
      (hmarked : marked → layout.leading = textFrom table (enter table token) token.index ∧
        layout.span = some (reachOf table [token])) :
      NodeSpelled (.data text layout, none) [token] us
  | expr {expr pair opening closing ts us} (hopening : opening.isKind .variableBegin)
      (hexpr : Spells marked .value expr ts (closing :: us))
      (hclosing : closing.isKind .variableEnd)
      (hmarked : marked → pair = tagPair table [] opening false closing) :
      NodeSpelled (expr, some pair) (opening :: (ts ++ [closing])) us

def Sealed (layout : Layout) (pairs : List TagPair) (ts : List Token) : Prop :=
  marked → layout.span = some (reachOf table ts) ∧ layout.pairs = pairs

section Bodies

variable (spelled : Spelling Stmt)

inductive BranchSpelled : Spelling (Branch × TagPair) where
  | mk {test stmts layout pair ts ts' us}
      (htag : TagSpelled table marked "elif" (Spells marked .value test) pair ts (ts' ++ us))
      (hstmts : Chained spelled stmts ts' us)
      (hsealed : Sealed table marked layout [pair] (ts ++ ts')) :
      BranchSpelled (.mk test stmts [] [] layout, pair) (ts ++ ts') us

inductive ElseSpelled : List Stmt → List TagPair → List Token → List Token → Prop where
  | none {us} : ElseSpelled [] [] [] us
  | some {stmts pair ts ts' us} (htag : TagSpelled table marked "else" Nothing pair ts (ts' ++ us))
      (hstmts : Chained spelled stmts ts' us) : ElseSpelled stmts [pair] (ts ++ ts') us

inductive EnclosedSpelled (keyword stop : Text) (inside last : Phrase) :
    List Stmt → List TagPair → List Token → List Token → Prop where
  | mk {stmts first second ts ts' ts'' us}
      (hfirst : TagSpelled table marked keyword inside first ts (ts' ++ (ts'' ++ us)))
      (hstmts : Chained spelled stmts ts' (ts'' ++ us))
      (hsecond : TagSpelled table marked stop last second ts'' us) :
      EnclosedSpelled keyword stop inside last stmts [first, second] (ts ++ (ts' ++ ts'')) us

/-- A statement, whose bodies are spelled as given. -/
inductive StmtLayer : Spelling Stmt where
  | output {parts : List (Expr × Option TagPair)} {layout ts us} (hne : parts ≠ [])
      (hparts : Chained (NodeSpelled table marked) parts ts us)
      (hsealed : Sealed table marked layout (parts.filterMap Prod.snd) ts) :
      StmtLayer (.output (parts.map Prod.fst) layout) ts us
  | print {nodes layout pair ts us}
      (htag : TagSpelled table marked "print" (Listed (Spells marked .value) nodes) pair ts us)
      (hsealed : Sealed table marked layout [pair] ts) : StmtLayer (.print nodes layout) ts us
  | extend {template layout pair ts us}
      (htag : TagSpelled table marked "extends" (Spells marked .value template) pair ts us)
      (hsealed : Sealed table marked layout [pair] ts) : StmtLayer (.extend template layout) ts us
  | block {name stmts isScoped isRequired endNamed layout pairs ts us}
      (h : EnclosedSpelled table marked spelled "block" "endblock"
        (Words (name :: (wordIf isScoped "scoped" ++ wordIf isRequired "required")))
        (Words (wordIf endNamed name)) stmts pairs ts us)
      (hsealed : Sealed table marked layout pairs ts) :
      StmtLayer (.block name stmts isScoped isRequired endNamed layout) ts us
  | insert {template ignoreMissing withContext layout pair ts us}
      (htag : TagSpelled table marked "include" (Then (Spells marked .value template)
        (Words ((if ignoreMissing then ["ignore".toList, "missing".toList] else []) ++
          contextWords withContext))) pair ts us)
      (hsealed : Sealed table marked layout [pair] ts) :
      StmtLayer (.insert template ignoreMissing withContext layout) ts us
  | importAs {template target withContext layout pair ts us}
      (htag : TagSpelled table marked "import" (Then (Spells marked .value template)
        (Words ("as".toList :: target :: contextWords withContext))) pair ts us)
      (hsealed : Sealed table marked layout [pair] ts) :
      StmtLayer (.importAs template target withContext layout) ts us
  | importNames {template names withContext layout pair ts us}
      (htag : TagSpelled table marked "from" (Then (Spells marked .value template)
        (Then (Words ["import".toList]) (Then (Listed ImportSpelled names)
          (Words (contextWords withContext))))) pair ts us)
      (hsealed : Sealed table marked layout [pair] ts) :
      StmtLayer (.importNames template names withContext layout) ts us
  | loop {target iterable stmts orElse test nested layout first others last ts ts₁ ts₂ ts₃ us}
      (hfirst : TagSpelled table marked "for" (Then (Spells marked (.target .store) target)
        (Then (Words ["in".toList]) (Then (Spells marked .value iterable)
          (Then (Possibly (Behind (·.isName "if") (Spells marked .value)) test)
            (Words (wordIf nested "recursive")))))) first ts (ts₁ ++ (ts₂ ++ (ts₃ ++ us))))
      (hstmts : Chained spelled stmts ts₁ (ts₂ ++ (ts₃ ++ us)))
      (hothers : ElseSpelled table marked spelled orElse others ts₂ (ts₃ ++ us))
      (hlast : TagSpelled table marked "endfor" Nothing last ts₃ us)
      (hsealed : Sealed table marked layout (first :: others ++ [last])
        (ts ++ (ts₁ ++ (ts₂ ++ ts₃)))) :
      StmtLayer (.loop target iterable stmts orElse test nested layout)
        (ts ++ (ts₁ ++ (ts₂ ++ ts₃))) us
  | branch {test stmts orElse layout first others last ts ts₁ ts₂ ts₃ ts₄ us}
      {branches : List (Branch × TagPair)}
      (hfirst : TagSpelled table marked "if" (Spells marked .value test) first ts
        (ts₁ ++ (ts₂ ++ (ts₃ ++ (ts₄ ++ us)))))
      (hstmts : Chained spelled stmts ts₁ (ts₂ ++ (ts₃ ++ (ts₄ ++ us))))
      (hbranches : Chained (BranchSpelled table marked spelled) branches ts₂
        (ts₃ ++ (ts₄ ++ us)))
      (hothers : ElseSpelled table marked spelled orElse others ts₃ (ts₄ ++ us))
      (hlast : TagSpelled table marked "endif" Nothing last ts₄ us)
      (hsealed : Sealed table marked layout
        (first :: branches.map Prod.snd ++ others ++ [last])
        (ts ++ (ts₁ ++ (ts₂ ++ (ts₃ ++ ts₄))))) :
      StmtLayer (.branch (.mk test stmts (branches.map Prod.fst) orElse layout))
        (ts ++ (ts₁ ++ (ts₂ ++ (ts₃ ++ ts₄)))) us
  | bind {bindings : List (Expr × Expr)} {stmts layout pairs ts us}
      (h : EnclosedSpelled table marked spelled "with" "endwith"
        (Listed (BoundSpelled marked) bindings) Nothing stmts pairs ts us)
      (hsealed : Sealed table marked layout pairs ts) :
      StmtLayer (.bind (bindings.map Prod.fst) (bindings.map Prod.snd) stmts layout) ts us
  | perform {node layout pair ts us}
      (htag : TagSpelled table marked "do" (Spells marked .value node) pair ts us)
      (hsealed : Sealed table marked layout [pair] ts) : StmtLayer (.perform node layout) ts us
  | assign {target value layout pair ts us}
      (htag : TagSpelled table marked "set" (Then (SetTarget marked target)
        (Then (Symbol "=") (Spells marked .value value))) pair ts us)
      (hsealed : Sealed table marked layout [pair] ts) :
      StmtLayer (.assign target value layout) ts us
  | capture {target filter stmts layout pairs ts us}
      (h : EnclosedSpelled table marked spelled "set" "endset"
        (Then (SetTarget marked target) (Possibly (Spells marked .filter) filter)) Nothing stmts pairs
        ts us)
      (hsealed : Sealed table marked layout pairs ts) :
      StmtLayer (.capture target filter stmts layout) ts us
  | filterBlock {filter stmts layout pairs ts us}
      (h : EnclosedSpelled table marked spelled "filter" "endfilter"
        (Spells marked .filter filter) Nothing stmts pairs ts us)
      (hsealed : Sealed table marked layout pairs ts) :
      StmtLayer (.filterBlock filter stmts layout) ts us
  | macroBlock {name parameters defaults stmts layout pairs ts us}
      (h : EnclosedSpelled table marked spelled "macro" "endmacro"
        (Then (Words [name]) (SignatureSpelled marked parameters defaults)) Nothing stmts pairs ts us)
      (hsealed : Sealed table marked layout pairs ts) :
      StmtLayer (.macroBlock name parameters defaults stmts layout) ts us
  | callBlock {call parameters defaults stmts layout pairs ts us} (hcall : call.isCall)
      (h : EnclosedSpelled table marked spelled "call" "endcall"
        (Then (fun ts us => SignatureSpelled marked parameters defaults ts us ∨
            parameters = [] ∧ defaults = [] ∧ ts = [] ∧ NotNext (·.isOperator "(") us)
          (Spells marked .value call)) Nothing stmts pairs ts us)
      (hsealed : Sealed table marked layout pairs ts) :
      StmtLayer (.callBlock call parameters defaults stmts layout) ts us
  | skip {layout pair ts us} (htag : TagSpelled table marked "continue" Nothing pair ts us)
      (hsealed : Sealed table marked layout [pair] ts) : StmtLayer (.skip layout) ts us
  | leave {layout pair ts us} (htag : TagSpelled table marked "break" Nothing pair ts us)
      (hsealed : Sealed table marked layout [pair] ts) : StmtLayer (.leave layout) ts us
  | scope {options stmts innerLayout layout ts us}
      (h : spelled (.autoescape options stmts innerLayout) ts us)
      (hmarked : marked → layout.span = some (reachOf table ts)) :
      StmtLayer (.scope [.autoescape options stmts innerLayout] layout) ts us
  | autoescape {key value optionLayout stmts layout pairs ts us}
      (h : EnclosedSpelled table marked spelled "autoescape" "endautoescape"
        (Spells marked .value value) Nothing stmts pairs ts us)
      (hoption : marked → optionLayout.span = value.layout.span)
      (hsealed : Sealed table marked layout pairs ts) :
      StmtLayer (.autoescape [⟨key, value, optionLayout⟩] stmts layout) ts us

end Bodies

end Statements

section Mono

variable {table : List Token} {marked : Prop} {spelled spelled' : Spelling Stmt}
  {ts us : List Token} (h : ∀ stmt ts us, spelled stmt ts us → spelled' stmt ts us)

include h

theorem BranchSpelled.mono {part : Branch × TagPair}
    (hpart : BranchSpelled table marked spelled part ts us) :
    BranchSpelled table marked spelled' part ts us := by
  cases hpart with
  | mk htag hstmts hsealed => exact .mk htag (hstmts.mono h) hsealed

theorem ElseSpelled.mono {stmts : List Stmt} {pairs : List TagPair}
    (hstmts : ElseSpelled table marked spelled stmts pairs ts us) :
    ElseSpelled table marked spelled' stmts pairs ts us := by
  cases hstmts with
  | none => exact .none
  | some htag hstmts => exact .some htag (hstmts.mono h)

theorem EnclosedSpelled.mono {keyword stop : Text} {inside last : Phrase} {stmts : List Stmt}
    {pairs : List TagPair}
    (henclosed : EnclosedSpelled table marked spelled keyword stop inside last stmts pairs ts us) :
    EnclosedSpelled table marked spelled' keyword stop inside last stmts pairs ts us := by
  cases henclosed with
  | mk hfirst hstmts hsecond => exact .mk hfirst (hstmts.mono h) hsecond

theorem StmtLayer.mono {stmt : Stmt} (hstmt : StmtLayer table marked spelled stmt ts us) :
    StmtLayer table marked spelled' stmt ts us := by
  cases hstmt with
  | output hne hparts hsealed => exact .output hne hparts hsealed
  | print htag hsealed => exact .print htag hsealed
  | extend htag hsealed => exact .extend htag hsealed
  | block henclosed hsealed => exact .block (henclosed.mono h) hsealed
  | insert htag hsealed => exact .insert htag hsealed
  | importAs htag hsealed => exact .importAs htag hsealed
  | importNames htag hsealed => exact .importNames htag hsealed
  | loop hfirst hstmts hothers hlast hsealed =>
      exact .loop hfirst (hstmts.mono h) (hothers.mono h) hlast hsealed
  | branch hfirst hstmts hbranches hothers hlast hsealed =>
      exact .branch hfirst (hstmts.mono h) (hbranches.mono fun _ _ _ => BranchSpelled.mono h)
        (hothers.mono h) hlast hsealed
  | bind henclosed hsealed => exact .bind (henclosed.mono h) hsealed
  | perform htag hsealed => exact .perform htag hsealed
  | assign htag hsealed => exact .assign htag hsealed
  | capture henclosed hsealed => exact .capture (henclosed.mono h) hsealed
  | filterBlock henclosed hsealed => exact .filterBlock (henclosed.mono h) hsealed
  | macroBlock henclosed hsealed => exact .macroBlock (henclosed.mono h) hsealed
  | callBlock hcall henclosed hsealed => exact .callBlock hcall (henclosed.mono h) hsealed
  | skip htag hsealed => exact .skip htag hsealed
  | leave htag hsealed => exact .leave htag hsealed
  | scope hinner hmarked => exact .scope (h _ _ _ hinner) hmarked
  | autoescape henclosed hoption hsealed => exact .autoescape (henclosed.mono h) hoption hsealed

end Mono

def StmtSpells (table : List Token) (marked : Prop) : Spelling Stmt :=
  fun stmt ts us => ∀ spelled : Spelling Stmt,
    (∀ stmt ts us, StmtLayer table marked spelled stmt ts us → spelled stmt ts us) →
      spelled stmt ts us

namespace StmtSpells

variable {table : List Token} {marked : Prop} {stmt : Stmt} {ts us : List Token}

theorem fold (h : StmtLayer table marked (StmtSpells table marked) stmt ts us) :
    StmtSpells table marked stmt ts us :=
  fun spelled hclosed => hclosed _ _ _ (h.mono fun _ _ _ hpart => hpart spelled hclosed)

theorem unfold (h : StmtSpells table marked stmt ts us) :
    StmtLayer table marked (StmtSpells table marked) stmt ts us :=
  h _ fun _ _ _ hlayer => hlayer.mono fun _ _ _ hpart => fold hpart

theorem induct {motive : Spelling Stmt}
    (hstep : ∀ stmt ts us,
      StmtLayer table marked (fun stmt ts us => StmtSpells table marked stmt ts us ∧ motive stmt ts us)
        stmt ts us → motive stmt ts us)
    (h : StmtSpells table marked stmt ts us) : motive stmt ts us :=
  (h (fun stmt ts us => StmtSpells table marked stmt ts us ∧ motive stmt ts us)
    fun _ _ _ hlayer =>
      ⟨fold (hlayer.mono fun _ _ _ hpart => hpart.1), hstep _ _ _ hlayer⟩).2

end StmtSpells

end JinjaLayout.Spelling
