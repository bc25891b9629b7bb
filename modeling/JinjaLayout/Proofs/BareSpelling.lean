import Mathlib
import JinjaLayout.Proofs.TemplateWalks
import JinjaLayout.Tree.Bare

/-!
The tree without its layout. Main statement: the tokens of a template spell its bare tree as well.
-/

namespace JinjaLayout

mutual

theorem Expr.bare_bare : (expr : Expr) → expr.bare.bare = expr.bare
  | .name .. | .member .. | .const .. | .data .. => rfl
  | .tuple items _ _ | .list items _ | .concat items _ => by simp only [Expr.bare, bareExprs_bareExprs]
  | .dict entries _ => by simp only [Expr.bare, bareEntries_bareEntries]
  | .conditional test whenTrue whenFalse _ => by
      simp only [Expr.bare, test.bare_bare, whenTrue.bare_bare, bareOption_bareOption]
  | .binary _ left right _ => by simp only [Expr.bare, left.bare_bare, right.bare_bare]
  | .unary _ operand _ _ | .attr operand _ _ => by simp only [Expr.bare, operand.bare_bare]
  | .compare first others _ => by simp only [Expr.bare, first.bare_bare, bareOperands_bareOperands]
  | .item operand index _ _ => by simp only [Expr.bare, operand.bare_bare, index.bare_bare]
  | .slice start stop step _ => by simp only [Expr.bare, bareOption_bareOption]
  | .filter operand _ arguments _ => by
      simp only [Expr.bare, bareOption_bareOption, arguments.bare_bare]
  | .test operand _ arguments _ | .call operand arguments _ => by
      simp only [Expr.bare, operand.bare_bare, arguments.bare_bare]

theorem bareExprs_bareExprs : (exprs : List Expr) → bareExprs (bareExprs exprs) = bareExprs exprs
  | [] => rfl
  | expr :: exprs => by simp only [bareExprs, expr.bare_bare, bareExprs_bareExprs exprs]

theorem bareOption_bareOption :
    (expr : Option Expr) → bareOption (bareOption expr) = bareOption expr
  | none => rfl
  | some expr => by simp only [bareOption, expr.bare_bare]

theorem Entry.bare_bare : (entry : Entry Expr) → entry.bare.bare = entry.bare
  | ⟨key, value, _⟩ => by simp only [Entry.bare, key.bare_bare, value.bare_bare]

theorem bareEntries_bareEntries :
    (entries : List (Entry Expr)) → bareEntries (bareEntries entries) = bareEntries entries
  | [] => rfl
  | entry :: entries => by
      simp only [bareEntries, entry.bare_bare, bareEntries_bareEntries entries]

theorem Keyword.bare_bare : (keyword : Keyword Expr) → keyword.bare.bare = keyword.bare
  | ⟨_, value, _⟩ => by simp only [Keyword.bare, value.bare_bare]

theorem bareKeywords_bareKeywords : (keywords : List (Keyword Expr)) →
    bareKeywords (bareKeywords keywords) = bareKeywords keywords
  | [] => rfl
  | keyword :: keywords => by
      simp only [bareKeywords, keyword.bare_bare, bareKeywords_bareKeywords keywords]

theorem Operand.bare_bare : (operand : Operand Expr) → operand.bare.bare = operand.bare
  | ⟨_, value, _⟩ => by simp only [Operand.bare, value.bare_bare]

theorem bareOperands_bareOperands : (operands : List (Operand Expr)) →
    bareOperands (bareOperands operands) = bareOperands operands
  | [] => rfl
  | operand :: operands => by
      simp only [bareOperands, operand.bare_bare, bareOperands_bareOperands operands]

theorem Arguments.bare_bare : (arguments : Arguments Expr) → arguments.bare.bare = arguments.bare
  | ⟨positional, keywords, star, doubleStar⟩ => by
      simp only [Arguments.bare, bareExprs_bareExprs, bareKeywords_bareKeywords,
        bareOption_bareOption]

end

mutual

theorem Stmt.bare_bare : (stmt : Stmt) → stmt.bare.bare = stmt.bare
  | .output .. | .print .. => by simp only [Stmt.bare, bareExprs_bareExprs]
  | .extend .. | .insert .. | .importAs .. | .importNames .. | .perform .. | .assign .. => by
      simp only [Stmt.bare, Expr.bare_bare]
  | .block _ body _ _ _ _ | .scope body _ => by simp only [Stmt.bare, bareStmts_bareStmts body]
  | .loop _ _ body orElse _ _ _ => by
      simp only [Stmt.bare, Expr.bare_bare, bareOption_bareOption, bareStmts_bareStmts body,
        bareStmts_bareStmts orElse]
  | .branch first => by simp only [Stmt.bare, first.bare_bare]
  | .bind _ _ body _ => by simp only [Stmt.bare, bareExprs_bareExprs, bareStmts_bareStmts body]
  | .capture _ _ body _ | .filterBlock _ body _ => by
      simp only [Stmt.bare, Expr.bare_bare, bareOption_bareOption, bareStmts_bareStmts body]
  | .macroBlock _ _ _ body _ | .callBlock _ _ _ body _ => by
      simp only [Stmt.bare, Expr.bare_bare, bareExprs_bareExprs, bareStmts_bareStmts body]
  | .skip _ | .leave _ => rfl
  | .autoescape _ body _ => by
      simp only [Stmt.bare, bareKeywords_bareKeywords, bareStmts_bareStmts body]

theorem bareStmts_bareStmts : (stmts : List Stmt) → bareStmts (bareStmts stmts) = bareStmts stmts
  | [] => rfl
  | stmt :: stmts => by simp only [bareStmts, stmt.bare_bare, bareStmts_bareStmts stmts]

theorem Branch.bare_bare : (branch : Branch) → branch.bare.bare = branch.bare
  | .mk test body others orElse _ => by
      simp only [Branch.bare, test.bare_bare, bareStmts_bareStmts body,
        bareBranches_bareBranches others, bareStmts_bareStmts orElse]

theorem bareBranches_bareBranches :
    (branches : List Branch) → bareBranches (bareBranches branches) = bareBranches branches
  | [] => rfl
  | branch :: branches => by
      simp only [bareBranches, branch.bare_bare, bareBranches_bareBranches branches]

end

theorem Expr.isTest_bare (expr : Expr) : expr.bare.isTest = expr.isTest := by
  cases expr <;> rfl

theorem Expr.isCall_bare (expr : Expr) : expr.bare.isCall = expr.isCall := by
  cases expr <;> rfl

namespace Spelling

variable {marked : Prop} {table ts us : List Token}

/-! ### Expressions -/

abbrev SpellsBare : Place → Spelling Expr :=
  fun place expr ts us => Spells False place expr.bare ts us

def Argument.bare : Argument → Argument
  | .positional value => .positional value.bare
  | .keyword argument => .keyword argument.bare
  | .star value => .star value.bare
  | .doubleStar value => .doubleStar value.bare

variable {arguments : Arguments Expr} {expr : Expr} {pairs : List TagPair}

theorem Arranged.bare {items : List Argument} (h : Arranged arguments items) :
    Arranged arguments.bare (items.map Argument.bare) := by
  cases h with
  | @plain positional keywords doubleStar =>
      simpa [Arguments.bare, bareExprs_eq_map, bareKeywords_eq_map, bareOption_eq_map, Argument.bare,
        Function.comp_def, Option.toList_map] using
        @Arranged.plain (positional.map Expr.bare) (keywords.map Keyword.bare)
          (doubleStar.map Expr.bare)
  | @starred positional before after star doubleStar =>
      simpa [Arguments.bare, bareExprs_eq_map, bareKeywords_eq_map, bareOption_eq_map, Argument.bare,
        Function.comp_def, Option.toList_map] using
        @Arranged.starred (positional.map Expr.bare) (before.map Keyword.bare)
          (after.map Keyword.bare) star.bare (doubleStar.map Expr.bare)

theorem Behind.bare {front : Token → Bool} (h : Behind front (SpellsBare .value) expr ts us) :
    Behind front (Spells False .value) expr.bare ts us := by
  cases h with
  | mk htoken hexpr => exact .mk htoken hexpr

theorem Possibly.map {α β : Type} {spelled : Spelling α} {spelled' : Spelling β} {f : α → β}
    {value : Option α} (h : Possibly spelled value ts us)
    (hf : ∀ value ts us, spelled value ts us → spelled' (f value) ts us) :
    Possibly spelled' (value.map f) ts us := by
  cases h with
  | none => exact .none
  | some hvalue => exact .some (hf _ _ _ hvalue)

theorem InBrackets.bare (h : InBrackets SpellsBare expr ts us) :
    InBrackets (Spells False) expr.bare ts us := by
  obtain ⟨place, hplace, hexpr⟩ := h
  exact ⟨place, hplace, hexpr⟩

theorem EntrySpelled.bare {entry : Entry Expr} (h : EntrySpelled marked SpellsBare entry ts us) :
    EntrySpelled False (Spells False) entry.bare ts us := by
  cases h with
  | mk hkey hcolon hvalue _ => exact .mk hkey hcolon hvalue False.elim

theorem OperandSpelled.bare {operand : Operand Expr}
    (h : OperandSpelled marked SpellsBare operand ts us) :
    OperandSpelled False (Spells False) operand.bare ts us := by
  cases h with
  | mk hop hvalue _ => exact .mk hop hvalue False.elim

theorem ArgumentSpelled.bare {argument : Argument}
    (h : ArgumentSpelled marked SpellsBare argument ts us) :
    ArgumentSpelled False (Spells False) argument.bare ts us := by
  cases h with
  | positional hvalue => exact .positional hvalue
  | keyword hname hequals hvalue _ => exact .keyword hname hequals hvalue False.elim
  | star hstar hvalue => exact .star hstar hvalue
  | doubleStar hstar hvalue => exact .doubleStar hstar hvalue

theorem CallSpelled.bare {pair : TagPair} (h : CallSpelled marked SpellsBare arguments pair ts us) :
    CallSpelled False (Spells False) arguments.bare pair ts us := by
  cases h with
  | mk hitems hopening hlisted hclosing =>
      exact .mk hitems.bare hopening (hlisted.map fun _ _ _ _ => ArgumentSpelled.bare) hclosing

theorem FilterArguments.bare (h : FilterArguments marked SpellsBare arguments pairs ts us) :
    FilterArguments False (Spells False) arguments.bare pairs ts us := by
  cases h with
  | none hnext => exact .none hnext
  | call hcall => exact .call hcall.bare

theorem TestArguments.toBare (h : TestArguments marked SpellsBare arguments pairs ts us) :
    TestArguments False (Spells False) arguments.bare pairs ts us := by
  cases h with
  | none hnext => exact .none hnext
  | bare hvalue hnext => exact .bare hvalue hnext
  | call hcall => exact .call hcall.bare

theorem Core.bare {place : Place} (h : Core marked SpellsBare place expr pairs ts us) :
    Core False (Spells False) place expr.bare pairs ts us := by
  cases h with
  | name hplace hassigned htoken => exact .name hplace hassigned htoken
  | member hname hpoint hkey => exact .member hname hpoint hkey
  | const hkind htoken => exact .const hkind htoken
  | string hfirst hothers hnext => exact .string hfirst hothers hnext
  | emptyTuple hplace => exact .emptyTuple hplace
  | tuple hplace hitems =>
      rw [Expr.bare, bareExprs_eq_map]
      exact .tuple hplace (hitems.map fun _ _ _ _ => id)
  | indexTuple hitems =>
      rw [Expr.bare, bareExprs_eq_map]
      exact .indexTuple (hitems.map fun _ _ _ _ => InBrackets.bare)
  | list hopening hitems hclosing =>
      rw [Expr.bare, bareExprs_eq_map]
      exact .list hopening (hitems.map fun _ _ _ _ => id) hclosing
  | dict hopening hentries hclosing =>
      rw [Expr.bare, bareEntries_eq_map]
      exact .dict hopening (hentries.map fun _ _ _ _ => EntrySpelled.bare) hclosing
  | conditional htrue hword htest hfalse =>
      rw [Expr.bare, bareOption_eq_map]
      exact .conditional htrue hword htest (hfalse.map fun _ _ _ => Behind.bare)
  | binary hleft hop hright => exact .binary hleft hop hright
  | unary hop hoperand => exact .unary hop hoperand
  | concat hfirst hothers =>
      rw [Expr.bare, bareExprs_eq_map]
      exact .concat hfirst (hothers.map fun _ _ _ _ => Behind.bare)
  | compare hfirst hothers =>
      rw [Expr.bare, bareOperands_eq_map]
      exact .compare hfirst (hothers.map fun _ _ _ _ => OperandSpelled.bare)
  | attr hoperand hpoint hword => exact .attr hoperand hpoint hword
  | dotted hoperand hpoint hindex => exact .dotted hoperand hpoint hindex
  | item hoperand hopening hindex hclosing => exact .item hoperand hopening hindex.bare hclosing
  | emptyItem hoperand hopening hclosing _ =>
      exact .emptyItem hoperand hopening hclosing False.elim
  | slice hstart hcolon hstop hnext =>
      rw [Expr.bare, bareOption_eq_map, bareOption_eq_map]
      exact .slice (hstart.map fun _ _ _ => id) hcolon (hstop.map fun _ _ _ => id) hnext
  | steppedSlice hstart hcolon hstop hsecond hstep =>
      rw [Expr.bare, bareOption_eq_map, bareOption_eq_map, bareOption_eq_map]
      exact .steppedSlice (hstart.map fun _ _ _ => id) hcolon (hstop.map fun _ _ _ => id) hsecond
        (hstep.map fun _ _ _ => id)
  | filter hplace hoperand hbar hname harguments =>
      exact .filter hplace hoperand hbar hname harguments.bare
  | blockFilter hbars hname harguments => exact .blockFilter hbars hname harguments.bare
  | test hoperand hword hnots hname harguments =>
      exact .test hoperand hword hnots hname harguments.toBare
  | call hoperand harguments => exact .call hoperand harguments.bare

theorem Spells.bare {place : Place} (h : Spells marked place expr ts us) :
    Spells False place expr.bare ts us := by
  refine .induct (motive := SpellsBare) ?_ h
  intro place expr ts us hlayer
  refine .fold ?_
  cases hlayer with
  | group hcore hwraps hne _ =>
      exact .group (hcore.mono fun _ _ _ _ hpart => hpart.2).bare hwraps hne False.elim
  | inline hoperand htest _ =>
      exact .inline hoperand.2 ((Expr.isTest_bare _).trans htest) False.elim

/-! ### Statements -/

section Phrases

variable {first second first' second' : Phrase}

theorem Then.mono (hfirst : ∀ ts us, first ts us → first' ts us)
    (hsecond : ∀ ts us, second ts us → second' ts us) (h : Then first second ts us) :
    Then first' second' ts us := by
  obtain ⟨ts', ts'', rfl, hts, hts'⟩ := h
  exact ⟨ts', ts'', rfl, hfirst _ _ hts, hsecond _ _ hts'⟩

theorem TagSpelled.bare {keyword : Text} {pair : TagPair}
    (h : TagSpelled table marked keyword first pair ts us) (hinside : ∀ ts us, first ts us → first' ts us) :
    TagSpelled table False keyword first' pair ts us := by
  cases h with
  | mk hopening hword hfirst hcolons hclosing _ =>
      exact .mk hopening hword (hinside _ _ hfirst) hcolons hclosing False.elim

end Phrases

theorem SetTarget.bare {target : Expr} (h : SetTarget marked target ts us) :
    SetTarget False target.bare ts us := by
  obtain ⟨place, hplace, htarget⟩ := h
  exact ⟨place, hplace, htarget.bare⟩

theorem ParameterSpelled.bare {parameter : Expr × Option Expr}
    (h : ParameterSpelled marked parameter ts us) :
    ParameterSpelled False (parameter.1.bare, parameter.2.map Expr.bare) ts us := by
  refine Then.mono (fun _ _ => .bare) (fun ts us hvalue => ?_) h
  refine hvalue.map fun _ _ _ hbehind => Behind.bare ?_
  exact hbehind.mono fun _ _ _ => .bare

theorem SignatureSpelled.bare {parameters defaults : List Expr}
    (h : SignatureSpelled marked parameters defaults ts us) :
    SignatureSpelled False (bareExprs parameters) (bareExprs defaults) ts us := by
  cases h with
  | @mk plain withs _ _ _ _ hopening hlisted hclosing =>
      have hbare := hlisted.map fun _ _ _ _ => ParameterSpelled.bare
      have hsignature := @SignatureSpelled.mk False (plain.map Expr.bare)
        (withs.map (Prod.map Expr.bare Expr.bare)) _ _ _ _ hopening
        (by simpa [Function.comp_def] using hbare) hclosing
      simpa [bareExprs_eq_map, Function.comp_def] using hsignature

theorem BoundSpelled.bare {node : Expr × Expr} (h : BoundSpelled marked node ts us) :
    BoundSpelled False (Prod.map Expr.bare Expr.bare node) ts us :=
  Then.mono (fun _ _ => .bare) (fun _ _ => Then.mono (fun _ _ => id) fun _ _ => .bare) h

theorem NodeSpelled.bare {part : Expr × Option TagPair} (h : NodeSpelled table marked part ts us) :
    NodeSpelled table False (part.1.bare, part.2) ts us := by
  cases h with
  | data htoken htext _ => exact .data htoken htext False.elim
  | expr hopening hexpr hclosing _ => exact .expr hopening hexpr.bare hclosing False.elim

section Bodies

abbrev StmtSpellsBare (table : List Token) : Spelling Stmt :=
  fun stmt ts us => StmtSpells table False stmt.bare ts us

variable {stmts : List Stmt}

theorem Chained.bare (h : Chained (StmtSpellsBare table) stmts ts us) :
    Chained (StmtSpells table False) (bareStmts stmts) ts us := by
  rw [bareStmts_eq_map]
  exact h.map fun _ _ _ _ => id

theorem BranchSpelled.bare {part : Branch × TagPair}
    (h : BranchSpelled table marked (StmtSpellsBare table) part ts us) :
    BranchSpelled table False (StmtSpells table False) (part.1.bare, part.2) ts us := by
  cases h with
  | mk htag hstmts _ =>
      exact .mk (.bare htag fun _ _ => .bare) (Chained.bare hstmts) False.elim

theorem ElseSpelled.bare {pairs : List TagPair}
    (h : ElseSpelled table marked (StmtSpellsBare table) stmts pairs ts us) :
    ElseSpelled table False (StmtSpells table False) (bareStmts stmts) pairs ts us := by
  cases h with
  | none => exact .none
  | some htag hstmts => exact .some (.bare htag fun _ _ => id) (Chained.bare hstmts)

theorem EnclosedSpelled.bare {keyword stop : Text} {inside inside' last : Phrase}
    {pairs : List TagPair}
    (h : EnclosedSpelled table marked (StmtSpellsBare table) keyword stop inside last stmts pairs ts us)
    (hinside : ∀ ts us, inside ts us → inside' ts us) :
    EnclosedSpelled table False (StmtSpells table False) keyword stop inside' last (bareStmts stmts)
      pairs ts us := by
  cases h with
  | mk hfirst hstmts hsecond =>
      exact .mk (.bare hfirst hinside) (Chained.bare hstmts)
        (.bare hsecond fun _ _ => id)

theorem StmtLayer.bare {stmt : Stmt} (h : StmtLayer table marked (StmtSpellsBare table) stmt ts us) :
    StmtLayer table False (StmtSpells table False) stmt.bare ts us := by
  cases h with
  | @output parts _ _ _ hne hparts _ =>
      have hbare := hparts.map fun _ _ _ _ => NodeSpelled.bare
      have houtput : StmtLayer table False (StmtSpells table False) (.output _ {}) ts us :=
        .output (by simpa using hne) hbare False.elim
      simpa [Stmt.bare, bareExprs_eq_map, Function.comp_def] using houtput
  | print htag _ =>
      rw [Stmt.bare, bareExprs_eq_map]
      exact .print (.bare htag fun _ _ hnodes => hnodes.map fun _ _ _ _ => .bare)
        False.elim
  | extend htag _ => exact .extend (.bare htag fun _ _ => .bare) False.elim
  | block henclosed _ => exact .block (.bare henclosed fun _ _ => id) False.elim
  | insert htag _ =>
      exact .insert (.bare htag fun _ _ => Then.mono (fun _ _ => .bare) fun _ _ => id)
        False.elim
  | importAs htag _ =>
      exact .importAs
        (.bare htag fun _ _ => Then.mono (fun _ _ => .bare) fun _ _ => id) False.elim
  | importNames htag _ =>
      exact .importNames
        (.bare htag fun _ _ => Then.mono (fun _ _ => .bare) fun _ _ => id) False.elim
  | loop hfirst hstmts hothers hlast _ =>
      rw [Stmt.bare, bareOption_eq_map]
      refine .loop (.bare hfirst fun _ _ => ?_) (Chained.bare hstmts)
        (ElseSpelled.bare hothers) (.bare hlast fun _ _ => id) False.elim
      refine Then.mono (fun _ _ => .bare) fun _ _ => Then.mono (fun _ _ => id) fun _ _ =>
        Then.mono (fun _ _ => .bare) fun _ _ => Then.mono (fun _ _ htest => ?_) fun _ _ => id
      exact htest.map fun _ _ _ hbehind => Behind.bare (hbehind.mono fun _ _ _ => .bare)
  | branch hfirst hstmts hbranches hothers hlast _ =>
      have hbare := hbranches.map fun _ _ _ _ => BranchSpelled.bare
      have hbranch : StmtLayer table False (StmtSpells table False) (.branch (.mk _ _ _ _ {})) _ us :=
        .branch (.bare hfirst fun _ _ => .bare) (Chained.bare hstmts) hbare
          (ElseSpelled.bare hothers) (.bare hlast fun _ _ => id) False.elim
      simpa [Stmt.bare, Branch.bare, bareBranches_eq_map, Function.comp_def] using hbranch
  | bind henclosed _ =>
      have hbind : StmtLayer table False (StmtSpells table False) (.bind _ _ _ {}) ts us :=
        .bind (.bare henclosed fun _ _ hbindings =>
          hbindings.map fun _ _ _ _ => BoundSpelled.bare) False.elim
      simpa [Stmt.bare, bareExprs_eq_map, Function.comp_def] using hbind
  | perform htag _ => exact .perform (.bare htag fun _ _ => .bare) False.elim
  | assign htag _ =>
      refine .assign (.bare htag fun _ _ => Then.mono (fun _ _ => SetTarget.bare) fun _ _ =>
        Then.mono (fun _ _ => id) fun _ _ => .bare) False.elim
  | capture henclosed _ =>
      rw [Stmt.bare, bareOption_eq_map]
      refine .capture (.bare henclosed fun _ _ =>
        Then.mono (fun _ _ => SetTarget.bare) fun _ _ hfilter => ?_) False.elim
      exact hfilter.map fun _ _ _ => .bare
  | filterBlock henclosed _ =>
      exact .filterBlock (.bare henclosed fun _ _ => .bare) False.elim
  | macroBlock henclosed _ =>
      exact .macroBlock (.bare henclosed fun _ _ =>
        Then.mono (fun _ _ => id) fun _ _ => SignatureSpelled.bare) False.elim
  | callBlock hcall henclosed _ =>
      refine .callBlock ((Expr.isCall_bare _).trans hcall) (.bare henclosed fun _ _ =>
        Then.mono (fun _ _ hsignature => ?_) fun _ _ => .bare) False.elim
      obtain hsignature | ⟨rfl, rfl, rfl, hnext⟩ := hsignature
      · exact .inl hsignature.bare
      · exact .inr ⟨rfl, rfl, rfl, hnext⟩
  | skip htag _ => exact .skip (.bare htag fun _ _ => id) False.elim
  | leave htag _ => exact .leave (.bare htag fun _ _ => id) False.elim
  | scope hinner _ => exact .scope hinner False.elim
  | autoescape henclosed _ _ =>
      exact .autoescape (.bare henclosed fun _ _ => .bare) False.elim False.elim

theorem StmtSpells.bare {stmt : Stmt} (h : StmtSpells table marked stmt ts us) :
    StmtSpells table False stmt.bare ts us := by
  refine .induct (motive := StmtSpellsBare table) ?_ h
  intro stmt ts us hlayer
  exact .fold (hlayer.mono fun _ _ _ hpart => hpart.2).bare

theorem TemplateSpells.bare {template : Template} {last : Token}
    (h : TemplateSpells table marked template ts last) :
    TemplateSpells table False template.bare ts last where
  split := h.split
  ends := h.ends
  body := Chained.bare (h.body.mono fun _ _ _ => .bare)
  layout := False.elim

end Bodies

end Spelling

end JinjaLayout
