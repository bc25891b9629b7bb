import Mathlib
import JinjaLayout.Proofs.ProductionReads
import JinjaLayout.Proofs.TablePairs

/-!
The brackets of an expression match, so that the table pairs the parentheses around it.
-/

namespace JinjaLayout.Spelling

open Grammar List

def brackets : List (Text × Text) :=
  [("(".toList, ")".toList), ("[".toList, "]".toList), (['{'], ['}'])]

def isBracket (token : Token) : Bool :=
  brackets.any fun pair => token.isOperator pair.1 || token.isOperator pair.2

/-- Whether the token stands in an expression and is no bracket. -/
def isPlain (token : Token) : Bool :=
  token.isKind .name || token.isKind .integer || token.isKind .float || token.isKind .string ||
    token.isKind .operator &&
      brackets.all fun pair => !token.isOperator pair.1 && !token.isOperator pair.2

inductive Matched : List Token → Prop where
  | nil : Matched []
  | plain {token ts} (htoken : isPlain token) (h : Matched ts) : Matched (token :: ts)
  | pair {opening closing pair ts us} (hpair : pair ∈ brackets)
      (hopening : opening.isOperator pair.1) (hclosing : closing.isOperator pair.2)
      (hinner : Matched ts) (h : Matched us) : Matched (opening :: (ts ++ closing :: us))

namespace Matched

variable {ts us : List Token}

theorem append (h : Matched ts) (hus : Matched us) : Matched (ts ++ us) := by
  induction h with
  | nil => exact hus
  | plain htoken _ ih => exact .plain htoken ih
  | pair hpair hopening hclosing hinner _ _ ih =>
      simpa using Matched.pair hpair hopening hclosing hinner ih

theorem bracketed {opening closing : Token} (h : Matched ts) (pair : Text × Text)
    (hpair : pair ∈ brackets) (hopening : opening.isOperator pair.1)
    (hclosing : closing.isOperator pair.2) : Matched (opening :: (ts ++ [closing])) :=
  .pair hpair hopening hclosing h .nil

end Matched

variable {token : Token} {ts : List Token}

theorem isPlain_of_isKind {kind : TokenKind} (h : token.isKind kind)
    (hkind : kind ∈ [TokenKind.name, .integer, .float, .string]) : isPlain token := by
  unfold isPlain
  simp only [mem_cons, not_mem_nil, or_false] at hkind
  rcases hkind with rfl | rfl | rfl | rfl <;> simp [h]

theorem isPlain_of_isName {word : Text} (h : token.isName word) :
    isPlain token = true :=
  isPlain_of_isKind (isKind_of_isName h) (by decide)

theorem isPlain_of_isOperator {symbol : Text} (h : token.isOperator symbol)
    (hsymbol : ∀ pair ∈ brackets, symbol ≠ pair.1 ∧ symbol ≠ pair.2) : isPlain token := by
  have hnot : ∀ other, symbol ≠ other → token.isOperator other = false := by
    intro other hne
    exact Bool.eq_false_iff.mpr fun hother => hne (isOperator_unique h hother)
  have hall : (brackets.all fun pair => !token.isOperator pair.1 && !token.isOperator pair.2) := by
    refine all_eq_true.mpr fun pair hpair => ?_
    simp [hnot _ (hsymbol pair hpair).1, hnot _ (hsymbol pair hpair).2]
  simp [isPlain, isKind_of_isOperator h, hall]

theorem isBracket_of_isPlain (h : isPlain token) : isBracket token = false := by
  refine Bool.eq_false_iff.mpr fun hbracket => ?_
  obtain ⟨pair, hpair, hsymbol⟩ := any_eq_true.mp hbracket
  have hoperator : token.isKind .operator :=
    (Bool.or_eq_true_iff.mp hsymbol).elim isKind_of_isOperator isKind_of_isOperator
  have hkind : ∀ kind, .operator ≠ kind → token.isKind kind = false := fun kind =>
    isKind_eq_false hoperator
  rw [isPlain, hkind _ (by decide), hkind _ (by decide), hkind _ (by decide), hkind _ (by decide),
    hoperator] at h
  have hnot := all_eq_true.mp h pair hpair
  rw [← Bool.not_or, hsymbol] at hnot
  exact Bool.false_ne_true hnot

section Parts

variable {α : Type} {spelled : Spelling α} {ts us : List Token}
  (h : ∀ value ts us, spelled value ts us → Matched ts)

include h

theorem Listed.matched {values : List α} (hvalues : Listed spelled values ts us) : Matched ts := by
  induction hvalues with
  | nil => exact .nil
  | last hvalue _ => exact h _ _ _ hvalue
  | more hvalue hcomma _ ih =>
      exact (h _ _ _ hvalue).append (.plain (isPlain_of_isOperator hcomma (by decide)) ih)

theorem Chained.matched {values : List α} (hvalues : Chained spelled values ts us) :
    Matched ts := by
  induction hvalues with
  | nil => exact .nil
  | cons hvalue _ ih => exact (h _ _ _ hvalue).append ih

theorem Tupled.matched {values : List α} (hvalues : Tupled spelled values ts us) : Matched ts := by
  cases hvalues with
  | mk hfirst hcomma hothers =>
      exact (h _ _ _ hfirst).append
        (.plain (isPlain_of_isOperator hcomma (by decide)) (hothers.matched h))

theorem Possibly.matched {value : Option α} (hvalue : Possibly spelled value ts us) :
    Matched ts := by
  cases hvalue with
  | none => exact .nil
  | some hvalue => exact h _ _ _ hvalue

theorem Behind.matched {front : Token → Bool} {value : α}
    (hfront : ∀ token, front token → isPlain token = true)
    (hvalue : Behind front spelled value ts us) : Matched ts := by
  cases hvalue with
  | mk htoken hvalue => exact .plain (hfront _ htoken) (h _ _ _ hvalue)

end Parts

theorem Dotted.matched {words : List Text} (h : Dotted words ts) : Matched ts := by
  induction h with
  | last htoken => exact .plain (isPlain_of_isName htoken) .nil
  | more htoken hpoint _ ih =>
      exact .plain (isPlain_of_isName htoken) (.plain (isPlain_of_isOperator hpoint (by decide)) ih)

theorem Compares.matched {op : CompareOp} (h : Compares op ts) : Matched ts := by
  cases h with
  | mem htoken => exact .plain (isPlain_of_isName htoken) .nil
  | notMem hfirst hsecond =>
      exact .plain (isPlain_of_isName hfirst) (.plain (isPlain_of_isName hsecond) .nil)
  | symbol _ _ htoken =>
      exact .plain (isPlain_of_isOperator htoken (by cases op <;> decide)) .nil

theorem isPlain_of_unaryFits {op : UnaryOp} (h : unaryFits op token) :
    isPlain token := by
  unfold unaryFits at h
  split at h
  · exact isPlain_of_isName h
  · exact isPlain_of_isOperator h (by cases op <;> decide)

theorem isPlain_of_binaryFits {op : BinaryOp} (h : binaryFits op token) :
    isPlain token := by
  unfold binaryFits at h
  split at h
  · exact isPlain_of_isName h
  · exact isPlain_of_isOperator h (by cases op <;> decide)

section Layer

variable {marked : Prop} {spelled : Place → Spelling Expr} {ts us : List Token}
  (h : ∀ place expr ts us, spelled place expr ts us → Matched ts)

include h

theorem EntrySpelled.matched {entry : Entry Expr} (hentry : EntrySpelled marked spelled entry ts us) :
    Matched ts := by
  cases hentry with
  | mk hkey hcolon hvalue _ =>
      exact (h _ _ _ _ hkey).append
        (.plain (isPlain_of_isOperator hcolon (by decide)) (h _ _ _ _ hvalue))

theorem OperandSpelled.matched {operand : Operand Expr}
    (hoperand : OperandSpelled marked spelled operand ts us) : Matched ts := by
  cases hoperand with
  | mk hop hvalue _ => exact hop.matched.append (h _ _ _ _ hvalue)

theorem ArgumentSpelled.matched {argument : Argument}
    (hargument : ArgumentSpelled marked spelled argument ts us) : Matched ts := by
  cases hargument with
  | positional hvalue => exact h _ _ _ _ hvalue
  | keyword hname hequals hvalue _ =>
      exact .plain (isPlain_of_isName hname)
        (.plain (isPlain_of_isOperator hequals (by decide)) (h _ _ _ _ hvalue))
  | star hstar hvalue | doubleStar hstar hvalue =>
      exact .plain (isPlain_of_isOperator hstar (by decide)) (h _ _ _ _ hvalue)

variable {arguments : Arguments Expr} {pairs : List TagPair}

theorem CallSpelled.matched {pair : TagPair}
    (hcall : CallSpelled marked spelled arguments pair ts us) : Matched ts := by
  cases hcall with
  | mk _ hopening hlisted hclosing =>
      exact (hlisted.matched fun _ _ _ => ArgumentSpelled.matched h).bracketed
        ("(".toList, ")".toList) (by decide) hopening hclosing

theorem FilterArguments.matched (harguments : FilterArguments marked spelled arguments pairs ts us) :
    Matched ts := by
  cases harguments with
  | none _ => exact .nil
  | call hcall => exact hcall.matched h

theorem TestArguments.matched (harguments : TestArguments marked spelled arguments pairs ts us) :
    Matched ts := by
  cases harguments with
  | none _ => exact .nil
  | bare hvalue _ => exact h _ _ _ _ hvalue
  | call hcall => exact hcall.matched h

theorem Core.matched {place : Place} {expr : Expr}
    (hcore : Core marked spelled place expr pairs ts us) : Matched ts := by
  have hplain : ∀ {token : Token} {symbol : Text} {ts : List Token},
      token.isOperator symbol → (∀ pair ∈ brackets, symbol ≠ pair.1 ∧ symbol ≠ pair.2) →
      Matched ts → Matched (token :: ts) :=
    fun htoken hsymbol => .plain (isPlain_of_isOperator htoken hsymbol)
  cases hcore with
  | name _ _ htoken => exact .plain (isPlain_of_isName htoken) .nil
  | member hname hpoint hkey =>
      exact .plain (isPlain_of_isName hname)
        (hplain hpoint (by decide) (.plain (isPlain_of_isName hkey) .nil))
  | @const value _ _ _ _ htoken =>
      exact .plain (isPlain_of_isKind htoken (by cases value <;> simp [constantKind])) .nil
  | @string _ _ _ others _ hfirst hothers _ =>
      refine .plain (isPlain_of_isKind hfirst (by decide)) ?_
      induction others with
      | nil => exact .nil
      | cons other others ih =>
          exact .plain (isPlain_of_isKind (hothers other mem_cons_self) (by decide))
            (ih fun token htoken => hothers token (mem_cons_of_mem _ htoken))
  | emptyTuple _ => exact .nil
  | tuple _ hitems => exact hitems.matched (h _)
  | indexTuple hitems =>
      exact hitems.matched fun value ts us hvalue => h _ _ _ _ hvalue.choose_spec.2
  | list hopening hitems hclosing =>
      exact (hitems.matched (h _)).bracketed ("[".toList, "]".toList) (by decide) hopening
        hclosing
  | dict hopening hentries hclosing =>
      exact (hentries.matched fun _ _ _ => EntrySpelled.matched h).bracketed (['{'], ['}'])
        (by decide) hopening hclosing
  | conditional htrue hword htest hfalse =>
      refine (h _ _ _ _ htrue).append (.plain (isPlain_of_isName hword)
        ((h _ _ _ _ htest).append (hfalse.matched fun value ts us hvalue => ?_)))
      exact hvalue.matched (h _) fun _ => isPlain_of_isName
  | binary hleft hop hright =>
      exact (h _ _ _ _ hleft).append (.plain (isPlain_of_binaryFits hop) (h _ _ _ _ hright))
  | unary hop hoperand => exact .plain (isPlain_of_unaryFits hop) (h _ _ _ _ hoperand)
  | concat hfirst hothers =>
      refine (h _ _ _ _ hfirst).append (hothers.matched fun value ts us hvalue => ?_)
      exact hvalue.matched (h _) fun _ htoken => isPlain_of_isOperator htoken (by decide)
  | compare hfirst hothers =>
      exact (h _ _ _ _ hfirst).append (hothers.matched fun _ _ _ => OperandSpelled.matched h)
  | attr hoperand hpoint hword =>
      exact (h _ _ _ _ hoperand).append
        (hplain hpoint (by decide) (.plain (isPlain_of_isName hword) .nil))
  | dotted hoperand hpoint hindex =>
      exact (h _ _ _ _ hoperand).append (hplain hpoint (by decide) (h _ _ _ _ hindex))
  | item hoperand hopening hindex hclosing =>
      exact (h _ _ _ _ hoperand).append ((h _ _ _ _ hindex.choose_spec.2).bracketed
        ("[".toList, "]".toList) (by decide) hopening hclosing)
  | emptyItem hoperand hopening hclosing _ =>
      exact (h _ _ _ _ hoperand).append (Matched.nil.bracketed ("[".toList, "]".toList)
        (by decide) hopening hclosing)
  | slice hstart hcolon hstop _ =>
      exact (hstart.matched (h _)).append (hplain hcolon (by decide) (hstop.matched (h _)))
  | steppedSlice hstart hcolon hstop hsecond hstep =>
      exact (hstart.matched (h _)).append (hplain hcolon (by decide)
        ((hstop.matched (h _)).append (hplain hsecond (by decide) (hstep.matched (h _)))))
  | filter _ hoperand hbar hname harguments =>
      exact (h _ _ _ _ hoperand).append
        (hplain hbar (by decide) (hname.matched.append (harguments.matched h)))
  | blockFilter hbars hname harguments =>
      rcases hbars with rfl | ⟨bar, rfl, hbar⟩
      · exact hname.matched.append (harguments.matched h)
      · exact hplain hbar (by decide) (hname.matched.append (harguments.matched h))
  | test hoperand hword hnots hname harguments =>
      refine (h _ _ _ _ hoperand).append (.plain (isPlain_of_isName hword) ?_)
      rcases hnots with ⟨rfl, -⟩ | ⟨token, rfl, htoken⟩
      · exact hname.matched.append (harguments.matched h)
      · exact .plain (isPlain_of_isName htoken) (hname.matched.append (harguments.matched h))
  | call hoperand harguments => exact (h _ _ _ _ hoperand).append (harguments.matched h)

end Layer

theorem Wraps.matched {ts' : List Token} {groups : List (Token × Token)} (h : Wraps ts ts' groups)
    (hts : Matched ts) : Matched ts' := by
  induction h with
  | bare => exact hts
  | paren _ hopening hclosing ih =>
      exact ih.bracketed ("(".toList, ")".toList) (by decide) hopening hclosing

theorem Spells.matched {marked : Prop} {place : Place} {expr : Expr} {us : List Token}
    (h : Spells marked place expr ts us) : Matched ts := by
  refine induct (motive := fun _ _ ts _ => Matched ts) ?_ h
  intro place expr ts us hlayer
  cases hlayer with
  | group hcore hwraps _ _ => exact hwraps.matched (hcore.matched fun _ _ _ _ hpart => hpart.2)
  | inline hoperand _ _ => exact hoperand.2

/-! ### In the table -/

section Faithful

variable {token : Token} {kind : TokenKind} (h : token.IsFaithful)

include h

theorem lexical_of_isKind (hkind : token.isKind kind) : token.kind.lexical = kind := by
  unfold Token.isKind Cursor.fits at hkind
  cases hlexeme : token.lexeme with
  | none => simp [hlexeme] at hkind
  | some lexeme =>
      rw [← h.kind_eq lexeme hlexeme]
      simpa [hlexeme] using hkind

theorem kind_of_isKind (hkind : token.isKind kind) (hword : kind.isWord) :
    token.kind = kind := by
  have hlexical := lexical_of_isKind h hkind
  revert hlexical hword
  cases token.kind <;> cases kind <;> simp [TokenKind.lexical, TokenKind.isWord]

theorem text_of_isOperator {symbol : Text} (hsymbol : token.isOperator symbol) :
    token.kind = .operator ∧ token.text = symbol := by
  have hkind := kind_of_isKind h (isKind_of_isOperator hsymbol) rfl
  refine ⟨hkind, ?_⟩
  unfold Token.isOperator Cursor.fits at hsymbol
  cases hlexeme : token.lexeme with
  | none => simp [hlexeme] at hsymbol
  | some lexeme =>
      simp only [hlexeme, Option.isNone_some, Bool.false_or, Bool.and_eq_true, beq_iff_eq,
        Option.some.injEq] at hsymbol
      rw [← h.value_eq lexeme hlexeme (.inr hkind), hsymbol.2]

end Faithful

theorem kind_of_isPlain (h : token.IsFaithful) (hplain : isPlain token) :
    token.kind.isWord ∧ token.opens = false ∧ token.closes = false := by
  have hother : ∀ kind, token.isKind kind → kind.isWord → kind ≠ .operator →
      token.kind.isWord ∧ token.opens = false ∧ token.closes = false := by
    intro kind hkind hword hne
    have hdelimiter : kind.isBegin = false ∧ kind.isEnd = false := by
      revert hword
      cases kind <;> decide
    rw [Token.opens, Token.closes, kind_of_isKind h hkind hword, hdelimiter.1, hdelimiter.2,
      beq_false_of_ne hne]
    exact ⟨hword, rfl, rfl⟩
  unfold isPlain at hplain
  simp only [Bool.or_eq_true, Bool.and_eq_true] at hplain
  rcases hplain with (((hkind | hkind) | hkind) | hkind) | ⟨hkind, hbrackets⟩
  · exact hother _ hkind rfl (by decide)
  · exact hother _ hkind rfl (by decide)
  · exact hother _ hkind rfl (by decide)
  · exact hother _ hkind rfl (by decide)
  · have hoperator := kind_of_isKind h hkind rfl
    obtain ⟨lexeme, hlexeme⟩ : ∃ lexeme, token.lexeme = some lexeme := by
      unfold Token.isKind Cursor.fits at hkind
      cases hlexeme : token.lexeme with
      | none => simp [hlexeme] at hkind
      | some lexeme => exact ⟨lexeme, rfl⟩
    have htext : token.isOperator token.text := by
      rw [isKind_of_lexeme hlexeme] at hkind
      rw [isOperator_of_lexeme hlexeme]
      simpa [Lexeme.isOperator, h.value_eq lexeme hlexeme (.inr hoperator)] using hkind
    have hnot : ∀ pair ∈ brackets, token.text ≠ pair.1 ∧ token.text ≠ pair.2 := by
      intro pair hpair
      have hpair' := all_eq_true.mp hbrackets pair hpair
      simp only [Bool.and_eq_true, Bool.not_eq_true'] at hpair'
      constructor
      · intro heq
        rw [← heq, htext] at hpair'
        simp at hpair'
      · intro heq
        rw [← heq, htext] at hpair'
        simp at hpair'
    simp only [brackets, mem_cons, not_mem_nil, or_false, forall_eq_or_imp,
      forall_eq] at hnot
    simp only [Token.opens, Token.closes, hoperator, contains_cons, contains_nil,
      beq_false_of_ne hnot.1.1, beq_false_of_ne hnot.1.2, beq_false_of_ne hnot.2.1.1,
      beq_false_of_ne hnot.2.1.2, beq_false_of_ne hnot.2.2.1, beq_false_of_ne hnot.2.2.2]
    decide

theorem kind_of_brackets {opening closing : Token} (pair : Text × Text) (hpair : pair ∈ brackets)
    (hopening : opening.kind = .operator ∧ opening.text = pair.1)
    (hclosing : closing.kind = .operator ∧ closing.text = pair.2) :
    opening.opens ∧ closing.opens = false ∧ closing.closes = true ∧
      closing.matchesOpener opening := by
  obtain ⟨hopening, htext⟩ := hopening
  obtain ⟨hclosing, htext'⟩ := hclosing
  simp only [brackets, mem_cons, not_mem_nil, or_false] at hpair
  unfold Token.opens Token.closes Token.matchesOpener
  rw [hopening, hclosing, htext, htext']
  rcases hpair with rfl | rfl | rfl <;> decide

theorem Matched.balanced (h : Matched ts) (hfaithful : ∀ token ∈ ts, token.IsFaithful) :
    Balanced ts ∧ ∀ token ∈ ts, token.kind.isWord := by
  induction h with
  | nil => exact ⟨.nil, by simp⟩
  | plain htoken _ ih =>
      rw [forall_mem_cons] at hfaithful ⊢
      obtain ⟨hword, hopens, hcloses⟩ := kind_of_isPlain hfaithful.1 htoken
      obtain ⟨hbalanced, hwords⟩ := ih hfaithful.2
      exact ⟨.other hopens hcloses hbalanced, hword, hwords⟩
  | pair hpair hopening hclosing _ _ ihInner ih =>
      rw [forall_mem_cons, forall_mem_append, forall_mem_cons] at hfaithful ⊢
      obtain ⟨hfirst, hinner, hlast, hrest⟩ := hfaithful
      have hopening' := text_of_isOperator hfirst hopening
      have hclosing' := text_of_isOperator hlast hclosing
      obtain ⟨hopens, hnot, hcloses, hmatches⟩ := kind_of_brackets _ hpair hopening' hclosing'
      refine ⟨.pair hopens hnot hcloses hmatches (ihInner hinner).1 (ih hrest).1, ?_, ?_, ?_, ?_⟩
      · rw [hopening'.1]
        rfl
      · exact (ihInner hinner).2
      · rw [hclosing'.1]
        rfl
      · exact (ih hrest).2

theorem isFaithful_of_split {table before after : List Token} {opening closing : Token}
    (htable : IsTable table)
    (hsplit : significant table = before ++ opening :: (ts ++ closing :: after)) :
    opening.IsFaithful ∧ (∀ token ∈ ts, token.IsFaithful) ∧ closing.IsFaithful := by
  have hfaithful : ∀ token ∈ opening :: (ts ++ closing :: after), token.IsFaithful := by
    intro token htoken
    refine htable.faithful token (IsTable.mem_of_mem_significant ?_)
    rw [hsplit]
    exact mem_append_right _ htoken
  rw [forall_mem_cons, forall_mem_append, forall_mem_cons] at hfaithful
  exact ⟨hfaithful.1, hfaithful.2.1, hfaithful.2.2.1⟩

theorem Matched.partners {table before after : List Token} {opening closing : Token}
    (h : Matched ts) (htable : IsTable table)
    (hsplit : significant table = before ++ opening :: (ts ++ closing :: after))
    (pair : Text × Text) (hpair : pair ∈ brackets) (hopening : opening.isOperator pair.1)
    (hclosing : closing.isOperator pair.2) :
    opening.partner = some closing.index ∧ closing.partner = some opening.index := by
  obtain ⟨hfirst, hinner, hlast⟩ := isFaithful_of_split htable hsplit
  have hopening' := text_of_isOperator hfirst hopening
  have hclosing' := text_of_isOperator hlast hclosing
  obtain ⟨hopens, hnot, hcloses, hmatches⟩ := kind_of_brackets pair hpair hopening' hclosing'
  obtain ⟨hbalanced, hwords⟩ := h.balanced hinner
  refine htable.partner_of_balanced hsplit ?_ hopens hnot hcloses hmatches hwords hbalanced
  rw [hopening'.1]
  rfl

end JinjaLayout.Spelling
