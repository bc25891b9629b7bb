import Mathlib
import JinjaLayout.Proofs.SpacingPasses

/-!
The two passes over a tag, gap by gap. What they do with the whitespace before a token depends only
on the tokens of the tag up to there, and these the passes keep: so a second run changes nothing.
-/

namespace JinjaLayout.Spacing

open JinjaLayout.Scan JinjaLayout.Text Insertion List

/-! ### The tokens of the tag up to a place -/

/-- The tokens before a place back to the begin of the tag, without the whitespace. -/
def sinceTag : List Token → List Token
  | [] => []
  | token :: before =>
      if token.opensTag then [token]
      else if token.kind = .whitespace then sinceTag before
      else token :: sinceTag before

variable {token previous : Token} {cuts : List Cut}

theorem sinceTag_blank (hkind : token.kind = .whitespace) (before : List Token) :
    sinceTag (token :: before) = sinceTag before := by
  have hopens : token.opensTag = false := by simp [Token.opensTag, hkind]
  simp [sinceTag, hopens, hkind]

theorem sinceTag_cons (hopens : token.opensTag = false) (hkind : token.kind ≠ .whitespace)
    (before : List Token) :
    sinceTag (token :: before) = token :: sinceTag before := by
  simp [sinceTag, hopens, hkind]

theorem openBracket_sinceTag (closed : Nat) (before : List Token) :
    openBracket closed (sinceTag before) = openBracket closed before := by
  induction before generalizing closed with
  | nil => rfl
  | cons token before ih =>
      by_cases hopens : token.opensTag = true
      · simp [sinceTag, openBracket, hopens]
      · by_cases hkind : token.kind = .whitespace
        · simp [sinceTag_blank hkind, openBracket, hopens, Token.isOperator, hkind, ih]
        · rw [sinceTag_cons (by simpa using hopens) hkind]
          simp [openBracket, hopens, ih]

theorem isUnary_sinceTag (symbol : Text) (before : List Token) :
    isUnary symbol (sinceTag before) = isUnary symbol before := by
  have hfind : (sinceTag before).find? (fun token => token.kind != .whitespace) =
      before.find? fun token => token.kind != .whitespace := by
    induction before with
    | nil => rfl
    | cons token before ih =>
        by_cases hkind : token.kind = .whitespace
        · rw [sinceTag_blank hkind, ih]
          simp [hkind]
        · by_cases hopens : token.opensTag = true
          · simp [sinceTag, hopens, hkind]
          · rw [sinceTag_cons (by simpa using hopens) hkind]
            simp [hkind]
  rw [isUnary, isUnary, hfind]

/-- Whether a blank before a token is dropped after the tokens of the tag, nearest first. -/
def isUnwantedAfter : List Token → Token → Bool
  | [], _ => false
  | previous :: before, token => isUnwanted before previous token

theorem isUnwantedAfter_sinceTag (hkind : previous.kind ≠ .whitespace) (before : List Token)
    (token : Token) :
    isUnwantedAfter (sinceTag (previous :: before)) token = isUnwanted before previous token := by
  by_cases hopens : previous.opensTag = true
  · simp [sinceTag, hopens, isUnwantedAfter, isUnwanted]
  · have hsince := sinceTag_cons (by simpa using hopens) hkind before
    have hcontext : context (previous :: sinceTag before) = context (previous :: before) := by
      rw [← hsince]
      exact openBracket_sinceTag 0 _
    simp only [hsince, isUnwantedAfter, isUnwanted, hcontext, isUnary_sinceTag]

/-- Whether an operator asks for a blank behind it. -/
def isDue : List Token → Bool
  | [] => false
  | token :: before =>
      token.kind == .operator &&
        (isSpaced token.text (context before) && !isUnary token.text before ||
          token.text == [','] || (token.text == [':'] && context before == some '{'))

theorem isDue_cons (token : Token) (before : List Token) :
    isDue (token :: before) = (token.kind == .operator &&
      (isSpaced token.text (context before) && !isUnary token.text before ||
        token.text == [','] || (token.text == [':'] && context before == some '{'))) := rfl

/-- Whether the first pass puts a blank before a token that has none, after the tokens of the tag. -/
def wantsBlank (before : List Token) (token : Token) : Bool :=
  before.head?.any Token.opensTag || token.closesTag ||
    (isDue before && !token.isOperator closers) ||
    (token.kind == .operator && isSpaced token.text (context before) &&
      !isUnary token.text before)

/-! ### Tokens with the whitespace before them -/

/-- A token of a tag with the whitespace before it. -/
structure Word where
  gap : Option Text
  token : Token

namespace Word

def gapTokens (gap : Option Text) : List Token :=
  gap.toList.map fun text => ⟨.whitespace, text⟩

def tokens (word : Word) : List Token :=
  gapTokens word.gap ++ [word.token]

def widened (before : List Token) (word : Word) : Word :=
  match word.gap with
  | some gap => { word with gap := some (if gap.contains '\n' then gap else [' ']) }
  | none => { word with gap := if wantsBlank before word.token then some [' '] else none }

def thinned (before : List Token) (word : Word) : Word :=
  { word with gap := word.gap.filter fun gap =>
      gap.contains '\n' || !isUnwantedAfter before word.token }

@[simp]
theorem token_widened (before : List Token) (word : Word) :
    (word.widened before).token = word.token := by
  unfold widened
  split <;> rfl

@[simp]
theorem token_thinned (before : List Token) (word : Word) :
    (word.thinned before).token = word.token := rfl

theorem thinned_widened_idem (before : List Token) (word : Word) :
    (((word.widened before).thinned before).widened before).thinned before =
      (word.widened before).thinned before := by
  obtain ⟨gap, token⟩ := word
  cases gap with
  | none =>
      by_cases hwants : wantsBlank before token <;>
        by_cases hunwanted : isUnwantedAfter before token <;>
          simp [widened, thinned, hwants, hunwanted, Option.filter]
  | some gap =>
      by_cases hline : '\n' ∈ gap
      · simp [widened, thinned, hline, Option.filter]
      · by_cases hwants : wantsBlank before token <;>
          by_cases hunwanted : isUnwantedAfter before token <;>
            simp [widened, thinned, hline, hwants, hunwanted, Option.filter]

/-- Goes over the words of a tag with the tokens before each of them. -/
def along (change : List Token → Word → Word) : List Token → List Word → List Word
  | _, [] => []
  | before, word :: words => change before word :: along change (word.token :: before) words

theorem along_along {first second : List Token → Word → Word}
    (hfirst : ∀ before word, (first before word).token = word.token) (before : List Token)
    (words : List Word) :
    along second before (along first before words) =
      along (fun before word => second before (first before word)) before words := by
  induction words generalizing before with
  | nil => rfl
  | cons word words ih => simp only [along, hfirst, ih]

theorem along_append (change : List Token → Word → Word) (before : List Token)
    (first second : List Word) :
    along change before (first ++ second) =
      along change before first ++ along change ((first.map Word.token).reverse ++ before) second := by
  induction first generalizing before with
  | nil => rfl
  | cons word first ih => simp [along, ih]

/-- The words of a tag after both passes. -/
def settled (before : List Token) (words : List Word) : List Word :=
  along (fun before word => thinned before word) before
    (along (fun before word => widened before word) before words)

theorem settled_eq (before : List Token) (words : List Word) :
    settled before words =
      along (fun before word => (word.widened before).thinned before) before words :=
  along_along (by simp) before words

theorem settled_settled (before : List Token) (words : List Word) :
    settled before (settled before words) = settled before words := by
  rw [settled_eq, settled_eq, along_along (by simp)]
  simp only [thinned_widened_idem]

end Word

/-! ### Both passes over words -/

/-- What may stand in a tag besides whitespace: tokens, and the end of the tag. -/
def IsTagToken (token : Token) : Prop :=
  token.kind.isWord ∨ token.closesTag = true

theorem IsTagToken.facts (h : IsTagToken token) :
    token.opensTag = false ∧ token.kind ≠ .whitespace ∧ token.kind ≠ .comment := by
  obtain ⟨kind, text⟩ := token
  rcases h with h | h <;> revert h <;>
    cases kind <;> simp [TokenKind.isWord, Token.closesTag, Token.opensTag]

theorem IsTagToken.tidied (h : IsTagToken token) (state : Insertion) :
    state.tidied token = token := by
  obtain ⟨-, hblank, hcomment⟩ := h.facts
  simp [Insertion.tidied, Token.isLineBlank, hblank, hcomment]

theorem IsTagToken.sinceTag_cons (h : IsTagToken token) (before : List Token) :
    sinceTag (token :: before) = token :: sinceTag before :=
  Spacing.sinceTag_cons h.facts.1 h.facts.2.1 before

theorem Word.sinceTag_tokens (word : Word) (htoken : IsTagToken word.token) (before : List Token) :
    sinceTag (word.tokens.reverse ++ before) = word.token :: sinceTag before := by
  obtain ⟨gap, token⟩ := word
  cases gap with
  | none => exact htoken.sinceTag_cons before
  | some gap =>
      refine (htoken.sinceTag_cons (⟨.whitespace, gap⟩ :: before)).trans ?_
      rw [sinceTag_blank rfl]

theorem IsTagToken.closesTag_of_isWord (h : token.kind.isWord) :
    token.closesTag = false :=
  (@opensTag_word (token.kind, token.text) h).2

namespace Insertion

/-- The first pass after a token of a tag, its begin included: what it has written ends with that
token, and a blank is due if that token asks for one. -/
structure IsAfter (state : Insertion) : Prop where
  inside_eq : state.inside = true
  head_eq : ∃ previous before, state.written = previous :: before ∧
    previous.kind ≠ .whitespace ∧ previous.kind ≠ .comment
  blankDue_eq : state.blankDue = isDue (sinceTag state.written)

theorem isUnary_and_context_blank (state : Insertion) (symbol : Text) {written : List Token}
    (h : written = Token.blank :: state.written ∨ written = state.written) :
    context written = context (sinceTag state.written) ∧
      isUnary symbol written = isUnary symbol (sinceTag state.written) := by
  have hsince : sinceTag written = sinceTag state.written := by
    rcases h with rfl | rfl
    · exact sinceTag_blank rfl _
    · rfl
  rw [← hsince]
  exact ⟨(openBracket_sinceTag 0 _).symm, (isUnary_sinceTag _ _).symm⟩

variable {state : Insertion}

theorem push_adjacent (hstate : state.IsAfter) {token : Token} (htoken : IsTagToken token) :
    state.push token =
      ⟨token :: (if wantsBlank (sinceTag state.written) token then Token.blank :: state.written
        else state.written), !token.closesTag, isDue (token :: sinceTag state.written)⟩ := by
  obtain ⟨previous, before, hwritten, hblank, hcomment⟩ := hstate.head_eq
  obtain ⟨hopens, hkind, hkindComment⟩ := htoken.facts
  have hhead : (sinceTag state.written).head?.any Token.opensTag = previous.opensTag := by
    rw [hwritten]
    by_cases hprevious : previous.opensTag = true
    · simp [sinceTag, hprevious]
    · simp [sinceTag_cons (by simpa using hprevious) hblank]
  have hneeds : state.needsBlank token = (previous.opensTag || token.closesTag ||
      (isDue (sinceTag state.written) && !token.isOperator closers)) := by
    rw [← hstate.blankDue_eq]
    simp [needsBlank, hwritten, beq_false_of_ne hkind, beq_false_of_ne hkindComment,
      beq_false_of_ne hblank, beq_false_of_ne hcomment, bne]
  have hwants : wantsBlank (sinceTag state.written) token = (state.needsBlank token ||
      (token.kind == .operator && isSpaced token.text (context (sinceTag state.written)) &&
        !isUnary token.text (sinceTag state.written))) := by
    rw [hneeds, wantsBlank, hhead]
  have hinside : (if token.closesTag = true then false else true) = !token.closesTag := by
    cases token.closesTag <;> rfl
  generalize hput : (if state.needsBlank token then Token.blank :: state.written
    else state.written) = put
  obtain ⟨hcontext, hunary⟩ := state.isUnary_and_context_blank token.text
    (show put = Token.blank :: state.written ∨ put = state.written by rw [← hput]; split <;> simp)
  unfold push
  simp only [htoken.tidied state, hput, hcontext, hunary, hopens, hstate.inside_eq, isDue_cons,
    hwants, Bool.false_eq_true, if_false, hinside]
  by_cases hoperator : token.kind = .operator
  · cases hspaced : isSpaced token.text (context (sinceTag state.written)) &&
        !isUnary token.text (sinceTag state.written) with
    | true =>
        have hblankBefore : blankBefore put = Token.blank :: state.written := by
          rw [← hput]
          split
          · simp [blankBefore, Token.blank]
          · rename_i hnot
            have hprevious : previous.opensTag = false := by
              by_contra hcontra
              exact hnot (by simp [hneeds, show previous.opensTag = true by simpa using hcontra])
            simp [blankBefore, hwritten, hprevious, hblank]
        simp [hoperator, hblankBefore, hspaced]
    | false => simp [hoperator, hspaced, hput]
  · simp [hoperator, beq_false_of_ne hoperator, hput]

theorem push_separate (hinside : state.inside) (hdue : state.blankDue = false) {gap : Token}
    {before : List Token} (hwritten : state.written = gap :: before) (hgap : gap.kind = .whitespace)
    {token : Token} (htoken : IsTagToken token) :
    state.push token =
      ⟨token :: state.written, !token.closesTag, isDue (token :: sinceTag state.written)⟩ := by
  obtain ⟨hopens, hkind, hkindComment⟩ := htoken.facts
  have hgapOpens : gap.opensTag = false := by simp [Token.opensTag, hgap]
  have hneeds : state.needsBlank token = false := by
    simp [needsBlank, hwritten, hgapOpens, hgap, hdue]
  have hbefore : blankBefore state.written = state.written := by
    simp [blankBefore, hwritten, hgap]
  have hinsideEq : (if token.closesTag = true then false else true) = !token.closesTag := by
    cases token.closesTag <;> rfl
  obtain ⟨hcontext, hunary⟩ := state.isUnary_and_context_blank token.text (.inr rfl)
  unfold push
  simp only [htoken.tidied state, hneeds, hcontext, hunary, hopens, hinside, isDue_cons,
    Bool.false_eq_true, if_false, hinsideEq, hbefore]
  by_cases hoperator : token.kind = .operator
  · cases hspaced : isSpaced token.text (context (sinceTag state.written)) &&
        !isUnary token.text (sinceTag state.written) with
    | true => simp [hoperator]
    | false => simp [hoperator]
  · simp [hoperator, beq_false_of_ne hoperator]

theorem foldl_push_word (hstate : state.IsAfter) {word : Word} (htoken : IsTagToken word.token) :
    word.tokens.foldl push state =
      ⟨(word.widened (sinceTag state.written)).tokens.reverse ++ state.written,
        !word.token.closesTag, isDue (word.token :: sinceTag state.written)⟩ := by
  obtain ⟨gap, token⟩ := word
  cases gap with
  | none =>
      simp only [Word.tokens, Word.gapTokens, Option.toList_none, map_nil, nil_append,
        foldl_cons, foldl_nil, push_adjacent hstate htoken, Word.widened]
      split <;> simp [Token.blank]
  | some gap =>
      have hpush : state.push ⟨.whitespace, gap⟩ =
          ⟨⟨.whitespace, if gap.contains '\n' then gap else [' ']⟩ :: state.written, true, false⟩ := by
        have htidy : state.tidied ⟨.whitespace, gap⟩ =
            ⟨.whitespace, if gap.contains '\n' then gap else [' ']⟩ := by
          by_cases hline : '\n' ∈ gap <;>
            simp [tidied, hstate.inside_eq, Token.isLineBlank, hline]
        rw [push_of_not_operator htidy (by simp), needsBlank_whitespace]
        simp [Token.opensTag, Token.closesTag, hstate.inside_eq]
      simp only [Word.tokens, Word.gapTokens, Option.toList_some, map_cons, map_nil,
        cons_append, nil_append, foldl_cons, foldl_nil, hpush, Word.widened]
      rw [push_separate rfl rfl rfl rfl htoken, sinceTag_blank rfl]
      simp

theorem foldl_push_words {words : List Word}
    (hwords : ∀ word ∈ words, word.token.kind.isWord = true) (hstate : state.IsAfter) :
    ((words.flatMap Word.tokens).foldl push state).IsAfter ∧
      ((words.flatMap Word.tokens).foldl push state).written =
        ((Word.along (fun before word => word.widened before) (sinceTag state.written)
          words).flatMap Word.tokens).reverse ++ state.written ∧
      sinceTag ((words.flatMap Word.tokens).foldl push state).written =
        (words.map Word.token).reverse ++ sinceTag state.written := by
  induction words generalizing state with
  | nil => exact ⟨hstate, rfl, rfl⟩
  | cons word words ih =>
      have hword := hwords word mem_cons_self
      have htoken : IsTagToken word.token := .inl hword
      have hopen : word.token.closesTag = false := IsTagToken.closesTag_of_isWord hword
      have hstep := foldl_push_word hstate htoken
      have hsince := (word.widened (sinceTag state.written)).sinceTag_tokens
        (by simpa using htoken) state.written
      rw [Word.token_widened] at hsince
      have hafter : (word.tokens.foldl push state).IsAfter := by
        rw [hstep]
        refine ⟨by simp [hopen], ?_, by rw [hsince]⟩
        exact ⟨word.token, (Word.gapTokens (word.widened (sinceTag state.written)).gap).reverse ++
          state.written, by simp [Word.tokens], htoken.facts.2⟩
      obtain ⟨hrun, hwritten, hsinceRun⟩ :=
        ih (fun other hother => hwords other (mem_cons_of_mem _ hother)) hafter
      rw [flatMap_cons, foldl_append]
      refine ⟨hrun, ?_, ?_⟩
      · rw [hwritten, hstep, hsince]
        simp [Word.along]
      · rw [hsinceRun, hstep, hsince]
        simp

end Insertion

theorem dropBlanks_word (hprevious : previous.kind ≠ .whitespace) (before : List Token)
    {word : Word} (htoken : IsTagToken word.token) (tokens : List Token) :
    dropBlanks (previous :: before) (word.tokens ++ tokens) =
      dropBlanks ((word.thinned (sinceTag (previous :: before))).tokens.reverse ++ previous :: before)
        tokens := by
  obtain ⟨gap, token⟩ := word
  have hkeep : ∀ kept, dropBlanks kept (token :: tokens) = dropBlanks (token :: kept) tokens :=
    fun kept => dropBlanks_keep (isDropped_of_not_whitespace htoken.facts.2.1)
  cases gap with
  | none => exact hkeep _
  | some gap =>
      have hdropped : isDropped (previous :: before) ⟨.whitespace, gap⟩ (token :: tokens) =
          (!gap.contains '\n' && isUnwantedAfter (sinceTag (previous :: before)) token) := by
        rw [isUnwantedAfter_sinceTag hprevious]
        simp [isDropped, Token.isLineBlank]
      cases hdrop : !gap.contains '\n' && isUnwantedAfter (sinceTag (previous :: before)) token with
      | true =>
          have hthinned : Word.thinned (sinceTag (previous :: before)) ⟨some gap, token⟩ =
              ⟨none, token⟩ := by
            simp only [Bool.and_eq_true, Bool.not_eq_true'] at hdrop
            simp [Word.thinned, Option.filter, hdrop.1, hdrop.2, -contains_eq_mem]
          rw [hthinned]
          refine (dropBlanks_drop (hdropped.trans hdrop)).trans (hkeep _)
      | false =>
          have hthinned : Word.thinned (sinceTag (previous :: before)) ⟨some gap, token⟩ =
              ⟨some gap, token⟩ := by
            have hkept : (gap.contains '\n' ||
                !isUnwantedAfter (sinceTag (previous :: before)) token) := by
              rw [← Bool.not_eq_false', Bool.not_or, Bool.not_not]
              simpa using hdrop
            simp [Word.thinned, Option.filter, hkept, -contains_eq_mem]
          rw [hthinned]
          exact (dropBlanks_keep (hdropped.trans hdrop)).trans (hkeep _)

theorem dropBlanks_words {words : List Word} (hwords : ∀ word ∈ words, IsTagToken word.token)
    (hprevious : previous.kind ≠ .whitespace) (before tokens : List Token) :
    dropBlanks (previous :: before) (words.flatMap Word.tokens ++ tokens) =
      dropBlanks (((Word.along (fun before word => word.thinned before)
        (sinceTag (previous :: before)) words).flatMap Word.tokens).reverse ++ previous :: before)
        tokens := by
  induction words generalizing previous before with
  | nil => rfl
  | cons word words ih =>
      have htoken := hwords word mem_cons_self
      have hsince := (word.thinned (sinceTag (previous :: before))).sinceTag_tokens htoken
        (previous :: before)
      have hkept : (word.thinned (sinceTag (previous :: before))).tokens.reverse ++
          previous :: before = word.token :: ((Word.gapTokens
            (word.thinned (sinceTag (previous :: before))).gap).reverse ++ previous :: before) := by
        simp [Word.tokens]
      rw [flatMap_cons, append_assoc, dropBlanks_word hprevious before htoken, hkept,
        ih (fun other hother => hwords other (mem_cons_of_mem _ hother)) htoken.facts.2.1,
        ← hkept, hsince]
      simp [Word.along]

/-! ### A whole tag -/

def IsTagWords (closing : Token) (all : List Word) : Prop :=
  ∃ (words : List Word) (gap : Option Text), all = words ++ [⟨gap, closing⟩] ∧
    ∀ word ∈ words, word.token.kind.isWord = true

namespace IsTagWords

variable {closing : Token} {all : List Word}

theorem isTagToken (h : IsTagWords closing all) (hcloses : closing.closesTag) :
    ∀ word ∈ all, IsTagToken word.token := by
  obtain ⟨words, gap, rfl, hwords⟩ := h
  intro word hword
  rcases mem_append.mp hword with hword | hword
  · exact .inl (hwords word hword)
  · obtain rfl := mem_singleton.mp hword
    exact .inr hcloses

theorem along (h : IsTagWords closing all) {change : List Token → Word → Word}
    (hchange : ∀ before word, (change before word).token = word.token) (before : List Token) :
    IsTagWords closing (Word.along change before all) := by
  obtain ⟨words, gap, rfl, hwords⟩ := h
  have hlast : ∀ before, change before ⟨gap, closing⟩ = ⟨(change before ⟨gap, closing⟩).gap, closing⟩ :=
    fun before => congrArg (Word.mk _) (hchange before ⟨gap, closing⟩)
  rw [Word.along_append]
  refine ⟨_, _, congrArg (_ ++ [·]) (hlast _), ?_⟩
  have htokens : (Word.along change before words).map Word.token = words.map Word.token := by
    clear hwords
    induction words generalizing before with
    | nil => rfl
    | cons word words ih => simp [Word.along, hchange, ih]
  intro word hword
  have hmem : word.token ∈ words.map Word.token := htokens ▸ mem_map_of_mem hword
  obtain ⟨other, hother, hsame⟩ := mem_map.mp hmem
  rw [← hsame]
  exact hwords other hother

theorem exists_cuts {closing : Cut} (h : IsTagWords (Token.ofCut closing) all) :
    ∃ cuts, all.flatMap Word.tokens = tokensOf (cuts ++ [closing]) := by
  obtain ⟨words, gap, rfl, -⟩ := h
  refine ⟨(words.flatMap Word.tokens ++ Word.gapTokens gap).map Token.cut, ?_⟩
  rw [tokensOf_append, tokensOf_map_cut]
  simp [Word.tokens]

theorem foldl_push (h : IsTagWords closing all) {opening : Cut}
    (hopens : (Token.ofCut opening).opensTag) (hcloses : closing.closesTag)
    {state : Insertion} (hstate : state.IsOutside) :
    (Token.ofCut opening :: all.flatMap Word.tokens).foldl push state =
      ⟨(Token.ofCut opening :: (Word.along (fun before word => word.widened before)
        [Token.ofCut opening] all).flatMap Word.tokens).reverse ++ state.written, false, false⟩ := by
  obtain ⟨words, gap, rfl, hwords⟩ := h
  have hbegin := push_begin hstate hopens
  have hopening : (Token.ofCut opening).kind ≠ .whitespace ∧ (Token.ofCut opening).kind ≠ .comment ∧
      isDue [Token.ofCut opening] = false := by
    obtain ⟨kind, text⟩ := opening
    revert hopens
    cases kind <;> simp [Token.ofCut, Token.opensTag, isDue]
  have hsince : sinceTag (state.push (Token.ofCut opening)).written = [Token.ofCut opening] := by
    simp [hbegin, sinceTag, hopens]
  have hafter : (state.push (Token.ofCut opening)).IsAfter := by
    refine ⟨by rw [hbegin], ⟨_, _, by rw [hbegin], hopening.1, hopening.2.1⟩, ?_⟩
    rw [hsince, hbegin, hopening.2.2]
  obtain ⟨hrun, hwritten, hsinceRun⟩ := foldl_push_words hwords hafter
  have hclosing : isDue (closing :: ((words.map Word.token).reverse ++ [Token.ofCut opening])) =
      false := by
    obtain ⟨kind, text⟩ := closing
    revert hcloses
    cases kind <;> simp [Token.closesTag, isDue]
  rw [foldl_cons, flatMap_append, foldl_append, flatMap_singleton,
    foldl_push_word hrun (.inr hcloses), hsinceRun, hwritten, hsince, hbegin, hclosing, hcloses,
    Word.along_append]
  simp [Word.along]

theorem dropBlanks_eq (h : IsTagWords closing all) {opening : Cut}
    (hopens : (Token.ofCut opening).opensTag) (hcloses : closing.closesTag)
    (kept tokens : List Token) :
    dropBlanks kept (Token.ofCut opening :: all.flatMap Word.tokens ++ tokens) =
      dropBlanks ((Token.ofCut opening :: (Word.along (fun before word => word.thinned before)
        [Token.ofCut opening] all).flatMap Word.tokens).reverse ++ kept) tokens := by
  have hopening : (Token.ofCut opening).kind ≠ .whitespace := by
    obtain ⟨kind, text⟩ := opening
    revert hopens
    cases kind <;> simp [Token.ofCut, Token.opensTag]
  have hsince : sinceTag (Token.ofCut opening :: kept) = [Token.ofCut opening] := by
    simp [sinceTag, hopens]
  rw [cons_append, dropBlanks_keep (isDropped_of_not_whitespace hopening),
    dropBlanks_words (h.isTagToken hcloses) hopening, hsince]
  simp

end IsTagWords

theorem exists_words (hinner : ∀ cut ∈ cuts, IsInner cut) (hchain : cuts.IsChain Joins) :
    ∃ (words : List Word) (gap : Option Text),
      tokensOf cuts = words.flatMap Word.tokens ++ Word.gapTokens gap ∧
        ∀ word ∈ words, word.token.kind.isWord := by
  induction cuts with
  | nil => exact ⟨[], none, rfl, by simp⟩
  | cons cut cuts ih =>
      have hcut := hinner cut mem_cons_self
      obtain ⟨words, gap, hcuts, hwords⟩ :=
        ih (fun other hother => hinner other (mem_cons_of_mem _ hother)) hchain.tail
      by_cases hblank : cut.1 = .whitespace
      · have hhead : ∀ token ∈ (tokensOf cuts).head?, token.kind ≠ .whitespace := by
          cases cuts with
          | nil => simp
          | cons next cuts =>
              rintro token htoken
              obtain rfl : Token.ofCut next = token := by simpa using htoken
              exact (isChain_cons_cons.mp hchain).1.blanks hblank
        have htoken : Token.ofCut cut = ⟨.whitespace, cut.2⟩ := by rw [Token.ofCut, hblank]
        rcases words with _ | ⟨⟨_ | before, token⟩, words⟩
        · cases gap with
          | none => exact ⟨[], some cut.2, by simp [hcuts, htoken, Word.gapTokens], by simp⟩
          | some gap =>
              exact absurd rfl (hhead ⟨.whitespace, gap⟩ (by simp [hcuts, Word.gapTokens]))
        · refine ⟨⟨some cut.2, token⟩ :: words, gap, ?_, by simpa using hwords⟩
          simp [hcuts, htoken, Word.tokens, Word.gapTokens]
        · refine absurd rfl (hhead ⟨.whitespace, before⟩ ?_)
          simp [hcuts, Word.tokens, Word.gapTokens]
      · refine ⟨⟨none, Token.ofCut cut⟩ :: words, gap, ?_, ?_⟩
        · simp [hcuts, Word.tokens, Word.gapTokens]
        · intro word hword
          rcases mem_cons.mp hword with rfl | hword
          · exact (hcut.isToken hblank).isWord
          · exact hwords word hword

/-- Both passes make the second inside of a tag from the first one. -/
def SpacesTag (opening closing : Cut) (cuts spaced : List Cut) : Prop :=
  ∃ wide : List Cut,
    (∀ state : Insertion, state.IsOutside →
      (tokensOf (opening :: (cuts ++ [closing]))).foldl push state =
        ⟨(tokensOf (opening :: (wide ++ [closing]))).reverse ++ state.written, false, false⟩) ∧
    ∀ kept tokens, dropBlanks kept (tokensOf (opening :: (wide ++ [closing])) ++ tokens) =
      dropBlanks ((tokensOf (opening :: (spaced ++ [closing]))).reverse ++ kept) tokens

theorem spacesTag_of_words {opening closing : Cut} (hopens : (Token.ofCut opening).opensTag)
    (hcloses : (Token.ofCut closing).closesTag) {all : List Word}
    (hall : IsTagWords (Token.ofCut closing) all) {spaced : List Cut}
    (hcuts : all.flatMap Word.tokens = tokensOf (cuts ++ [closing]))
    (hspaced : (Word.settled [Token.ofCut opening] all).flatMap Word.tokens =
      tokensOf (spaced ++ [closing])) : SpacesTag opening closing cuts spaced := by
  have hwide := hall.along Word.token_widened [Token.ofCut opening]
  obtain ⟨wide, hwideCuts⟩ := hwide.exists_cuts
  refine ⟨wide, ?_, ?_⟩
  · intro state hstate
    rw [tokensOf_cons, tokensOf_cons, ← hcuts, ← hwideCuts]
    exact hall.foldl_push hopens hcloses hstate
  · intro kept tokens
    rw [tokensOf_cons, tokensOf_cons, ← hwideCuts, ← hspaced]
    exact hwide.dropBlanks_eq hopens hcloses kept tokens

/-- Both passes leave the same tokens in a tag, which fit together, and a second run leaves the tag
as it is. -/
theorem exists_settled_tag {opening closing : Cut} (hopens : (Token.ofCut opening).opensTag)
    (hcloses : (Token.ofCut closing).closesTag) (hinner : ∀ cut ∈ cuts, IsInner cut)
    (hchain : cuts.IsChain Joins) :
    ∃ spaced, IsSpacedInside cuts spaced ∧ SpacesTag opening closing cuts spaced ∧
      SpacesTag opening closing spaced spaced := by
  obtain ⟨all, hall, hflat⟩ : ∃ all, IsTagWords (Token.ofCut closing) all ∧
      all.flatMap Word.tokens = tokensOf (cuts ++ [closing]) := by
    obtain ⟨words, gap, hcuts, hwords⟩ := exists_words hinner hchain
    exact ⟨_, ⟨words, gap, rfl, hwords⟩, by simp [hcuts, Word.tokens]⟩
  have hsettled : IsTagWords (Token.ofCut closing) (Word.settled [Token.ofCut opening] all) :=
    (hall.along Word.token_widened _).along Word.token_thinned _
  obtain ⟨spaced, hspaced⟩ := hsettled.exists_cuts
  have hfirst := spacesTag_of_words hopens hcloses hall hflat hspaced
  refine ⟨spaced, ?_, hfirst, spacesTag_of_words hopens hcloses hsettled hspaced ?_⟩
  · -- the passes are functions, so this is the inside that fits together
    have hstart : Insertion.IsOutside {} := ⟨rfl, rfl, rfl⟩
    obtain ⟨wide, hwide, hrun⟩ := foldl_push_tag hopens hcloses hinner hchain hstart
    obtain ⟨wide', hrun', hdrop'⟩ := hfirst
    obtain ⟨thin, hthin, hdrop⟩ := dropBlanks_tag hopens hcloses hwide [] []
    have hwideEq : wide = wide' := by
      have hsame := hrun.symm.trans (hrun' {} hstart)
      simpa [tokensOf_inj] using hsame
    have hthinEq : thin = spaced := by
      have hsame := hdrop.symm.trans ((hwideEq ▸ hdrop') [] [])
      simpa [dropBlanks, tokensOf_inj] using hsame
    exact hthinEq ▸ hthin
  · rw [Word.settled_settled, hspaced]

end JinjaLayout.Spacing
