import Mathlib
import JinjaLayout.Proofs.TokenRegions

/-!
What is known of the tokens of a table, whatever the source: their order, what the grammar reads of
them, the regions they stand in, and their partners. Brackets with balanced tokens between them are
each other's partners.
-/

namespace JinjaLayout

open TokenTable List

/-! ### What the grammar reads -/

/-- The category that the grammar sees: the forms on a line count as those of blocks. -/
def TokenKind.lexical : TokenKind → TokenKind
  | lineStatementBegin => blockBegin
  | lineStatementEnd => blockEnd
  | kind => kind

/-- Whether the grammar sees tokens of the category. -/
def TokenKind.isRead : TokenKind → Bool
  | initial | whitespace | commentBegin | comment | commentEnd | lineCommentBegin | lineComment
  | lineCommentEnd | rawBegin | rawEnd => false
  | _ => true

/-- The lexeme of a token tells its category, and the text of names, operators and template text. -/
structure Token.IsFaithful (token : Token) : Prop where
  significant_iff : token.isSignificant = true ↔ token.kind.isRead = true
  kind_eq : ∀ lexeme, token.lexeme = some lexeme → lexeme.kind = token.kind.lexical
  value_eq : ∀ lexeme, token.lexeme = some lexeme →
    token.kind = .name ∨ token.kind = .operator → lexeme.value = token.text
  data_eq : ∀ lexeme, token.lexeme = some lexeme → token.kind = .data → lexeme.value = token.text

variable {token : Token} {tokens : List Token}

theorem Token.isFaithful_of_lexeme? {piece : Piece} (hkind : token.kind = piece.kind)
    (htext : token.text = piece.text) (hlexeme : piece.lexeme? = .ok token.lexeme) :
    token.IsFaithful := by
  obtain ⟨line, kind, text⟩ := piece
  obtain ⟨index, start, stop, tokenLine, tokenKind, tokenText, lexeme, partner, chomp⟩ := token
  simp only at hkind htext hlexeme
  subst hkind htext
  cases tokenKind
  case string =>
    simp only [Piece.lexeme?] at hlexeme
    split at hlexeme
    · cases hlexeme
      constructor <;> simp [Token.isSignificant, TokenKind.isRead, TokenKind.lexical]
    · simp at hlexeme
  all_goals
    simp only [Piece.lexeme?] at hlexeme
    cases hlexeme
    constructor <;> simp [Token.isSignificant, TokenKind.isRead, TokenKind.lexical]

theorem map_eq_ok_iff {ε α β : Type} {result : Except ε α} {f : α → β} {value : β} :
    result.map f = .ok value ↔ ∃ inner, result = .ok inner ∧ f inner = value := by
  cases result <;> simp [Except.map]

structure Token.IsCut (token : Token) (piece : Piece) : Prop where
  kind_eq : token.kind = piece.kind
  text_eq : token.text = piece.text
  lexeme_eq : piece.lexeme? = .ok token.lexeme

theorem locate_eq_ok {env : Environment} {pieces : List Piece} {index offset line : Nat}
    {rest : Text} (h : locate env index offset line rest pieces = .ok tokens) :
    ∃ middle last, tokens = middle ++ [last] ∧ Forall₂ Token.IsCut middle pieces ∧
      last.kind = .eof ∧ ∃ lexeme, last.lexeme = some lexeme ∧ lexeme.kind = .eof := by
  induction pieces generalizing index offset line rest tokens with
  | nil =>
      cases h
      exact ⟨[], _, rfl, .nil, rfl, _, rfl, rfl⟩
  | cons piece pieces ih =>
      unfold locate at h
      split at h
      · simp at h
      · split at h
        · simp at h
        · rename_i lexeme hlexeme
          dsimp only at h
          obtain ⟨more, hmore, rfl⟩ := map_eq_ok_iff.mp h
          obtain ⟨middle, last, rfl, hcuts, hlast⟩ := ih hmore
          exact ⟨_ :: middle, last, rfl, .cons ⟨rfl, rfl, hlexeme⟩ hcuts, hlast⟩

/-! ### Pairs -/

/-- Tokens among which every bracket has its partner. -/
inductive Balanced : List Token → Prop where
  | nil : Balanced []
  | other {token : Token} {tokens : List Token} (hopens : token.opens = false)
      (hcloses : token.closes = false) (htokens : Balanced tokens) : Balanced (token :: tokens)
  | pair {opening closing : Token} {between tokens : List Token} (hopens : opening.opens)
      (hclosing : closing.opens = false) (hcloses : closing.closes)
      (hmatches : closing.matchesOpener opening) (hbetween : Balanced between)
      (htokens : Balanced tokens) : Balanced (opening :: (between ++ closing :: tokens))

theorem Balanced.append {first second : List Token} (hfirst : Balanced first)
    (hsecond : Balanced second) : Balanced (first ++ second) := by
  induction hfirst with
  | nil => exact hsecond
  | other hopens hcloses _ ih => exact .other hopens hcloses ih
  | @pair opening closing between tokens hopens hclosing hcloses hmatches hbetween _ _ ih =>
      have hlist : opening :: (between ++ closing :: tokens) ++ second =
          opening :: (between ++ closing :: (tokens ++ second)) := by simp
      rw [hlist]
      exact .pair hopens hclosing hcloses hmatches hbetween ih

def PairsOf (pairs : List (Nat × Nat)) (tokens : List Token) : Prop :=
  ∀ pair ∈ pairs, pair.1 ∈ tokens.map Token.index ∧ pair.2 ∈ tokens.map Token.index

theorem PairsOf.mono {pairs : List (Nat × Nat)} {others : List Token} (h : PairsOf pairs tokens)
    (hsubset : tokens ⊆ others) : PairsOf pairs others :=
  fun pair hpair => ⟨map_subset _ hsubset (h pair hpair).1,
    map_subset _ hsubset (h pair hpair).2⟩

theorem PairsOf.append {first second : List (Nat × Nat)} (hfirst : PairsOf first tokens)
    (hsecond : PairsOf second tokens) :
    PairsOf (first ++ second) tokens := by
  intro pair hpair
  rcases mem_append.mp hpair with hpair | hpair
  · exact hfirst pair hpair
  · exact hsecond pair hpair

theorem pairings_opening (hopens : token.opens) (stack tokens : List Token) :
    pairings stack (token :: tokens) = pairings (token :: stack) tokens := by
  simp [pairings, hopens]

theorem pairings_closing {opener : Token} (hopens : token.opens = false)
    (hcloses : token.closes) (hmatches : token.matchesOpener opener)
    (stack tokens : List Token) :
    pairings (opener :: stack) (token :: tokens) =
      (opener.index, token.index) :: pairings stack tokens := by
  simp [pairings, hopens, hcloses, hmatches]

theorem Balanced.pairings_append (h : Balanced tokens) :
    ∃ pairs, PairsOf pairs tokens ∧
      ∀ stack rest, pairings stack (tokens ++ rest) = pairs ++ pairings stack rest := by
  induction h with
  | nil => exact ⟨[], by simp [PairsOf], fun _ _ => rfl⟩
  | @other token tokens hopens hcloses _ ih =>
      obtain ⟨pairs, hpairs, hrun⟩ := ih
      refine ⟨pairs, hpairs.mono (subset_cons_self _ _), fun stack rest => ?_⟩
      simp [pairings, hopens, hcloses, hrun]
  | @pair opening closing between tokens hopens hclosing hcloses hmatches _ _ ihBetween ih =>
      obtain ⟨inner, hinner, hrunInner⟩ := ihBetween
      obtain ⟨pairs, hpairs, hrun⟩ := ih
      refine ⟨inner ++ (opening.index, closing.index) :: pairs, ?_, fun stack rest => ?_⟩
      · refine (hinner.mono fun token htoken => by simp [htoken]).append ?_
        rintro pair hpair
        rcases mem_cons.mp hpair with rfl | hpair
        · simp
        · exact hpairs.mono (fun token htoken => by simp [htoken]) pair hpair
      · have hlist : opening :: (between ++ closing :: tokens) ++ rest =
            opening :: (between ++ closing :: (tokens ++ rest)) := by simp
        rw [hlist, pairings_opening hopens, hrunInner, pairings_closing hclosing hcloses hmatches, hrun]
        simp

theorem pairings_append (stack first second : List Token) :
    ∃ pairs stack', PairsOf pairs (stack ++ first) ∧
      pairings stack (first ++ second) = pairs ++ pairings stack' second := by
  induction first generalizing stack with
  | nil => exact ⟨[], stack, by simp [PairsOf], rfl⟩
  | cons token first ih =>
      by_cases hopens : token.opens = true
      · obtain ⟨pairs, stack', hpairs, hrun⟩ := ih (token :: stack)
        have hsubset : token :: stack ++ first ⊆ stack ++ token :: first := by
          intro other hother
          simp only [cons_append, mem_cons, mem_append] at hother ⊢
          tauto
        refine ⟨pairs, stack', hpairs.mono hsubset, ?_⟩
        simp [pairings, hopens, hrun]
      · have hskip : ∀ stack, stack ++ first ⊆ stack ++ token :: first := by
          intro stack other hother
          simp only [mem_append, mem_cons] at hother ⊢
          tauto
        by_cases hcloses : token.closes = true
        · cases stack with
          | nil =>
              obtain ⟨pairs, stack', hpairs, hrun⟩ := ih []
              refine ⟨pairs, stack', hpairs.mono (hskip []), ?_⟩
              simp [pairings, hopens, hcloses, hrun]
          | cons opener outer =>
              by_cases hmatches : token.matchesOpener opener = true
              · obtain ⟨pairs, stack', hpairs, hrun⟩ := ih outer
                have hsubset : outer ++ first ⊆ opener :: outer ++ token :: first := by
                  intro other hother
                  simp only [cons_append, mem_append, mem_cons] at hother ⊢
                  tauto
                refine ⟨(opener.index, token.index) :: pairs, stack', ?_, ?_⟩
                · rintro pair hpair
                  rcases mem_cons.mp hpair with rfl | hpair
                  · simp
                  · exact hpairs.mono hsubset pair hpair
                · simp [pairings, hopens, hcloses, hmatches, hrun]
              · obtain ⟨pairs, stack', hpairs, hrun⟩ := ih (opener :: outer)
                refine ⟨pairs, stack', hpairs.mono (hskip _), ?_⟩
                simp [pairings, hopens, hcloses, hmatches, hrun]
        · obtain ⟨pairs, stack', hpairs, hrun⟩ := ih stack
          refine ⟨pairs, stack', hpairs.mono (hskip _), ?_⟩
          simp [pairings, hopens, hcloses, hrun]

theorem partner?_append_of_not_mem {first second : List (Nat × Nat)} (hfirst : PairsOf first tokens)
    {index : Nat} (hindex : index ∉ tokens.map Token.index) :
    partner? (first ++ second) index = partner? second index := by
  unfold partner?
  rw [findSome?_append, Option.or_eq_right_of_none]
  rw [findSome?_eq_none_iff]
  intro pair hpair
  obtain ⟨hleft, hright⟩ := hfirst pair hpair
  have hneLeft : pair.1 ≠ index := fun h => hindex (h ▸ hleft)
  have hneRight : pair.2 ≠ index := fun h => hindex (h ▸ hright)
  rw [if_neg hneLeft, if_neg hneRight]

theorem partner?_of_balanced {before between after : List Token} {opening closing : Token}
    (hopens : opening.opens) (hclosing : closing.opens = false)
    (hcloses : closing.closes) (hmatches : closing.matchesOpener opening)
    (hbetween : Balanced between)
    (hnodup : ((before ++ opening :: (between ++ closing :: after)).map Token.index).Nodup) :
    partner? (pairings [] (before ++ opening :: (between ++ closing :: after))) opening.index =
        some closing.index ∧
      partner? (pairings [] (before ++ opening :: (between ++ closing :: after))) closing.index =
        some opening.index := by
  obtain ⟨pairs, stack, hpairs, hrun⟩ :=
    pairings_append [] before (opening :: (between ++ closing :: after))
  obtain ⟨inner, hinner, hrunInner⟩ := hbetween.pairings_append
  have hall : pairings [] (before ++ opening :: (between ++ closing :: after)) =
      pairs ++ (inner ++ (opening.index, closing.index) :: pairings stack after) := by
    rw [hrun, pairings_opening hopens, hrunInner, pairings_closing hclosing hcloses hmatches]
  simp only [map_append, map_cons, nodup_append, nodup_cons, mem_append,
    mem_cons, not_or] at hnodup
  obtain ⟨-, ⟨⟨hopeningBetween, hne, -⟩, ⟨-, ⟨-, -⟩, hdisjoint⟩⟩, hbefore⟩ := hnodup
  have hopeningBefore : opening.index ∉ before.map Token.index :=
    fun h => hbefore _ h _ (.inl rfl) rfl
  have hclosingBefore : closing.index ∉ before.map Token.index :=
    fun h => hbefore _ h _ (.inr (.inr (.inl rfl))) rfl
  have hclosingBetween : closing.index ∉ between.map Token.index :=
    fun h => hdisjoint _ h _ (.inl rfl) rfl
  rw [hall]
  constructor
  · rw [partner?_append_of_not_mem hpairs (by simpa using hopeningBefore),
      partner?_append_of_not_mem hinner hopeningBetween]
    simp [partner?]
  · rw [partner?_append_of_not_mem hpairs (by simpa using hclosingBefore),
      partner?_append_of_not_mem hinner hclosingBetween]
    simp [partner?, hne]

/-! ### Tables -/

/-- The tokens are in their places and cut from a scanned source, between the initial token and the
end of the template, and have their partners. -/
structure IsTable (tokens : List Token) : Prop where
  index_eq : ∀ i (h : i < tokens.length), tokens[i].index = i
  faithful : ∀ token ∈ tokens, token.IsFaithful
  names : ∀ token ∈ tokens, token.kind = .name → Literal.isName token.text
  exists_middle : ∃ initial middle last, tokens = initial :: (middle ++ [last]) ∧
    initial.kind = .initial ∧ last.kind = .eof ∧
    Region.outside.after (middle.map Token.kind) = some .outside
  partner_eq : ∀ token ∈ tokens, token.partner = partner? (pairings [] tokens) token.index

theorem pairings_map {f : Token → Token}
    (hf : ∀ token, (f token).opens = token.opens ∧ (f token).closes = token.closes ∧
      (f token).index = token.index)
    (hmatches : ∀ token opener, (f token).matchesOpener (f opener) = token.matchesOpener opener)
    (stack tokens : List Token) :
    pairings (stack.map f) (tokens.map f) = pairings stack tokens := by
  induction tokens generalizing stack with
  | nil => rfl
  | cons token tokens ih =>
      have hopen := ih (token :: stack)
      rw [map_cons] at hopen
      cases stack with
      | nil =>
          have hnil := ih []
          rw [map_nil] at hnil hopen
          simp [pairings, hf, hnil, hopen]
      | cons opener outer =>
          have houter := ih outer
          have hstack := ih (opener :: outer)
          rw [map_cons] at hstack hopen
          simp [pairings, hf, hmatches, hopen, houter, hstack]

theorem pairings_withPartners (tokens : List Token) :
    pairings [] (withPartners tokens) = pairings [] tokens := by
  let pairs := pairings [] tokens
  exact @pairings_map (fun token => { token with partner := partner? pairs token.index })
    (fun _ => ⟨rfl, rfl, rfl⟩) (fun _ _ => rfl) [] tokens

variable {tokens : List Token}

theorem kinds_of_isCut {pieces : List Piece} (h : Forall₂ Token.IsCut tokens pieces) :
    tokens.map Token.kind = pieces.map Piece.kind := by
  induction h with
  | nil => rfl
  | cons hcut _ ih => rw [map_cons, map_cons, hcut.kind_eq, ih]

theorem exists_piece_of_isCut {pieces : List Piece} (h : Forall₂ Token.IsCut tokens pieces)
    {token : Token} (htoken : token ∈ tokens) :
    ∃ piece ∈ pieces, token.IsCut piece := by
  induction h with
  | nil => simp at htoken
  | cons hcut _ ih =>
      rcases mem_cons.mp htoken with rfl | htoken
      · exact ⟨_, mem_cons_self, hcut⟩
      · obtain ⟨piece, hpiece, hcut⟩ := ih htoken
        exact ⟨piece, mem_cons_of_mem _ hpiece, hcut⟩

theorem isTable_of_build {env : Environment} {name : Option String} {source : Text}
    {table : TokenTable} (h : build env name source = .ok table) : IsTable table.tokens := by
  obtain ⟨error, herror⟩ | ⟨pieces, tokens, hscan, hlocate, hbuild, hlaid, -, -⟩ :=
    build_cases env name source
  · simp [herror] at h
  · obtain rfl : ⟨name, _, withPartners (initialToken :: tokens)⟩ = table :=
      Except.ok.inj (hbuild.symm.trans h)
    obtain ⟨middle, last, rfl, hcuts, hlastKind, hlast⟩ := locate_eq_ok hlocate
    obtain ⟨hafter, hnames⟩ := after_of_scan hscan
    have hall : AreLaid 0 [] (initialToken :: (middle ++ [last])) := ⟨rfl, rfl, rfl, rfl, hlaid⟩
    let pairs := pairings [] (initialToken :: (middle ++ [last]))
    let paired : Token → Token := fun token => { token with partner := partner? pairs token.index }
    have hpaired : withPartners (initialToken :: (middle ++ [last])) =
        paired initialToken :: (middle.map paired ++ [paired last]) := by
      rw [← map_singleton, ← map_append, ← map_cons]
      rfl
    have hmiddle : ∀ token ∈ middle.map paired, ∃ piece ∈ pieces, token.IsCut piece := by
      intro token htoken
      obtain ⟨cut, hmem, rfl⟩ := mem_map.mp htoken
      obtain ⟨piece, hpiece, hcut⟩ := exists_piece_of_isCut hcuts hmem
      exact ⟨piece, hpiece, hcut.kind_eq, hcut.text_eq, hcut.lexeme_eq⟩
    obtain ⟨lexeme, hlexeme, hlexemeKind⟩ := hlast
    have hlastPaired : (paired last).kind = .eof ∧ (paired last).lexeme = some lexeme :=
      ⟨hlastKind, hlexeme⟩
    constructor
    · intro i hi
      have hindex := ((hall.withPartners _).getElem hi).1
      rwa [Nat.zero_add] at hindex
    · intro token htoken
      rw [hpaired, mem_cons, mem_append, mem_singleton] at htoken
      rcases htoken with rfl | htoken | rfl
      · constructor <;> simp [paired, initialToken, Token.isSignificant, TokenKind.isRead]
      · obtain ⟨piece, -, hcut⟩ := hmiddle token htoken
        exact Token.isFaithful_of_lexeme? hcut.kind_eq hcut.text_eq hcut.lexeme_eq
      · constructor <;>
          simp [hlastPaired, hlexemeKind, Token.isSignificant, TokenKind.isRead, TokenKind.lexical]
    · intro token htoken hkind
      rw [hpaired, mem_cons, mem_append, mem_singleton] at htoken
      rcases htoken with rfl | htoken | rfl
      · simp [paired, initialToken] at hkind
      · obtain ⟨piece, hpiece, hcut⟩ := hmiddle token htoken
        rw [hcut.text_eq]
        exact hnames piece hpiece (hcut.kind_eq.symm.trans hkind)
      · rw [hlastPaired.1] at hkind
        simp at hkind
    · refine ⟨_, _, _, hpaired, rfl, hlastKind, ?_⟩
      rw [map_map]
      exact (congrArg _ (kinds_of_isCut hcuts)).trans hafter
    · intro token htoken
      rw [pairings_withPartners]
      obtain ⟨token, -, rfl⟩ := mem_map.mp htoken
      rfl

/-! ### Significant tokens -/

def significant (tokens : List Token) : List Token :=
  tokens.filter Token.isSignificant

@[simp]
theorem significant_append (first second : List Token) :
    significant (first ++ second) = significant first ++ significant second :=
  filter_append ..

theorem Balanced.of_significant (hothers : ∀ token ∈ tokens, token.isSignificant = false →
      token.opens = false ∧ token.closes = false) (h : Balanced (significant tokens)) :
    Balanced tokens := by
  have hskip : ∀ skipped rest : List Token,
      (∀ token ∈ skipped, token.opens = false ∧ token.closes = false) → Balanced rest →
      Balanced (skipped ++ rest) := by
    intro skipped rest hskipped hrest
    induction skipped with
    | nil => exact hrest
    | cons token skipped ih =>
        have htoken := hskipped token mem_cons_self
        exact .other htoken.1 htoken.2 (ih fun other hother => hskipped other (mem_cons_of_mem _ hother))
  generalize hsignificant : significant tokens = read at h
  induction h generalizing tokens with
  | nil =>
      have hall : ∀ token ∈ tokens, token.opens = false ∧ token.closes = false := by
        intro token htoken
        refine hothers token htoken ?_
        have hnone := filter_eq_nil_iff.mp hsignificant token htoken
        simpa using hnone
      simpa using hskip tokens [] hall .nil
  | @other token rest hopens hcloses _ ih =>
      obtain ⟨skipped, more, rfl, hskipped, -, hmore⟩ := filter_eq_cons_iff.mp hsignificant
      refine hskip skipped _ (fun other hother => ?_) (.other hopens hcloses (ih ?_ hmore))
      · exact hothers other (by simp [hother]) (by simpa using hskipped other hother)
      · exact fun other hother => hothers other (by simp [hother])
  | @pair opening closing between rest hopens hclosing hcloses hmatches _ _ ihBetween ih =>
      obtain ⟨skipped, more, rfl, hskipped, -, hmore⟩ := filter_eq_cons_iff.mp hsignificant
      obtain ⟨first, second, rfl, hfirst, hsecond⟩ := filter_eq_append_iff.mp hmore
      obtain ⟨skipped', last, rfl, hskipped', -, hlast⟩ := filter_eq_cons_iff.mp hsecond
      refine hskip skipped _ (fun other hother => ?_) ?_
      · exact hothers other (by simp [hother]) (by simpa using hskipped other hother)
      · have hinner : Balanced (first ++ skipped') := by
          refine (ihBetween ?_ hfirst).append ?_
          · exact fun other hother => hothers other (by simp [hother])
          · simpa using hskip skipped' [] (fun other hother => hothers other (by simp [hother])
              (by simpa using hskipped' other hother)) .nil
        have hlist : opening :: (first ++ (skipped' ++ closing :: last)) =
            opening :: ((first ++ skipped') ++ closing :: last) := by simp
        rw [hlist]
        exact .pair hopens hclosing hcloses hmatches hinner
          (ih (fun other hother => hothers other (by simp [hother])) hlast)

def TokenKind.entersTag : TokenKind → Bool
  | blockBegin | variableBegin | lineStatementBegin => true
  | kind => kind.isWord

theorem exists_tag_of_step {region next : Region} {kind : TokenKind} (hkind : kind.entersTag)
    (hstep : region.step kind = some next) : ∃ tagEnd, next = .tag tagEnd := by
  cases region with
  | tag tagEnd =>
      have hnot : kind ≠ tagEnd.kind := by
        rintro rfl
        cases tagEnd <;> simp [TokenKind.entersTag, TokenKind.isWord, Scan.TagEnd.kind] at hkind
      simp only [Region.step, if_neg hnot] at hstep
      split at hstep
      · exact ⟨tagEnd, (Option.some.inj hstep).symm⟩
      · simp at hstep
  | _ =>
      revert hkind hstep
      cases kind <;> simp [Region.step, TokenKind.entersTag, TokenKind.isWord] <;>
        exact fun h => ⟨_, h.symm⟩

/-- As long as only tokens of expressions are read, there is only whitespace between them, and the tag
goes on. -/
theorem whitespace_of_inside_tag {tagEnd : Scan.TagEnd} {region : Region}
    (hafter : (Region.tag tagEnd).after (tokens.map Token.kind) = some region)
    (hfaithful : ∀ token ∈ tokens, token.IsFaithful)
    (hwords : ∀ token ∈ significant tokens, token.kind.isWord = true) :
    (∀ token ∈ tokens, token.isSignificant = false → token.kind = .whitespace) ∧
      region = .tag tagEnd := by
  induction tokens with
  | nil => exact ⟨by simp, (Option.some.inj hafter).symm⟩
  | cons first tokens ih =>
      rw [map_cons, Region.after_cons] at hafter
      obtain ⟨next, hstep, hnext⟩ := Option.bind_eq_some_iff.mp hafter
      have hfirst := (hfaithful first mem_cons_self).significant_iff
      have hkind : first.kind.isWord ∨ first.kind = .whitespace := by
        by_cases hsignificant : first.isSignificant = true
        · exact .inl (hwords first (by simp [significant, hsignificant]))
        · right
          have hread : first.kind.isRead = false := by
            rw [← Bool.not_eq_true, ← hfirst]
            exact hsignificant
          unfold Region.step at hstep
          revert hread hstep
          cases first.kind <;> cases tagEnd <;>
            simp [TokenKind.isRead, TokenKind.isWord, Scan.TagEnd.kind]
      have htag : next = .tag tagEnd := by
        unfold Region.step at hstep
        rcases hkind with hkind | hkind
        · simpa [hkind] using hstep.symm
        · simpa [hkind] using hstep.symm
      obtain ⟨hrest, hregion⟩ := ih (htag ▸ hnext) (fun token htoken => hfaithful token (mem_cons_of_mem _ htoken))
        (fun token htoken => hwords token (by
          simp only [significant, mem_filter, mem_cons] at htoken ⊢
          exact ⟨.inr htoken.1, htoken.2⟩))
      refine ⟨fun token htoken hnot => ?_, hregion⟩
      rcases mem_cons.mp htoken with rfl | htoken
      · refine hkind.resolve_left fun hword => ?_
        have hread : token.kind.isRead := by
          revert hword
          cases token.kind <;> simp [TokenKind.isWord, TokenKind.isRead]
        rw [hfirst.mpr hread] at hnot
        simp at hnot
      · exact hrest token htoken hnot

namespace IsTable

variable {tokens : List Token}

theorem map_index (h : IsTable tokens) : tokens.map Token.index = range tokens.length := by
  apply ext_getElem
  · simp
  · intro i hi _
    rw [getElem_map, getElem_range]
    exact h.index_eq i (by simpa using hi)

theorem pairwise_significant (h : IsTable tokens) :
    (significant tokens).Pairwise fun first second => first.index < second.index := by
  have hall : tokens.Pairwise fun first second => first.index < second.index := by
    rw [← pairwise_map, h.map_index]
    exact pairwise_lt_range
  exact hall.sublist filter_sublist

theorem mem_of_mem_significant {token : Token} (h : token ∈ significant tokens) : token ∈ tokens :=
  mem_of_mem_filter h

theorem significant_of_middle (h : IsTable tokens) {initial last : Token} {middle : List Token}
    (htokens : tokens = initial :: (middle ++ [last])) (hinitial : initial.kind = .initial)
    (hlast : last.kind = .eof) :
    initial.isSignificant = false ∧ significant tokens = significant middle ++ [last] := by
  have hfirst := (h.faithful initial (by simp [htokens])).significant_iff
  have hfinal := (h.faithful last (by simp [htokens])).significant_iff
  simp only [hinitial, hlast, TokenKind.isRead] at hfirst hfinal
  simp_all [significant]

/-- The tokens from one token of a tag to another that is no word, and the steps that the regions take
with them: as long as only words are read between them, nothing else is skipped than whitespace. -/
theorem exists_tag_split (h : IsTable tokens) {before between after : List Token}
    {opening closing : Token}
    (hsplit : significant tokens = before ++ opening :: (between ++ closing :: after))
    (hkind : opening.kind.entersTag) (hclosing : closing.kind ≠ .eof)
    (hwords : ∀ token ∈ between, token.kind.isWord = true) :
    ∃ front inner rest region tagEnd next,
      tokens = front ++ opening :: (inner ++ closing :: rest) ∧ significant inner = between ∧
      (∀ token ∈ inner, token.isSignificant = false → token.kind = .whitespace) ∧
      Region.step region opening.kind = some (.tag tagEnd) ∧
      (Region.tag tagEnd).step closing.kind = some next := by
  obtain ⟨initial, middle, last, htokens, hinitial, hlast, hregion⟩ := h.exists_middle
  obtain ⟨-, hall⟩ := h.significant_of_middle htokens hinitial hlast
  -- the closing token is not the end of the template
  obtain ⟨after, rfl⟩ : ∃ after', after = after' ++ [last] := by
    rcases eq_nil_or_concat after with rfl | ⟨after', token, rfl⟩
    · have hends : significant middle ++ [last] = (before ++ opening :: between) ++ [closing] := by
        rw [← hall, hsplit]
        simp
      obtain rfl : last = closing := by simpa using (append_inj' hends rfl).2
      exact absurd hlast hclosing
    · refine ⟨after', ?_⟩
      have hends : significant middle ++ [last] =
          (before ++ opening :: (between ++ closing :: after')) ++ [token] := by
        rw [← hall, hsplit]
        simp
      obtain rfl : last = token := by simpa using (append_inj' hends rfl).2
      simp
  have hmiddle : significant middle = before ++ opening :: (between ++ closing :: after) := by
    have hends : significant middle ++ [last] =
        (before ++ opening :: (between ++ closing :: after)) ++ [last] := by
      rw [← hall, hsplit]
      simp
    exact (append_inj' hends rfl).1
  obtain ⟨front, rest, rfl, -, hrest⟩ := filter_eq_append_iff.mp hmiddle
  obtain ⟨skipped, rest, rfl, -, -, hrest⟩ := filter_eq_cons_iff.mp hrest
  obtain ⟨inner, rest, rfl, hinner, hrest⟩ := filter_eq_append_iff.mp hrest
  obtain ⟨skipped', rest, rfl, hskipped', -, -⟩ := filter_eq_cons_iff.mp hrest
  have hsame : tokens = (initial :: (front ++ skipped)) ++
      opening :: ((inner ++ skipped') ++ closing :: (rest ++ [last])) := by
    simp [htokens]
  have hsignificant : significant (inner ++ skipped') = between := by
    have hnone : significant skipped' = [] := filter_eq_nil_iff.mpr hskipped'
    rw [significant_append, hnone, append_nil]
    exact hinner
  have hfaithful : ∀ token ∈ inner ++ skipped', token.IsFaithful := by
    intro token htoken
    exact h.faithful token (by rw [hsame]; simp only [mem_append, mem_cons] at htoken ⊢; tauto)
  have hsplitRegion : front ++ (skipped ++ opening :: (inner ++ (skipped' ++ closing :: rest))) =
      (front ++ skipped) ++ opening :: ((inner ++ skipped') ++ closing :: rest) := by simp
  rw [hsplitRegion, map_append, Region.after_append] at hregion
  obtain ⟨region, -, hregion⟩ := Option.bind_eq_some_iff.mp hregion
  rw [map_cons, Region.after_cons] at hregion
  obtain ⟨_, hstep, hregion⟩ := Option.bind_eq_some_iff.mp hregion
  obtain ⟨tagEnd, rfl⟩ := exists_tag_of_step hkind hstep
  rw [map_append, Region.after_append] at hregion
  obtain ⟨inside, hinside, hregion⟩ := Option.bind_eq_some_iff.mp hregion
  obtain ⟨hwhitespace, rfl⟩ := whitespace_of_inside_tag hinside hfaithful (hsignificant ▸ hwords)
  rw [map_cons, Region.after_cons] at hregion
  obtain ⟨next, hnext, -⟩ := Option.bind_eq_some_iff.mp hregion
  exact ⟨_, _, _, region, tagEnd, next, hsame, hsignificant, hwhitespace, hstep, hnext⟩

/-- Matching tokens of one tag with balanced tokens between them are each other's partners. -/
theorem partner_of_balanced (h : IsTable tokens) {before between after : List Token}
    {opening closing : Token}
    (hsplit : significant tokens = before ++ opening :: (between ++ closing :: after))
    (hkind : opening.kind.entersTag) (hopens : opening.opens)
    (hclosing : closing.opens = false) (hcloses : closing.closes)
    (hmatches : closing.matchesOpener opening)
    (hwords : ∀ token ∈ between, token.kind.isWord = true) (hbetween : Balanced between) :
    opening.partner = some closing.index ∧ closing.partner = some opening.index := by
  have hnotEof : closing.kind ≠ .eof := by
    intro heof
    simp [Token.closes, heof, TokenKind.isEnd] at hcloses
  obtain ⟨front, inner, rest, -, -, -, hsame, hsignificant, hwhitespace, -, -⟩ :=
    h.exists_tag_split hsplit hkind hnotEof hwords
  have hbalanced : Balanced inner := by
    refine Balanced.of_significant (fun token htoken hnot => ?_) (hsignificant ▸ hbetween)
    simp [Token.opens, Token.closes, hwhitespace token htoken hnot, TokenKind.isBegin,
      TokenKind.closing?, TokenKind.isEnd]
  have hpartners := partner?_of_balanced hopens hclosing hcloses hmatches hbalanced
    (by rw [← hsame, h.map_index]; exact nodup_range)
  rw [← hsame] at hpartners
  rw [h.partner_eq opening (by simp [hsame]), h.partner_eq closing (by simp [hsame])]
  exact hpartners

end IsTable

end JinjaLayout
