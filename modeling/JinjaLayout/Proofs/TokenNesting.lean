import Mathlib
import JinjaLayout.Proofs.TablePairs

/-!
The pairs of a token table are complete and well nested. The scanner ends a tag only when all its
brackets are closed, so a stack of what is open meets the right opener at every closing token and is
empty behind the last one.
-/

namespace JinjaLayout

open TokenTable List

/-! ### The stack of what is open -/

namespace Cut

/-- The piece as a token of which nothing else is known. -/
def asToken (cut : Cut) : Token :=
  { (default : Token) with kind := cut.1, text := cut.2 }

/-- What is open behind a piece, innermost first; a closing piece has to match. -/
def nest (stack : List Cut) (cut : Cut) : Option (List Cut) :=
  if cut.asToken.opens then some (cut :: stack)
  else if cut.asToken.closes then
    match stack with
    | [] => none
    | opener :: outer => if cut.asToken.matchesOpener opener.asToken then some outer else none
  else some stack

/-- What is open behind pieces. -/
def nestAll (stack cuts : List Cut) : Option (List Cut) :=
  cuts.foldlM nest stack

theorem nestAll_cons (stack : List Cut) (cut : Cut) (cuts : List Cut) :
    nestAll stack (cut :: cuts) = (nest stack cut).bind fun next => nestAll next cuts := rfl

theorem nestAll_append (stack first second : List Cut) :
    nestAll stack (first ++ second) = (nestAll stack first).bind fun next => nestAll next second := by
  unfold nestAll
  rw [foldlM_append]
  rfl

end Cut

namespace Scan

open Cut

def openerOf (closer : Char) : Cut :=
  (.operator, if closer = ')' then ['('] else if closer = ']' then ['['] else ['{'])

theorem nest_of_dueAfterCut {due due' : Text} {cut : Cut} (hword : cut.1.isWord)
    (h : dueAfterCut due cut = some due') (outer : List Cut) :
    nest (due.map openerOf ++ outer) cut = some (due'.map openerOf ++ outer) := by
  rcases dueAfterCut_cases h with ⟨c, closer, rfl, hcloser, rfl⟩ | ⟨c, rfl, hcloses, rfl⟩ |
    ⟨rfl, hplain⟩
  · unfold closer? at hcloser
    split at hcloser <;> cases hcloser <;> rfl
  · simp only [isCloser, Bool.or_eq_true, beq_iff_eq] at hcloses
    rcases hcloses with (rfl | rfl) | rfl <;> rfl
  · obtain ⟨kind, text⟩ := cut
    have hopens : (asToken (kind, text)).opens = false := by
      cases kind with
      | operator =>
          refine Bool.eq_false_iff.mpr fun hopens => ?_
          have htext : text = ['('] ∨ text = ['['] ∨ text = ['{'] := by
            simpa [asToken, Token.opens, TokenKind.isBegin, TokenKind.closing?] using hopens
          rcases htext with rfl | rfl | rfl <;> cases (hplain _ rfl).1
      | _ => first | rfl | cases hword
    have hnot : (asToken (kind, text)).closes = false := by
      cases kind with
      | operator =>
          refine Bool.eq_false_iff.mpr fun hcloses => ?_
          have htext : text = [')'] ∨ text = [']'] ∨ text = ['}'] := by
            simpa [asToken, Token.closes, TokenKind.isEnd] using hcloses
          rcases htext with rfl | rfl | rfl <;> cases (hplain _ rfl).2
      | _ => first | rfl | cases hword
    simp [nest, hopens, hnot]

def Leaves (stack : List Cut) (scan : Scan) : Prop :=
  nestAll [] scan.cuts = some stack

/-- The delimiters and brackets that are open at the stage, innermost first. The text is that of the
begin delimiter. -/
def Stage.stack (text : Text) : Stage → List Cut
  | outside | facing _ | behind _ _ false | finished => []
  | tag tagEnd due => due.map openerOf ++ [(tagEnd.beginKind, text)]
  | comment => [(.commentBegin, text)]
  | raw | behind _ _ true => [(.rawBegin, text)]

variable {scan stop : Scan} {stack next : List Cut} {env : Environment}

variable {kind : TokenKind}

theorem Leaves.push (h : Leaves stack scan) {length : Nat}
    (hnest : nest stack (kind, scan.rest.take length) = some next) :
    Leaves next (scan.push kind length) := by
  unfold Leaves
  rw [(reaches_push kind length scan).cuts_eq, nestAll_append, show nestAll [] scan.cuts = _ from h]
  simp [hnest, nestAll]

theorem nest_other (hbegin : kind.isBegin = false) (hend : kind.isEnd = false)
    (hkind : kind ≠ .operator) (stack : List Cut) (text : Text) :
    nest stack (kind, text) = some stack := by
  simp [nest, asToken, Token.opens, Token.closes, hbegin, hend, hkind]

theorem Leaves.pushSome (h : Leaves stack scan) {length : Nat} (hbegin : kind.isBegin = false)
    (hend : kind.isEnd = false) (hkind : kind ≠ .operator) :
    Leaves stack (scan.pushSome kind length) := by
  unfold Scan.pushSome
  split
  · exact h
  · exact h.push (nest_other hbegin hend hkind _ _)

theorem nest_begin (hbegin : kind.isBegin) (stack : List Cut) (text : Text) :
    nest stack (kind, text) = some ((kind, text) :: stack) := by
  simp [nest, asToken, Token.opens, hbegin]

theorem nest_end {kind' : TokenKind} (hclosing : kind.closing? = some kind') (stack : List Cut)
    (text text' : Text) : nest ((kind, text) :: stack) (kind', text') = some stack := by
  revert hclosing
  cases kind <;> rintro ⟨⟩ <;> rfl

theorem Visits.leaves {text : Text} {stage : Stage} (h : Visits env text stage scan) :
    ∃ opening, Leaves (stage.stack opening) scan := by
  induction h with
  | start => exact ⟨[], rfl⟩
  | stop _ _ ih => exact ih
  | lead _ _ ih =>
      obtain ⟨_, ih⟩ := ih
      exact ⟨[], (ih.pushSome rfl rfl (by simp)).pushSome rfl rfl (by simp)⟩
  | last _ _ ih =>
      obtain ⟨_, ih⟩ := ih
      exact ⟨[], ih.push (nest_other rfl rfl (by simp) _ _)⟩
  | commentBegin _ _ ih | rawBegin _ _ _ ih =>
      obtain ⟨_, ih⟩ := ih
      exact ⟨_, ih.push (nest_begin rfl _ _)⟩
  | tagBegin tagEnd _ _ ih =>
      obtain ⟨_, ih⟩ := ih
      exact ⟨_, ih.push (nest_begin (by cases tagEnd <;> rfl) _ _)⟩
  | gap _ _ ih =>
      obtain ⟨opening, ih⟩ := ih
      exact ⟨opening, ih.push (nest_other rfl rfl (by simp) _ _)⟩
  | token _ htoken ih =>
      obtain ⟨opening, ih⟩ := ih
      obtain ⟨-, hdue⟩ := (tagToken_eq_ok_iff _ _ _ _ _).mp htoken
      exact ⟨opening, ih.push (nest_of_dueAfterCut (isWord_of_tagToken htoken).1 hdue _)⟩
  | @tagEnd _ tagEnd _ _ _ _ ih =>
      obtain ⟨_, ih⟩ := ih
      exact ⟨[], ih.push (nest_end (by cases tagEnd <;> rfl) _ _ _)⟩
  | commentEnd _ _ _ ih =>
      obtain ⟨_, ih⟩ := ih
      exact ⟨[], (ih.pushSome rfl rfl (by simp)).push (nest_end rfl _ _ _)⟩
  | rawEnd _ _ ih =>
      obtain ⟨_, ih⟩ := ih
      exact ⟨[], ((ih.pushSome rfl rfl (by simp)).pushSome rfl rfl (by simp)).push
        (nest_end rfl _ _ _)⟩
  | @lineComment scan marker _ _ ih =>
      obtain ⟨_, ih⟩ := ih
      have hbegin : Leaves [_] (scan.push .lineCommentBegin marker.length) :=
        ih.push (nest_begin rfl _ _)
      exact ⟨[], (hbegin.pushSome rfl rfl (by simp)).push (nest_end rfl _ _ _)⟩
  | @tail _ _ _ inRaw _ ih =>
      obtain ⟨opening, ih⟩ := ih
      cases inRaw <;> exact ⟨opening, ih.pushSome rfl rfl (by simp)⟩

end Scan

theorem nestAll_of_scan {env : Environment} {source : Text} {pieces : List Piece}
    (h : scan env source = .ok pieces) : Cut.nestAll [] (pieces.map Piece.cut) = some [] := by
  obtain ⟨stop, hstop, -, rfl⟩ := Scan.visits_of_scan h
  exact hstop.leaves.choose_spec

/-! ### Pairs of nested tokens -/

/-- A delimiter or a bracket. -/
def Token.isPaired (token : Token) : Bool :=
  token.opens || token.closes

/-- The tokens close what is open, each in its turn, and these are the pairs. -/
inductive Closes : List Token → List Token → List (Nat × Nat) → Prop where
  | done : Closes [] [] []
  | other {token stack tokens pairs} (hother : token.isPaired = false)
      (h : Closes stack tokens pairs) : Closes stack (token :: tokens) pairs
  | opening {token stack tokens pairs} (hopens : token.opens)
      (h : Closes (token :: stack) tokens pairs) : Closes stack (token :: tokens) pairs
  | closing {token opener stack tokens pairs} (hopens : token.opens = false)
      (hcloses : token.closes) (hmatches : token.matchesOpener opener)
      (h : Closes stack tokens pairs) :
      Closes (opener :: stack) (token :: tokens) ((opener.index, token.index) :: pairs)

def Token.asCut (token : Token) : Cut :=
  (token.kind, token.text)

theorem closes_pairings {stack tokens : List Token}
    (h : Cut.nestAll (stack.map Token.asCut) (tokens.map Token.asCut) = some []) :
    Closes stack tokens (pairings stack tokens) := by
  induction tokens generalizing stack with
  | nil =>
      obtain rfl : stack = [] := by simpa [Cut.nestAll] using h
      exact .done
  | cons token tokens ih =>
      rw [map_cons, Cut.nestAll_cons] at h
      obtain ⟨next, hnest, hnext⟩ := Option.bind_eq_some_iff.mp h
      have hopensEq : token.asCut.asToken.opens = token.opens := rfl
      have hclosesEq : token.asCut.asToken.closes = token.closes := rfl
      unfold Cut.nest at hnest
      rw [hopensEq, hclosesEq] at hnest
      split at hnest
      · rename_i hopens
        obtain rfl : token.asCut :: stack.map Token.asCut = next := by simpa using hnest
        rw [pairings_opening hopens]
        exact .opening hopens (ih hnext)
      · rename_i hopens
        split at hnest
        · rename_i hcloses
          cases stack with
          | nil => simp at hnest
          | cons opener outer =>
              have hmatchesEq : token.asCut.asToken.matchesOpener opener.asCut.asToken =
                  token.matchesOpener opener := rfl
              simp only [map_cons, hmatchesEq, Option.ite_none_right_eq_some,
                Option.some.injEq] at hnest
              obtain ⟨hmatches, rfl⟩ := hnest
              rw [pairings_closing (by simpa using hopens) hcloses hmatches]
              exact .closing (by simpa using hopens) hcloses hmatches (ih hnext)
        · rename_i hcloses
          obtain rfl : stack.map Token.asCut = next := by simpa using hnest
          have hsame : pairings stack (token :: tokens) = pairings stack tokens := by
            simp [pairings, hopens, hcloses]
          rw [hsame]
          exact .other (by simp [Token.isPaired, hopens, hcloses]) (ih hnext)

def endsOf (pairs : List (Nat × Nat)) : List Nat :=
  pairs.flatMap fun pair => [pair.1, pair.2]

namespace Closes

variable {stack tokens : List Token} {pairs : List (Nat × Nat)}

theorem endsOf_perm (h : Closes stack tokens pairs) :
    (endsOf pairs).Perm ((stack ++ tokens.filter Token.isPaired).map Token.index) := by
  induction h with
  | done => exact .nil
  | other hother _ ih => simpa [filter_cons, hother] using ih
  | opening hopens _ ih =>
      refine ih.trans ?_
      simp only [Token.isPaired, filter_cons, hopens, Bool.true_or, if_true]
      exact (perm_middle.symm).map _
  | @closing token opener stack tokens pairs hopens hcloses hmatches _ ih =>
      have hpaired : token.isPaired := by simp [Token.isPaired, hcloses]
      simp only [endsOf, flatMap_cons, filter_cons, hpaired, if_true, map_append,
        map_cons, cons_append, nil_append]
      refine .cons _ ((Perm.cons _ ?_).trans perm_middle.symm)
      rw [← map_append]
      exact ih

theorem exists_matching (h : Closes stack tokens pairs) {pair : Nat × Nat} (hpair : pair ∈ pairs) :
    ∃ opener closer, pair = (opener.index, closer.index) ∧ opener ∈ stack ++ tokens ∧
      closer ∈ tokens ∧ closer.matchesOpener opener := by
  induction h with
  | done => simp at hpair
  | other _ _ ih =>
      obtain ⟨opener, closer, rfl, hopener, hcloser, hmatches⟩ := ih hpair
      simp only [mem_append] at hopener
      exact ⟨opener, closer, rfl, by simp only [mem_append, mem_cons]; tauto,
        mem_cons_of_mem _ hcloser, hmatches⟩
  | opening _ _ ih =>
      obtain ⟨opener, closer, rfl, hopener, hcloser, hmatches⟩ := ih hpair
      simp only [cons_append, mem_cons, mem_append] at hopener
      exact ⟨opener, closer, rfl, by simp only [mem_append, mem_cons]; tauto,
        mem_cons_of_mem _ hcloser, hmatches⟩
  | @closing token opener _ _ _ _ _ hmatches _ ih =>
      rcases mem_cons.mp hpair with rfl | hpair
      · exact ⟨opener, token, rfl, by simp, by simp, hmatches⟩
      · obtain ⟨opener, closer, rfl, hopener, hcloser, hmatches⟩ := ih hpair
        simp only [mem_append] at hopener
        exact ⟨opener, closer, rfl, by simp only [mem_append, mem_cons]; tauto,
          mem_cons_of_mem _ hcloser, hmatches⟩

theorem nested (h : Closes stack tokens pairs)
    (hincreasing : (stack.reverse ++ tokens).Pairwise fun first second => first.index < second.index) :
    (∀ pair ∈ pairs, pair.1 < pair.2) ∧
      ∀ outer ∈ pairs, ∀ inner ∈ pairs, outer.1 < inner.1 → inner.1 < outer.2 → inner.2 < outer.2 := by
  induction h with
  | done => simp
  | other _ _ ih =>
      refine ih (hincreasing.sublist ?_)
      exact (Sublist.refl _).append (sublist_cons_self _ _)
  | opening _ _ ih => exact ih (by simpa using hincreasing)
  | @closing token opener stack tokens pairs _ _ _ h ih =>
      have hsplit : (opener :: stack).reverse ++ token :: tokens =
          stack.reverse ++ ([opener, token] ++ tokens) := by simp
      rw [hsplit] at hincreasing
      have hbefore := (pairwise_append.mp hincreasing).2.2
      have hmiddle := (pairwise_append.mp (pairwise_append.mp hincreasing).2.1)
      have hlt : opener.index < token.index := by simpa using hmiddle.1
      -- the other pairs lie before the opener or behind the token
      have hends : ∀ index ∈ endsOf pairs, index < opener.index ∨ token.index < index := by
        intro index hindex
        have hmem := (h.endsOf_perm.mem_iff).mp hindex
        simp only [mem_map, mem_append, mem_filter] at hmem
        obtain ⟨other, hother | hother, rfl⟩ := hmem
        · exact .inl (hbefore other (by simpa using hother) opener (by simp))
        · exact .inr (hmiddle.2.2 token (by simp) other hother.1)
      have hfirst : ∀ pair ∈ pairs, pair.1 ∈ endsOf pairs ∧ pair.2 ∈ endsOf pairs := by
        intro pair hpair
        simp only [endsOf, mem_flatMap]
        exact ⟨⟨pair, hpair, by simp⟩, ⟨pair, hpair, by simp⟩⟩
      have hinner := ih (hincreasing.sublist ((Sublist.refl _).append
        (sublist_append_right _ _)))
      refine ⟨?_, ?_⟩
      · rintro pair hpair
        rcases mem_cons.mp hpair with rfl | hpair
        · exact hlt
        · exact hinner.1 pair hpair
      · intro outer houter inner hinside hstart hstop
        rcases mem_cons.mp houter with rfl | houter
        · rcases mem_cons.mp hinside with rfl | hinside
          · exact absurd hstart (lt_irrefl _)
          · have hcases := hends _ (hfirst inner hinside).1
            dsimp only at hstart hstop
            omega
        · rcases mem_cons.mp hinside with rfl | hinside
          · have hcases := hends _ (hfirst outer houter).2
            dsimp only at hstart hstop ⊢
            omega
          · exact hinner.2 outer houter inner hinside hstart hstop

end Closes

theorem partner?_eq_some_iff {pairs : List (Nat × Nat)} (hnodup : (endsOf pairs).Nodup)
    {index other : Nat} :
    partner? pairs index = some other ↔ (index, other) ∈ pairs ∨ (other, index) ∈ pairs := by
  induction pairs with
  | nil => simp [partner?]
  | cons pair pairs ih =>
      obtain ⟨first, second⟩ := pair
      have hends : endsOf ((first, second) :: pairs) = first :: second :: endsOf pairs := rfl
      rw [hends, nodup_cons, nodup_cons, mem_cons, not_or] at hnodup
      obtain ⟨⟨hne, hfirst⟩, hsecond, hrest⟩ := hnodup
      have hcons : partner? ((first, second) :: pairs) index =
          if first = index then some second else if second = index then some first
          else partner? pairs index := by
        unfold partner?
        rw [findSome?_cons]
        split_ifs <;> simp_all
      have hout : ∀ index ∉ endsOf pairs, ∀ other, (index, other) ∉ pairs ∧ (other, index) ∉ pairs := by
        intro index hindex other
        simp only [endsOf, mem_flatMap, not_exists, not_and] at hindex
        exact ⟨fun hpair => hindex _ hpair (by simp), fun hpair => hindex _ hpair (by simp)⟩
      simp only [hcons, mem_cons, Prod.mk.injEq]
      split_ifs with hleft hright
      · subst hleft
        have hothers := hout first hfirst other
        grind
      · subst hright
        have hothers := hout second hsecond other
        grind
      · rw [ih hrest]
        simp [Ne.symm hleft, Ne.symm hright]

/-! ### Tables -/

/-- A begin delimiter with its end delimiter, or two brackets of one shape. -/
def IsPair (opening closing : Token) : Prop :=
  opening.kind.closing? = some closing.kind ∨
    opening.kind = .operator ∧ closing.kind = .operator ∧
      (opening.text, closing.text) ∈
        [("(".toList, ")".toList), ("[".toList, "]".toList), (['{'], ['}'])]

/-- A delimiter or a bracket. -/
def NeedsPartner (token : Token) : Prop :=
  token.kind.isBegin ∨ token.kind.isEnd = true ∨
    token.kind = .operator ∧
      token.text ∈ ["(".toList, ")".toList, "[".toList, "]".toList, ['{'], ['}']]

/-- Exactly the delimiters and brackets have partners. Partners are each other's, the first of them
is the opening one of a matching pair, and what stands between two partners has its own partner
there. -/
structure IsWellNested (tokens : List Token) : Prop where
  isSome_iff : ∀ token ∈ tokens, token.partner.isSome = true ↔ NeedsPartner token
  symmetric : ∀ i j (hi : i < tokens.length), tokens[i].partner = some j →
    ∃ hj : j < tokens.length, tokens[j].partner = some i
  isPair : ∀ i j (hi : i < tokens.length) (hj : j < tokens.length), tokens[i].partner = some j →
    i < j ∧ IsPair tokens[i] tokens[j] ∨ j < i ∧ IsPair tokens[j] tokens[i]
  nested : ∀ i j k l (hi : i < tokens.length) (hk : k < tokens.length),
    tokens[i].partner = some j → tokens[k].partner = some l → i < k → k < j → i < l ∧ l < j

theorem isPaired_iff (token : Token) : token.isPaired = true ↔ NeedsPartner token := by
  simp only [Token.isPaired, Token.opens, Token.closes, NeedsPartner, Bool.or_eq_true,
    Bool.and_eq_true, beq_iff_eq, contains_iff_mem, mem_cons, not_mem_nil, or_false]
  tauto

theorem isPair_of_matchesOpener {opening closing : Token}
    (h : closing.matchesOpener opening) : IsPair opening closing := by
  unfold Token.matchesOpener at h
  split at h
  · rename_i hkind
    simp only [Bool.and_eq_true, beq_iff_eq, contains_iff_mem] at h hkind
    exact .inr ⟨h.1, hkind, h.2⟩
  · exact .inl (by simpa using h)

theorem closes_of_build {env : Environment} {name : Option String} {source : Text}
    {table : TokenTable} (h : build env name source = .ok table) :
    Closes [] table.tokens (pairings [] table.tokens) := by
  obtain ⟨error, herror⟩ | ⟨pieces, tokens, hscan, hlocate, hbuild, -, -, -⟩ :=
    build_cases env name source
  · simp [herror] at h
  · obtain rfl : ⟨name, _, withPartners (initialToken :: tokens)⟩ = table :=
      Except.ok.inj (hbuild.symm.trans h)
    obtain ⟨middle, last, rfl, hcuts, hlast, -⟩ := locate_eq_ok hlocate
    have hmiddle : middle.map Token.asCut = pieces.map Piece.cut := by
      clear hscan hlocate hbuild h
      induction hcuts with
      | nil => rfl
      | cons hcut _ ih => simp [ih, Token.asCut, Piece.cut, hcut.kind_eq, hcut.text_eq]
    have hwith : (withPartners (initialToken :: (middle ++ [last]))).map Token.asCut =
        (.initial, []) :: (pieces.map Piece.cut ++ [(.eof, last.text)]) := by
      rw [withPartners, map_map]
      change (initialToken :: (middle ++ [last])).map Token.asCut = _
      rw [map_cons, map_append, hmiddle, map_singleton]
      simp [Token.asCut, initialToken, hlast]
    apply closes_pairings
    rw [hwith, Cut.nestAll_cons]
    change Cut.nestAll [] (pieces.map Piece.cut ++ [(.eof, last.text)]) = some []
    rw [Cut.nestAll_append, nestAll_of_scan hscan]
    rfl

namespace Closes

variable {tokens : List Token}

theorem nodup_endsOf (h : Closes [] tokens (pairings [] tokens)) (htable : IsTable tokens) :
    (endsOf (pairings [] tokens)).Nodup := by
  refine h.endsOf_perm.nodup_iff.mpr ?_
  refine Nodup.sublist ((filter_sublist (l := tokens)).map Token.index) ?_
  rw [htable.map_index]
  exact nodup_range

variable {i j : Nat}

theorem partner_iff (h : Closes [] tokens (pairings [] tokens)) (htable : IsTable tokens)
    (hi : i < tokens.length) : tokens[i].partner = some j ↔
      (i, j) ∈ pairings [] tokens ∨ (j, i) ∈ pairings [] tokens := by
  rw [htable.partner_eq _ (getElem_mem hi), htable.index_eq i hi,
    partner?_eq_some_iff (h.nodup_endsOf htable)]

theorem mem_endsOf_iff (h : Closes [] tokens (pairings [] tokens)) (htable : IsTable tokens)
    (hi : i < tokens.length) : i ∈ endsOf (pairings [] tokens) ↔ NeedsPartner tokens[i] := by
  rw [h.endsOf_perm.mem_iff, ← isPaired_iff]
  simp only [nil_append, mem_map, mem_filter]
  constructor
  · rintro ⟨other, ⟨hother, hpaired⟩, hindex⟩
    obtain ⟨k, hk, rfl⟩ := getElem_of_mem hother
    rw [htable.index_eq k hk] at hindex
    subst hindex
    exact hpaired
  · exact fun hpaired => ⟨tokens[i], ⟨getElem_mem hi, hpaired⟩, htable.index_eq i hi⟩

theorem exists_isPair (h : Closes [] tokens (pairings [] tokens)) (htable : IsTable tokens)
    (hpair : (i, j) ∈ pairings [] tokens) :
    ∃ (hi : i < tokens.length) (hj : j < tokens.length), IsPair tokens[i] tokens[j] := by
  obtain ⟨opener, closer, heq, hopener, hcloser, hmatches⟩ := h.exists_matching hpair
  obtain ⟨k, hk, rfl⟩ := getElem_of_mem hopener
  obtain ⟨l, hl, rfl⟩ := getElem_of_mem hcloser
  simp only [nil_append] at hk hmatches heq
  rw [htable.index_eq k hk, htable.index_eq l hl] at heq
  cases heq
  exact ⟨hk, hl, isPair_of_matchesOpener hmatches⟩

theorem increasing (htable : IsTable tokens) :
    (([] : List Token).reverse ++ tokens).Pairwise
      fun first second => first.index < second.index := by
  rw [reverse_nil, nil_append, ← pairwise_map, htable.map_index]
  exact pairwise_lt_range

theorem lt_of_mem (h : Closes [] tokens (pairings [] tokens)) (htable : IsTable tokens)
    (hpair : (i, j) ∈ pairings [] tokens) : i < j :=
  (h.nested (increasing htable)).1 _ hpair

theorem between_of_mem (h : Closes [] tokens (pairings [] tokens)) (htable : IsTable tokens)
    {k l : Nat} (houter : (i, j) ∈ pairings [] tokens)
    (hinner : (k, l) ∈ pairings [] tokens ∨ (l, k) ∈ pairings [] tokens) (hik : i < k) (hkj : k < j) :
    i < l ∧ l < j := by
  have hnested := (h.nested (increasing htable)).2
  rcases hinner with hpair | hpair
  · have hkl := h.lt_of_mem htable hpair
    have hlj := hnested _ houter _ hpair hik hkj
    exact ⟨hik.trans hkl, hlj⟩
  · have hlk := h.lt_of_mem htable hpair
    refine ⟨?_, hlk.trans hkj⟩
    by_contra hli
    rcases Nat.lt_or_eq_of_le (Nat.le_of_not_lt hli) with hli | rfl
    -- the pair would start before the outer one and end inside it
    · have hjk := hnested _ hpair _ houter hli hik
      dsimp only at hjk
      omega
    -- the pair would start where the outer one does
    · obtain ⟨hl, -, -⟩ := h.exists_isPair htable hpair
      have hsame := (h.partner_iff htable hl).mpr (.inl hpair)
      rw [(h.partner_iff htable hl).mpr (.inl houter)] at hsame
      cases hsame
      omega

end Closes

namespace TokenTable

/-- The partners in a table are complete, and the pairs of partners are well nested. -/
theorem build_isWellNested (env : Environment) (name : Option String) (source : Text)
    (table : TokenTable) (h : build env name source = .ok table) : IsWellNested table.tokens := by
  have htable := isTable_of_build h
  have hcloses := closes_of_build h
  generalize table.tokens = tokens at htable hcloses
  constructor
  · intro token htoken
    obtain ⟨i, hi, rfl⟩ := List.getElem_of_mem htoken
    rw [← hcloses.mem_endsOf_iff htable hi, Option.isSome_iff_exists]
    simp only [hcloses.partner_iff htable hi, endsOf, List.mem_flatMap, List.mem_cons,
      List.not_mem_nil, or_false]
    constructor
    · rintro ⟨j, hpair | hpair⟩
      · exact ⟨_, hpair, .inl rfl⟩
      · exact ⟨_, hpair, .inr rfl⟩
    · rintro ⟨⟨first, second⟩, hpair, rfl | rfl⟩
      · exact ⟨second, .inl hpair⟩
      · exact ⟨first, .inr hpair⟩
  · intro i j hi hpartners
    have hpairs := (hcloses.partner_iff htable hi).mp hpartners
    have hj : j < tokens.length := by
      rcases hpairs with hpair | hpair
      · exact (hcloses.exists_isPair htable hpair).2.choose
      · exact (hcloses.exists_isPair htable hpair).choose
    exact ⟨hj, (hcloses.partner_iff htable hj).mpr hpairs.symm⟩
  · intro i j hi hj hpartners
    rcases (hcloses.partner_iff htable hi).mp hpartners with hpair | hpair
    · exact .inl ⟨hcloses.lt_of_mem htable hpair, (hcloses.exists_isPair htable hpair).2.2⟩
    · exact .inr ⟨hcloses.lt_of_mem htable hpair, (hcloses.exists_isPair htable hpair).2.2⟩
  · intro i j k l hi hk hpartners hothers hik hkj
    have houter := (hcloses.partner_iff htable hi).mp hpartners
    have hinner := (hcloses.partner_iff htable hk).mp hothers
    refine hcloses.between_of_mem htable (houter.resolve_right fun hpair => ?_) hinner hik hkj
    have hji := hcloses.lt_of_mem htable hpair
    omega

/-- Delimiters around brackets around brackets. -/
theorem isWellNested_of_call : ∃ table, build {} none "{{ f([x]) }}".toList = .ok table ∧
    IsWellNested table.tokens :=
  ⟨_, rfl, build_isWellNested {} none "{{ f([x]) }}".toList _ rfl⟩

end TokenTable

end JinjaLayout
