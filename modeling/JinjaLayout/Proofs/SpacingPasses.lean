import Mathlib
import JinjaLayout.Proofs.TokenChain
import JinjaLayout.Spacing.Report

/-!
The two passes of the preferred spacing, tag by tag. Inside a tag they put and drop whitespace only
where the tokens beside it still fit together; outside of tags they change nothing.
-/

namespace JinjaLayout.Spacing

open JinjaLayout.Scan JinjaLayout.Text List

def Token.ofCut (cut : Cut) : Token :=
  ⟨cut.1, cut.2⟩

def Token.cut (token : Token) : Cut :=
  (token.kind, token.text)

def tokensOf (cuts : List Cut) : List Token :=
  cuts.map Token.ofCut

@[simp]
theorem tokensOf_nil : tokensOf [] = [] := rfl

@[simp]
theorem tokensOf_cons (cut : Cut) (cuts : List Cut) :
    tokensOf (cut :: cuts) = Token.ofCut cut :: tokensOf cuts := rfl

@[simp]
theorem tokensOf_append (first second : List Cut) :
    tokensOf (first ++ second) = tokensOf first ++ tokensOf second :=
  map_append

@[simp]
theorem tokensOf_map_cut (tokens : List Token) : tokensOf (tokens.map Token.cut) = tokens := by
  rw [tokensOf, map_map]
  exact map_id tokens

theorem map_cut_tokensOf (cuts : List Cut) : (tokensOf cuts).map Token.cut = cuts := by
  rw [tokensOf, map_map]
  exact map_id cuts

theorem tokensOf_inj {first second : List Cut} : tokensOf first = tokensOf second ↔ first = second := by
  constructor
  · intro h
    rw [← map_cut_tokensOf first, h, map_cut_tokensOf]
  · rintro rfl
    rfl

theorem flatMap_text_tokensOf (cuts : List Cut) :
    (tokensOf cuts).flatMap Token.text = textOfCuts cuts := by
  rw [tokensOf, flatMap_map]
  rfl

def blankCut : Cut :=
  (.whitespace, [' '])

theorem isGapCut_blankCut : IsGapCut blankCut :=
  ⟨rfl, by simp [blankCut], by decide⟩

theorem joins_of_isGapCut {first second : Cut} (hfirst : first.1 ≠ .whitespace)
    (hsecond : IsGapCut second) : Joins first second := by
  refine ⟨fun h => absurd h hfirst, fits_of_blank first ?_⟩
  obtain ⟨c, more, hcons⟩ := exists_cons_of_ne_nil hsecond.ne_nil
  rw [hcons]
  exact isBlank_of_mem_all (hcons ▸ hsecond.all_blank)

/-- The inside of a tag as the passes leave it: the same tokens, which fit together, with whitespace
at both ends. -/
structure IsSpacedInside (cuts spaced : List Cut) : Prop where
  inner : ∀ cut ∈ spaced, IsInner cut
  chain : spaced.IsChain Joins
  words_eq : wordsOf spaced = wordsOf cuts
  starts : ∀ cut ∈ spaced.head?, cut.1 = .whitespace
  ends : EndsBlank spaced

theorem joins_of_opensTag {first second : Cut} (h : (Token.ofCut first).opensTag) :
    Joins first second := by
  obtain ⟨kind, text⟩ := first
  revert h
  cases kind <;> simp [Token.ofCut, Token.opensTag] <;> exact ⟨by simp, trivial⟩

namespace Insertion

variable {state : Insertion} {before : List Token} {cuts : List Cut}

theorem push_of_not_operator {token tidy : Token} (htidy : state.tidied token = tidy)
    (hkind : tidy.kind ≠ .operator) :
    state.push token =
      ⟨tidy :: (if state.needsBlank tidy then Token.blank :: state.written else state.written),
        if tidy.opensTag then true else if tidy.closesTag then false else state.inside, false⟩ := by
  unfold push
  simp only [htidy, if_neg hkind]

theorem needsBlank_whitespace (state : Insertion) (text : Text) :
    state.needsBlank ⟨.whitespace, text⟩ = false := by
  simp [needsBlank, Token.closesTag]

theorem push_whitespace {cut : Cut} (hcut : IsGapCut cut) (hinside : state.inside) :
    ∃ written, IsGapCut written ∧
      state.push (Token.ofCut cut) = ⟨Token.ofCut written :: state.written, true, false⟩ := by
  obtain ⟨kind, text⟩ := cut
  obtain rfl : kind = .whitespace := hcut.kind_eq
  by_cases hline : text.contains '\n'
  · refine ⟨_, hcut, ?_⟩
    have htidy : state.tidied (Token.ofCut (.whitespace, text)) = ⟨.whitespace, text⟩ := by
      simp [tidied, Token.ofCut, Token.isLineBlank, contains_iff_mem.mp hline]
    rw [push_of_not_operator htidy (by simp), needsBlank_whitespace]
    simp [Token.opensTag, Token.closesTag, hinside, Token.ofCut]
  · refine ⟨_, isGapCut_blankCut, ?_⟩
    have htidy : state.tidied (Token.ofCut (.whitespace, text)) = ⟨.whitespace, [' ']⟩ := by
      simp only [tidied, hinside, Token.isLineBlank, Token.ofCut, hline]
      rfl
    rw [push_of_not_operator htidy (by simp), needsBlank_whitespace]
    simp [Token.opensTag, Token.closesTag, hinside, Token.ofCut, blankCut]

theorem tidied_word (state : Insertion) {cut : Cut} (hword : cut.1.isWord) :
    state.tidied (Token.ofCut cut) = Token.ofCut cut := by
  obtain ⟨kind, text⟩ := cut
  revert hword
  cases kind <;> simp [TokenKind.isWord, tidied, Token.ofCut, Token.isLineBlank]

theorem opensTag_word {cut : Cut} (hword : cut.1.isWord) :
    (Token.ofCut cut).opensTag = false ∧ (Token.ofCut cut).closesTag = false := by
  obtain ⟨kind, text⟩ := cut
  revert hword
  cases kind <;> simp [TokenKind.isWord, Token.ofCut, Token.opensTag, Token.closesTag]

theorem push_word_eq {cut : Cut} (hword : cut.1.isWord) (hinside : state.inside) :
    ∃ written due, state.push (Token.ofCut cut) = ⟨Token.ofCut cut :: written, true, due⟩ ∧
      (due → cut.1 = .operator) ∧
      (written = (if state.needsBlank (Token.ofCut cut) then Token.blank :: state.written
          else state.written) ∨
        written = blankBefore (if state.needsBlank (Token.ofCut cut) then
          Token.blank :: state.written else state.written)) := by
  obtain ⟨hopens, hcloses⟩ := opensTag_word hword
  unfold push
  simp only [tidied_word state hword, hopens, hcloses, hinside]
  generalize (if state.needsBlank (Token.ofCut cut) then Token.blank :: state.written
    else state.written) = written
  by_cases hkind : (Token.ofCut cut).kind = .operator
  · simp only [if_pos hkind]
    split
    · exact ⟨_, _, rfl, fun _ => hkind, .inr rfl⟩
    · exact ⟨_, _, rfl, fun _ => hkind, .inl rfl⟩
  · simp only [if_neg hkind]
    exact ⟨_, _, rfl, by simp, .inl rfl⟩

theorem needsBlank_word {cut : Cut} (hword : cut.1.isWord) {previous : Token}
    (hwritten : state.written = previous :: before) :
    state.needsBlank (Token.ofCut cut) = (previous.opensTag ||
      (state.blankDue && !(Token.ofCut cut).isOperator closers)) := by
  obtain ⟨-, hcloses⟩ := opensTag_word hword
  have hgap : ((Token.ofCut cut).kind == .whitespace) = false ∧
      ((Token.ofCut cut).kind == .comment) = false := by
    obtain ⟨kind, text⟩ := cut
    revert hword
    cases kind <;> simp [TokenKind.isWord, Token.ofCut]
  simp [needsBlank, hwritten, hcloses, hgap.1, hgap.2, bne]

/-- A token inside a tag is written as it is, with a blank before it or without. After the begin of
the tag there is always one. -/
theorem push_word {cut : Cut} (hword : cut.1.isWord) (hinside : state.inside)
    {previous : Token} (hwritten : state.written = previous :: before)
    (hdue : state.blankDue → previous.kind = .operator) :
    ∃ gap : List Cut, (gap = [] ∧ previous.opensTag = false ∨
        gap = [blankCut] ∧ previous.kind ≠ .whitespace) ∧
      (state.push (Token.ofCut cut)).written =
        Token.ofCut cut :: (tokensOf gap ++ state.written) ∧
      (state.push (Token.ofCut cut)).inside = true ∧
      ((state.push (Token.ofCut cut)).blankDue → cut.1 = .operator) := by
  obtain ⟨written, due, hpush, hoperator, hcases⟩ := push_word_eq hword hinside
  rw [hpush]
  rw [needsBlank_word hword hwritten] at hcases
  by_cases hneeds : (previous.opensTag ||
      (state.blankDue && !(Token.ofCut cut).isOperator closers)) = true
  · have hprevious : previous.kind ≠ .whitespace := by
      intro hblank
      rcases Bool.or_eq_true_iff.mp hneeds with hopens | hblankDue
      · simp [Token.opensTag, hblank] at hopens
      · simp [hdue (Bool.and_eq_true_iff.mp hblankDue).1] at hblank
    refine ⟨[blankCut], .inr ⟨rfl, hprevious⟩, ?_, rfl, hoperator⟩
    rw [if_pos hneeds] at hcases
    rcases hcases with rfl | rfl
    · rfl
    · rfl
  · have hopens : previous.opensTag = false := by
      by_contra hopens
      exact hneeds (by simp [show previous.opensTag = true by simpa using hopens])
    rw [if_neg hneeds] at hcases
    rcases hcases with rfl | rfl
    · exact ⟨[], .inl ⟨rfl, hopens⟩, rfl, rfl, hoperator⟩
    · by_cases hblank : previous.kind = .whitespace
      · refine ⟨[], .inl ⟨rfl, hopens⟩, ?_, rfl, hoperator⟩
        simp [blankBefore, hwritten, hblank]
      · refine ⟨[blankCut], .inr ⟨rfl, hblank⟩, ?_, rfl, hoperator⟩
        simp [blankBefore, hwritten, hblank, hopens]
        rfl

theorem foldl_push_inside (hinner : ∀ cut ∈ cuts, IsInner cut) {previous : Cut}
    (hinside : state.inside) (hwritten : state.written = Token.ofCut previous :: before)
    (hdue : state.blankDue → previous.1 = .operator)
    (hchain : (previous :: cuts).IsChain Joins) :
    ∃ wide : List Cut,
      ((tokensOf cuts).foldl push state).written = (tokensOf (previous :: wide)).reverse ++ before ∧
      ((tokensOf cuts).foldl push state).inside = true ∧
      (((tokensOf cuts).foldl push state).blankDue = true →
        (previous :: wide).getLast?.map Prod.fst = some .operator) ∧
      (∀ cut ∈ wide, IsInner cut) ∧ (previous :: wide).IsChain Joins ∧
      wordsOf wide = wordsOf cuts ∧
      ((Token.ofCut previous).opensTag → ∀ cut ∈ wide.head?, cut.1 = .whitespace) := by
  induction cuts generalizing state previous before with
  | nil =>
      exact ⟨[], hwritten, hinside, fun h => by simpa using hdue h, by simp, .singleton _, rfl,
        by simp⟩
  | cons cut cuts ih =>
      obtain ⟨hjoins, hrest⟩ := isChain_cons_cons.mp hchain
      have hcut := hinner cut mem_cons_self
      have hinnerRest : ∀ other ∈ cuts, IsInner other :=
        fun other hother => hinner other (mem_cons_of_mem _ hother)
      by_cases hblank : cut.1 = .whitespace
      · obtain ⟨written, hgap, hpush⟩ := push_whitespace (hcut.isGapCut hblank) hinside
        have hchainRest : (written :: cuts).IsChain Joins := by
          cases cuts with
          | nil => exact .singleton _
          | cons next cuts =>
              obtain ⟨hnext, hmore⟩ := isChain_cons_cons.mp hrest
              refine .cons_cons ⟨fun _ => hnext.blanks hblank, ?_⟩ hmore
              simp [Fits, hgap.kind_eq]
        have hprevious : previous.1 ≠ .whitespace := fun h => hjoins.blanks h hblank
        obtain ⟨wide, hrun, hrunInside, hrunDue, hwide, hwideChain, hwords, -⟩ :=
          ih hinnerRest (show (state.push (Token.ofCut cut)).inside = true by rw [hpush])
            (show (state.push (Token.ofCut cut)).written = Token.ofCut written :: state.written by
              rw [hpush]) (by simp [hpush]) hchainRest
        refine ⟨written :: wide, ?_, hrunInside, ?_, ?_, ?_, ?_, ?_⟩
        · simpa [hwritten] using hrun
        · simpa using hrunDue
        · intro other hother
          rcases mem_cons.mp hother with rfl | hother
          · exact .inl hgap
          · exact hwide other hother
        · exact .cons_cons (joins_of_isGapCut hprevious hgap) hwideChain
        · rw [wordsOf_of_isGapCut hgap, wordsOf_of_isGapCut (hcut.isGapCut hblank), hwords]
        · simpa using fun _ => hgap.kind_eq
      · have hword := (hcut.isToken hblank).isWord
        obtain ⟨gap, hgap, hpush, hpushInside, hpushDue⟩ := push_word hword hinside hwritten hdue
        rw [hwritten] at hpush
        obtain ⟨wide, hrun, hrunInside, hrunDue, hwide, hwideChain, hwords, -⟩ :=
          ih hinnerRest hpushInside hpush hpushDue hrest
        refine ⟨gap ++ cut :: wide, ?_, hrunInside, ?_, ?_, ?_, ?_, ?_⟩
        · rcases hgap with ⟨rfl, -⟩ | ⟨rfl, -⟩ <;> simpa using hrun
        · rcases hgap with ⟨rfl, -⟩ | ⟨rfl, -⟩ <;> simpa using hrunDue
        · intro other hother
          rcases mem_append.mp hother with hother | hother
          · rcases hgap with ⟨rfl, -⟩ | ⟨rfl, -⟩
            · simp at hother
            · rw [mem_singleton.mp hother]
              exact .inl isGapCut_blankCut
          · rcases mem_cons.mp hother with rfl | hother
            · exact hcut
            · exact hwide other hother
        · rcases hgap with ⟨rfl, -⟩ | ⟨rfl, hprevious⟩
          · exact .cons_cons hjoins hwideChain
          · refine .cons_cons (joins_of_isGapCut hprevious isGapCut_blankCut) (.cons_cons ?_ hwideChain)
            exact ⟨fun _ => hblank, trivial⟩
        · rcases hgap with ⟨rfl, -⟩ | ⟨rfl, -⟩
          · rw [nil_append, wordsOf_word hword, wordsOf_word hword, hwords]
          · rw [singleton_append, wordsOf_of_isGapCut isGapCut_blankCut, wordsOf_word hword,
              wordsOf_word hword, hwords]
        · rcases hgap with ⟨rfl, hopens⟩ | ⟨rfl, -⟩
          · simp [hopens]
          · simp [blankCut]

/-- The place is outside of tags. -/
structure IsOutside (state : Insertion) : Prop where
  inside_eq : state.inside = false
  blankDue_eq : state.blankDue = false
  head_eq : state.written.head?.any Token.opensTag = false

theorem push_begin (hstate : state.IsOutside) {cut : Cut}
    (hopens : (Token.ofCut cut).opensTag) :
    state.push (Token.ofCut cut) = ⟨Token.ofCut cut :: state.written, true, false⟩ := by
  obtain ⟨kind, text⟩ := cut
  have hkind : kind ≠ .operator ∧ kind ≠ .whitespace ∧ kind ≠ .comment ∧
      (Token.ofCut (kind, text)).closesTag = false := by
    revert hopens
    cases kind <;> simp [Token.ofCut, Token.opensTag, Token.closesTag]
  have htidy : state.tidied (Token.ofCut (kind, text)) = Token.ofCut (kind, text) := by
    simp [tidied, Token.ofCut, Token.isLineBlank, hkind.2.1, hkind.2.2.1]
  have hneeds : state.needsBlank (Token.ofCut (kind, text)) = false := by
    simp [needsBlank, hstate.head_eq, hstate.blankDue_eq, hkind.2.2.2]
  rw [push_of_not_operator htidy hkind.1, hneeds, hopens]
  simp

/-- The categories of what stands outside of tags. -/
def copiedKinds : List TokenKind :=
  [.data, .whitespace, .rawBegin, .rawEnd]

theorem push_copied (hstate : state.IsOutside) {cut : Cut} (hcopied : cut.1 ∈ copiedKinds) :
    state.push (Token.ofCut cut) = ⟨Token.ofCut cut :: state.written, false, false⟩ := by
  obtain ⟨kind, text⟩ := cut
  have hkind : kind ≠ .operator ∧ kind ≠ .comment ∧
      (Token.ofCut (kind, text)).opensTag = false ∧
      (Token.ofCut (kind, text)).closesTag = false := by
    simp only [copiedKinds, mem_cons, not_mem_nil, or_false] at hcopied
    rcases hcopied with rfl | rfl | rfl | rfl <;> exact ⟨by decide, by decide, rfl, rfl⟩
  have htidy : state.tidied (Token.ofCut (kind, text)) = Token.ofCut (kind, text) := by
    simp [tidied, Token.ofCut, hstate.inside_eq, hkind.2.1]
  have hneeds : state.needsBlank (Token.ofCut (kind, text)) = false := by
    simp [needsBlank, hstate.head_eq, hstate.blankDue_eq, hkind.2.2.2]
  rw [push_of_not_operator htidy hkind.1, hneeds, hkind.2.2.1, hkind.2.2.2, hstate.inside_eq]
  simp

theorem foldl_push_copied (hcopied : ∀ cut ∈ cuts, cut.1 ∈ copiedKinds) (hstate : state.IsOutside) :
    ((tokensOf cuts).foldl push state).IsOutside ∧
      ((tokensOf cuts).foldl push state).written = (tokensOf cuts).reverse ++ state.written := by
  induction cuts generalizing state with
  | nil => exact ⟨hstate, rfl⟩
  | cons cut cuts ih =>
      have hcut := hcopied cut mem_cons_self
      have hpush := push_copied hstate hcut
      have houtside : (state.push (Token.ofCut cut)).IsOutside := by
        rw [hpush]
        refine ⟨rfl, rfl, ?_⟩
        obtain ⟨kind, text⟩ := cut
        simp only [copiedKinds, mem_cons, not_mem_nil, or_false] at hcut
        rcases hcut with rfl | rfl | rfl | rfl <;> rfl
      obtain ⟨hrest, hwritten⟩ :=
        ih (fun other hother => hcopied other (mem_cons_of_mem _ hother)) houtside
      refine ⟨hrest, ?_⟩
      rw [tokensOf_cons, foldl_cons, hwritten, hpush]
      simp

theorem push_end {cut : Cut} (hcloses : (Token.ofCut cut).closesTag) {previous : Cut}
    (hwritten : state.written = Token.ofCut previous :: before)
    (hdue : state.blankDue → previous.1 = .operator) :
    ∃ gap : List Cut, (gap = [] ∧ (previous.1 = .whitespace ∨ previous.1 = .comment) ∨
        gap = [blankCut] ∧ previous.1 ≠ .whitespace ∧ previous.1 ≠ .comment) ∧
      state.push (Token.ofCut cut) =
        ⟨Token.ofCut cut :: (tokensOf gap ++ state.written), false, false⟩ := by
  obtain ⟨kind, text⟩ := cut
  have hkind : kind ≠ .operator ∧ kind ≠ .whitespace ∧ kind ≠ .comment ∧
      (Token.ofCut (kind, text)).opensTag = false := by
    revert hcloses
    cases kind <;> simp [Token.ofCut, Token.opensTag, Token.closesTag]
  have htidy : state.tidied (Token.ofCut (kind, text)) = Token.ofCut (kind, text) := by
    simp [tidied, Token.ofCut, Token.isLineBlank, hkind.2.1, hkind.2.2.1]
  rw [push_of_not_operator htidy hkind.1, hkind.2.2.2, hcloses]
  by_cases hgap : previous.1 = .whitespace ∨ previous.1 = .comment
  · refine ⟨[], .inl ⟨rfl, hgap⟩, ?_⟩
    have hdueFalse : state.blankDue = false := by
      by_contra hblankDue
      have hoperator := hdue (by simpa using hblankDue)
      rcases hgap with h | h <;> simp [hoperator] at h
    have hopens : (Token.ofCut previous).opensTag = false := by
      obtain ⟨previousKind, _⟩ := previous
      rcases hgap with rfl | rfl <;> rfl
    have hany : (Token.ofCut previous).kind = .whitespace ∨
        (Token.ofCut previous).kind = .comment := hgap
    have hneeds : state.needsBlank (Token.ofCut (kind, text)) = false := by
      simp only [needsBlank, hwritten, head?_cons, Option.any_some, hopens, hdueFalse,
        Bool.false_and, Bool.false_or, Bool.or_false, Bool.and_eq_false_imp, Bool.not_eq_false',
        Bool.or_eq_true, beq_iff_eq]
      exact fun _ => hany
    simp [hneeds]
  · simp only [not_or] at hgap
    refine ⟨[blankCut], .inr ⟨rfl, hgap⟩, ?_⟩
    have hwhitespace : (Token.ofCut previous).kind ≠ .whitespace := hgap.1
    have hcomment : (Token.ofCut previous).kind ≠ .comment := hgap.2
    have hneeds : state.needsBlank (Token.ofCut (kind, text)) := by
      simp [needsBlank, hwritten, hcloses, hwhitespace, hcomment]
    simp only [hneeds, if_true]
    rfl

theorem foldl_push_tag {opening closing : Cut} (hopens : (Token.ofCut opening).opensTag)
    (hcloses : (Token.ofCut closing).closesTag) (hinner : ∀ cut ∈ cuts, IsInner cut)
    (hchain : cuts.IsChain Joins) (hstate : state.IsOutside) :
    ∃ wide, IsSpacedInside cuts wide ∧
      ((tokensOf (opening :: (cuts ++ [closing]))).foldl push state) =
        ⟨(tokensOf (opening :: (wide ++ [closing]))).reverse ++ state.written, false, false⟩ := by
  have hbegin := push_begin hstate hopens
  have hchainAll : (opening :: cuts).IsChain Joins := by
    cases cuts with
    | nil => exact .singleton _
    | cons cut cuts => exact .cons_cons (joins_of_opensTag hopens) hchain
  obtain ⟨wide, hrun, -, hrunDue, hwide, hwideChain, hwords, hstarts⟩ :=
    foldl_push_inside hinner (show (state.push (Token.ofCut opening)).inside = true by rw [hbegin])
      (show (state.push (Token.ofCut opening)).written = Token.ofCut opening :: state.written by
        rw [hbegin]) (by simp [hbegin]) hchainAll
  -- the last piece that was written decides about the blank before the end
  obtain ⟨front, last, hlast⟩ : ∃ front last, opening :: wide = front ++ [last] :=
    ⟨_, _, (dropLast_append_getLast (cons_ne_nil opening wide)).symm⟩
  have hwritten : ((tokensOf cuts).foldl push (state.push (Token.ofCut opening))).written =
      Token.ofCut last :: ((tokensOf front).reverse ++ state.written) := by
    rw [hrun, hlast]
    simp
  have hdue : ((tokensOf cuts).foldl push (state.push (Token.ofCut opening))).blankDue = true →
      last.1 = .operator := by
    intro h
    simpa [hlast] using hrunDue h
  obtain ⟨gap, hgap, hend⟩ := push_end hcloses hwritten hdue
  have hfold : ((tokensOf (opening :: (cuts ++ [closing]))).foldl push state) =
      ⟨(tokensOf (opening :: ((wide ++ gap) ++ [closing]))).reverse ++ state.written, false,
        false⟩ := by
    have hgapReverse : (tokensOf gap).reverse = tokensOf gap := by
      rcases hgap with ⟨rfl, -⟩ | ⟨rfl, -⟩ <;> rfl
    simp only [tokensOf_cons, tokensOf_append, foldl_cons, foldl_append, tokensOf_nil,
      foldl_nil]
    rw [hend, hrun]
    simp [hgapReverse]
  rcases hgap with ⟨rfl, hkind⟩ | ⟨rfl, hwhitespace, -⟩
  · rw [append_nil] at hfold
    have hopening : opening.1 ≠ .whitespace ∧ opening.1 ≠ .comment := by
      obtain ⟨kind, text⟩ := opening
      revert hopens
      cases kind <;> simp [Token.ofCut, Token.opensTag]
    refine ⟨wide, ⟨hwide, hwideChain.tail, hwords, hstarts hopens, ?_⟩, hfold⟩
    cases front with
    | nil =>
        obtain ⟨rfl, -⟩ := cons.inj hlast
        exact absurd hkind (by simp [hopening])
    | cons first front =>
        obtain ⟨-, hwideEq⟩ := cons.inj hlast
        have hlastInner := hwide last (by simp [hwideEq])
        obtain ⟨kind, text⟩ := last
        rcases hkind with rfl | rfl
        · exact ⟨front, text, hwideEq⟩
        · rcases hlastInner with hgap | htoken
          · exact absurd hgap.kind_eq (by simp)
          · exact absurd htoken.isWord (by simp [TokenKind.isWord])
  · refine ⟨wide ++ [blankCut], ⟨?_, ?_, ?_, ?_, ⟨wide, [' '], rfl⟩⟩, hfold⟩
    · intro cut hcut
      rcases mem_append.mp hcut with hcut | hcut
      · exact hwide cut hcut
      · rw [mem_singleton.mp hcut]
        exact .inl isGapCut_blankCut
    · have hall : ((opening :: wide) ++ [blankCut]).IsChain Joins := by
        refine isChain_append.mpr ⟨hwideChain, .singleton _, ?_⟩
        intro x hx y hy
        obtain rfl : blankCut = y := by simpa using hy
        obtain rfl : last = x := by simpa [hlast] using hx
        exact joins_of_isGapCut hwhitespace isGapCut_blankCut
      exact hall.tail
    · rw [← hwords]
      simp [wordsOf, blankCut, TokenKind.isWord]
    · intro cut hcut
      cases wide with
      | nil =>
          obtain rfl : blankCut = cut := by simpa using hcut
          rfl
      | cons first wide => exact hstarts hopens cut (by simpa using hcut)

end Insertion

theorem of_isUnwanted {before : List Token} {previous following : Token}
    (h : isUnwanted before previous following) :
    previous.opensTag = false ∧ following.closesTag = false ∧
      (previous.kind = .operator ∨ following.kind = .operator) ∧
      wouldMerge previous following = false := by
  unfold isUnwanted at h
  split at h
  · simp at h
  · rename_i htags
    split at h
    · simp at h
    · rename_i hoperators
      split at h
      · simp at h
      · rename_i hmerge
        simp only [Bool.or_eq_true, not_or, Bool.not_eq_true] at htags
        simp only [Bool.and_eq_true, bne_iff_ne, ne_eq, not_and_or, not_not] at hoperators
        exact ⟨htags.1, htags.2, hoperators, by simpa using hmerge⟩

theorem not_starts_of_mem_operatorEnds {d : Char} (h : d ∈ ['/', '*', '=']) :
    d.isDigit = false ∧ startsName d = false ∧ d ≠ '\'' ∧ d ≠ '"' := by
  have hshort : d ∈ '!' :: shortOperators := by fin_cases h <;> decide
  obtain ⟨hdigit, hname, hsingle, hdouble, -⟩ := not_starts_of_mem_shortOperators hshort
  exact ⟨hdigit, hname, hsingle, hdouble⟩

theorem joins_of_isUnwanted {before : List Token} {previous following : Cut}
    (hprevious : IsToken previous) (hfollowing : IsToken following)
    (h : isUnwanted before (Token.ofCut previous) (Token.ofCut following)) :
    Joins previous following := by
  obtain ⟨-, -, hoperator, hmerge⟩ := of_isUnwanted h
  obtain ⟨d, more, hcons, hstarts⟩ := hfollowing.exists_cons
  refine ⟨fun hblank => ?_, ?_⟩
  · have hword := hprevious.isWord
    rw [hblank] at hword
    simp [TokenKind.isWord] at hword
  rw [hcons]
  unfold Fits
  split
  · rename_i hname
    have hkind : following.1 = .operator := by
      rcases hoperator with hkind | hkind
      · exact absurd (hname.symm.trans hkind) (by simp)
      · exact hkind
    rcases hstarts with ⟨hnumber, -⟩ | ⟨hother, -⟩ | ⟨hother, -⟩ | ⟨-, hmem⟩
    · rw [hkind] at hnumber
      simp [TokenKind.isNumber] at hnumber
    · exact absurd (hkind.symm.trans hother) (by simp)
    · exact absurd (hkind.symm.trans hother) (by simp)
    · exact continuesName_of_mem_shortOperators hmem
  · rename_i hkind
    intro c hc hlong
    obtain rfl : d = c := by simpa using hc
    obtain ⟨first, second, heq, -, hsecond⟩ := starts_of_mem_longOperators hlong
    -- the previous token is one character, which the next one would complete
    obtain ⟨hfirst, rfl⟩ : previous.2 = [first] ∧ d = second := by
      obtain ⟨e, rest, hrest, -⟩ := hprevious.exists_cons
      rw [hrest] at heq ⊢
      cases rest with
      | nil => simpa using heq
      | cons _ rest => simp at heq
    obtain ⟨hdigit, hname, hsingle, hdouble⟩ := not_starts_of_mem_operatorEnds hsecond
    rcases hstarts with ⟨-, hother⟩ | ⟨-, hother⟩ | ⟨-, hother⟩ | ⟨hfollow, -⟩
    · rw [hdigit] at hother
      simp at hother
    · rw [hname] at hother
      simp at hother
    · exact absurd hother (by simp [hsingle, hdouble])
    · rw [heq] at hlong
      have hmerged : wouldMerge (Token.ofCut previous) (Token.ofCut following) := by
        simp [wouldMerge, Token.ofCut, hkind, hfollow, hfirst, hcons, hlong]
      rw [hmerge] at hmerged
      simp at hmerged
  · trivial

variable {kept tokens : List Token} {token : Token}

theorem dropBlanks_keep (h : isDropped kept token tokens = false) :
    dropBlanks kept (token :: tokens) = dropBlanks (token :: kept) tokens := by
  simp [dropBlanks, h]

theorem dropBlanks_drop (h : isDropped kept token tokens) :
    dropBlanks kept (token :: tokens) = dropBlanks kept tokens := by
  simp [dropBlanks, h]

theorem isDropped_of_not_whitespace (h : token.kind ≠ .whitespace) :
    isDropped kept token tokens = false := by
  cases kept <;> cases tokens <;> simp [isDropped, Token.isLineBlank, h]

theorem dropBlanks_inside {cuts : List Cut} (hinner : ∀ cut ∈ cuts, IsInner cut) {previous : Cut}
    (hprevious : (Token.ofCut previous).opensTag ∨ IsInner previous)
    (hchain : (previous :: cuts).IsChain Joins) {closing : Cut}
    (hcloses : (Token.ofCut closing).closesTag) (before tokens : List Token) :
    ∃ thin : List Cut,
      dropBlanks (Token.ofCut previous :: before)
          (tokensOf cuts ++ Token.ofCut closing :: tokens) =
        dropBlanks ((tokensOf (previous :: thin)).reverse ++ before)
          (Token.ofCut closing :: tokens) ∧
      (∀ cut ∈ thin, IsInner cut) ∧ (previous :: thin).IsChain Joins ∧
      wordsOf thin = wordsOf cuts ∧ (previous :: thin).getLast? = (previous :: cuts).getLast? ∧
      ((Token.ofCut previous).opensTag → thin.head? = cuts.head?) := by
  induction cuts generalizing previous before with
  | nil => exact ⟨[], rfl, by simp, .singleton _, rfl, rfl, fun _ => rfl⟩
  | cons cut cuts ih =>
      obtain ⟨hjoins, hrest⟩ := isChain_cons_cons.mp hchain
      have hcut := hinner cut mem_cons_self
      have hinnerRest : ∀ other ∈ cuts, IsInner other :=
        fun other hother => hinner other (mem_cons_of_mem _ hother)
      by_cases hdropped : isDropped (Token.ofCut previous :: before) (Token.ofCut cut)
          (tokensOf cuts ++ Token.ofCut closing :: tokens) = true
      · cases cuts with
        | nil =>
            have hunwanted : isUnwanted before (Token.ofCut previous) (Token.ofCut closing) := by
              simp only [isDropped, tokensOf_nil, nil_append, Bool.and_eq_true] at hdropped
              exact hdropped.2
            rw [(of_isUnwanted hunwanted).2.1] at hcloses
            simp at hcloses
        | cons next cuts =>
            have hdrop := dropBlanks_drop hdropped
            simp only [isDropped, tokensOf_cons, cons_append, Bool.and_eq_true] at hdropped
            obtain ⟨hline, hunwanted⟩ := hdropped
            have hblank : cut.1 = .whitespace := by
              simp only [Token.isLineBlank, Bool.and_eq_true, beq_iff_eq] at hline
              exact hline.1
            obtain ⟨hnextJoins, hmore⟩ := isChain_cons_cons.mp hrest
            have hopens := (of_isUnwanted hunwanted).1
            have hpreviousToken : IsToken previous := by
              refine (hprevious.resolve_left (by simp [hopens])).isToken fun h => ?_
              exact hjoins.blanks h hblank
            have hnextToken : IsToken next :=
              (hinnerRest next mem_cons_self).isToken (hnextJoins.blanks hblank)
            obtain ⟨thin, hrun, hthin, hthinChain, hwords, hlast, -⟩ :=
              ih hinnerRest hprevious
                (.cons_cons (joins_of_isUnwanted hpreviousToken hnextToken hunwanted) hmore) before
            refine ⟨thin, ?_, hthin, hthinChain, ?_, ?_, by simp [hopens]⟩
            · exact hdrop.trans hrun
            · rw [hwords, wordsOf_of_isGapCut (hcut.isGapCut hblank)]
            · simpa using hlast
      · obtain ⟨thin, hrun, hthin, hthinChain, hwords, hlast, -⟩ :=
          ih hinnerRest (.inr hcut) hrest (Token.ofCut previous :: before)
        refine ⟨cut :: thin, ?_, ?_, .cons_cons hjoins hthinChain, ?_, ?_, fun _ => rfl⟩
        · rw [tokensOf_cons, cons_append, dropBlanks_keep (by simpa using hdropped), hrun]
          simp
        · intro other hother
          rcases mem_cons.mp hother with rfl | hother
          · exact hcut
          · exact hthin other hother
        · simp only [wordsOf, filter_cons]
          split <;> simpa [wordsOf] using hwords
        · simpa using hlast

theorem dropBlanks_tag {opening closing : Cut} {cuts wide : List Cut}
    (hopens : (Token.ofCut opening).opensTag)
    (hcloses : (Token.ofCut closing).closesTag) (hwide : IsSpacedInside cuts wide)
    (kept tokens : List Token) :
    ∃ thin, IsSpacedInside cuts thin ∧
      dropBlanks kept (tokensOf (opening :: (wide ++ [closing])) ++ tokens) =
        dropBlanks ((tokensOf (opening :: (thin ++ [closing]))).reverse ++ kept) tokens := by
  have hopening : opening.1 ≠ .whitespace := by
    obtain ⟨kind, text⟩ := opening
    revert hopens
    cases kind <;> simp [Token.ofCut, Token.opensTag]
  have hclosing : closing.1 ≠ .whitespace := by
    obtain ⟨kind, text⟩ := closing
    revert hcloses
    cases kind <;> simp [Token.ofCut, Token.closesTag]
  have hchain : (opening :: wide).IsChain Joins := by
    refine isChain_cons.mpr ⟨fun _ _ => joins_of_opensTag hopens, hwide.chain⟩
  obtain ⟨thin, hrun, hthin, hthinChain, hwords, hlast, hhead⟩ :=
    dropBlanks_inside hwide.inner (.inl hopens) hchain hcloses kept tokens
  refine ⟨thin, ⟨hthin, hthinChain.tail, hwords.trans hwide.words_eq, ?_, ?_⟩, ?_⟩
  · rw [hhead hopens]
    exact hwide.starts
  · obtain ⟨front, text, hends⟩ := hwide.ends
    rw [hends, ← cons_append, getLast?_append, getLast?_singleton] at hlast
    cases thin with
    | nil =>
        obtain rfl : opening = (.whitespace, text) := by simpa using hlast
        exact absurd rfl hopening
    | cons first thin =>
        refine ⟨(first :: thin).dropLast, text, ?_⟩
        refine (dropLast_append_getLast? _ ?_).symm
        simpa using hlast
  · rw [tokensOf_cons, cons_append, dropBlanks_keep (isDropped_of_not_whitespace hopening),
      tokensOf_append, append_assoc]
    refine hrun.trans ?_
    rw [dropBlanks_keep (isDropped_of_not_whitespace hclosing)]
    simp

end JinjaLayout.Spacing
