import Mathlib
import JinjaLayout.Proofs.SpacingGaps

/-!
The preferred spacing of a whole template. Both passes go through the outline of the template part
by part and leave an outline with the same parts, in which every name, string and operator is found.
-/

namespace JinjaLayout.Spacing

open JinjaLayout.Scan JinjaLayout.Text Insertion List

/-! ### Comments -/

/-- The end of a comment holds no other character, so such a character splits the search for it. -/
theorem position?_commentEnd_append_cons {c : Char} (hhash : c ≠ '#') (hbrace : c ≠ '}')
    (first second : Text) :
    position? ['#', '}'] (first ++ c :: second) = none ↔
      position? ['#', '}'] first = none ∧ position? ['#', '}'] second = none := by
  induction first with
  | nil => simp [position?, hhash.symm]
  | cons d first ih =>
      have hfront : ['#', '}'].isPrefixOf (d :: (first ++ c :: second)) =
          ['#', '}'].isPrefixOf (d :: first) := by
        cases first <;> simp [isPrefixOf, hbrace.symm]
      simp only [cons_append, position?, hfront]
      split
      · simp
      · simpa using ih

theorem position?_commentEnd_of_mem_words {text word : Text}
    (htext : position? ['#', '}'] text = none) (hword : word ∈ words text) :
    position? ['#', '}'] word = none := by
  have hgo : ∀ (text front : Text), position? ['#', '}'] (front.reverse ++ text) = none →
      word ∈ words.go front text → position? ['#', '}'] word = none := by
    intro text
    induction text with
    | nil =>
        intro front hnone hmem
        simp only [words.go] at hmem
        split at hmem
        · simp at hmem
        · rw [mem_singleton.mp hmem]
          simpa using hnone
    | cons c text ih =>
        intro front hnone hmem
        simp only [words.go] at hmem
        split at hmem
        · rename_i hblank
          have hhash : c ≠ '#' := by rintro rfl; revert hblank; decide
          have hbrace : c ≠ '}' := by rintro rfl; revert hblank; decide
          obtain ⟨hfront, hrest⟩ := (position?_commentEnd_append_cons hhash hbrace _ _).mp hnone
          split at hmem
          · exact ih [] hrest hmem
          · rcases mem_cons.mp hmem with rfl | hmem
            · exact hfront
            · exact ih [] hrest hmem
        · exact ih (c :: front) (by simpa using hnone) hmem
  exact hgo text [] (by simpa using htext) hword

theorem position?_commentEnd_joined {texts : List Text}
    (h : ∀ text ∈ texts, position? ['#', '}'] text = none) :
    position? ['#', '}'] (joined [' '] texts) = none := by
  induction texts with
  | nil => rfl
  | cons text texts ih =>
      have hrest := ih fun other hother => h other (mem_cons_of_mem _ hother)
      cases texts with
      | nil => exact h text mem_cons_self
      | cons next texts =>
          rw [joined, append_assoc]
          · exact (position?_commentEnd_append_cons (by decide) (by decide) _ _).mpr
              ⟨h text mem_cons_self, hrest⟩
          · simp

theorem exists_of_paddedComment (text : Text) :
    ∃ middle, paddedComment text = ' ' :: middle ∧ (' ' :: middle).getLast? = some ' ' := by
  unfold paddedComment
  split
  · exact ⟨[], rfl, rfl⟩
  · exact ⟨_, rfl, by rw [← cons_append, getLast?_append]; rfl⟩

/-- The inside of a comment as the passes leave it. -/
def commentText (body : Text) : Text :=
  if body.contains '\n' then body else paddedComment body

theorem commentText_ne_nil (body : Text) : commentText body ≠ [] := by
  unfold commentText
  split
  · rintro rfl
    simp_all
  · obtain ⟨middle, hpadded, -⟩ := exists_of_paddedComment body
    simp [hpadded]

theorem not_isBlank_of_mem_words {text word : Text} (h : word ∈ words text) :
    word ≠ [] ∧ ∀ c ∈ word, isBlank c = false := by
  have hgo : ∀ (text front : Text), (∀ c ∈ front, isBlank c = false) → word ∈ words.go front text →
      word ≠ [] ∧ ∀ c ∈ word, isBlank c = false := by
    intro text
    induction text with
    | nil =>
        intro front hfront hmem
        simp only [words.go] at hmem
        split at hmem
        · simp at hmem
        · obtain rfl := mem_singleton.mp hmem
          simp_all
    | cons c text ih =>
        intro front hfront hmem
        simp only [words.go] at hmem
        split at hmem
        · split at hmem
          · exact ih [] (by simp) hmem
          · rcases mem_cons.mp hmem with rfl | hmem
            · simp_all
            · exact ih [] (by simp) hmem
        · rename_i hblank
          refine ih (c :: front) ?_ hmem
          rintro d hd
          rcases mem_cons.mp hd with rfl | hd
          · simpa using hblank
          · exact hfront d hd
  exact hgo text [] (by simp) h

theorem words_go_append {word : Text} (hword : ∀ c ∈ word, isBlank c = false) (front rest : Text) :
    words.go front (word ++ rest) = words.go (word.reverse ++ front) rest := by
  induction word generalizing front with
  | nil => rfl
  | cons c word ih =>
      rw [cons_append, words.go, hword c mem_cons_self, if_neg (by simp),
        ih fun d hd => hword d (mem_cons_of_mem _ hd)]
      simp

theorem words_joined {texts : List Text}
    (h : ∀ text ∈ texts, text ≠ [] ∧ ∀ c ∈ text, isBlank c = false) :
    words (joined [' '] texts ++ [' ']) = texts := by
  have hblank : isBlank ' ' := by decide
  have hword : ∀ (text rest : Text), (text ≠ [] ∧ ∀ c ∈ text, isBlank c = false) →
      words (text ++ ' ' :: rest) = text :: words rest := by
    intro text rest htext
    rw [words, words_go_append htext.2, words.go, if_pos hblank, if_neg (by simpa using htext.1)]
    simp [words]
  induction texts with
  | nil => simp [words, joined, words.go, hblank]
  | cons text texts ih =>
      have htext := h text mem_cons_self
      cases texts with
      | nil => exact hword text [] htext
      | cons next texts =>
          have hmore := ih fun other hother => h other (mem_cons_of_mem _ hother)
          rw [joined, append_assoc, append_assoc, singleton_append, hword _ _ htext,
            hmore]
          simp

theorem mem_joined {separator : Text} {texts : List Text} {c : Char}
    (h : c ∈ joined separator texts) : c ∈ separator ∨ ∃ text ∈ texts, c ∈ text := by
  induction texts with
  | nil => simp [joined] at h
  | cons text texts ih =>
      cases texts with
      | nil => exact .inr ⟨text, by simp, h⟩
      | cons next texts =>
          rw [joined, append_assoc, mem_append, mem_append] at h
          · rcases h with h | h | h
            · exact .inr ⟨text, by simp, h⟩
            · exact .inl h
            · rcases ih h with h | ⟨other, hother, h⟩
              · exact .inl h
              · exact .inr ⟨other, mem_cons_of_mem _ hother, h⟩
          · simp

theorem words_paddedComment (text : Text) : words (paddedComment text) = words text := by
  have hblank : isBlank ' ' := by decide
  have hskip : ∀ rest, words (' ' :: rest) = words rest := by
    intro rest
    simp [words, words.go, hblank]
  unfold paddedComment
  split
  · rename_i hnone
    rw [hnone]
    rfl
  · rw [hskip]
    exact words_joined fun word hword => not_isBlank_of_mem_words hword

theorem commentText_commentText (body : Text) : commentText (commentText body) = commentText body := by
  by_cases hline : '\n' ∈ body
  · simp [commentText, hline]
  · have hpadded : '\n' ∉ paddedComment body := by
      have hblank : isBlank '\n' := by decide
      have hjoined : '\n' ∉ joined [' '] (words body) := by
        intro hmem
        rcases mem_joined hmem with hmem | ⟨word, hword, hmem⟩
        · simp at hmem
        · rw [(not_isBlank_of_mem_words hword).2 _ hmem] at hblank
          simp at hblank
      unfold paddedComment
      split
      · simp
      · simpa using hjoined
    have hsame : paddedComment (paddedComment body) = paddedComment body := by
      rw [paddedComment, words_paddedComment]
      rfl
    simp [commentText, hline, hpadded, hsame]

theorem position?_commentEnd_sign (chomp : Chomp) : position? ['#', '}'] chomp.sign = none := by
  cases chomp <;> rfl

theorem position?_commentEnd_commentText {body : Text} {chomp : Chomp}
    (h : position? ['#', '}'] (body ++ chomp.sign) = none) :
    position? ['#', '}'] (commentText body ++ chomp.sign) = none := by
  unfold commentText
  split
  · exact h
  · have hbody : position? ['#', '}'] body = none := by
      cases chomp with
      | none => simpa [Chomp.sign] using h
      | strip => exact ((position?_commentEnd_append_cons (by decide) (by decide) _ _).mp h).1
      | keep => exact ((position?_commentEnd_append_cons (by decide) (by decide) _ _).mp h).1
    have hjoined := position?_commentEnd_joined fun word hword =>
      position?_commentEnd_of_mem_words hbody hword
    have hend : ∀ text, position? ['#', '}'] text = none →
        position? ['#', '}'] (' ' :: text) = none := fun text htext =>
      (position?_commentEnd_append_cons (by decide) (by decide) [] text).mpr ⟨rfl, htext⟩
    unfold paddedComment
    split
    · exact hend _ (position?_commentEnd_sign chomp)
    · refine hend _ ?_
      have hsplit := (position?_commentEnd_append_cons (c := ' ') (by decide) (by decide) _ _).mpr
        ⟨hjoined, position?_commentEnd_sign chomp⟩
      simpa using hsplit

variable {chomp : Chomp} {after tail : Text} {kept tokens : List Token} {cuts spaced : List Cut}
  {env : Environment} {previous : Option Char}

theorem ofChar?_commentText {body : Text} (h : .ofChar? (body ++ chomp.sign).getLast? = chomp) :
    .ofChar? (commentText body ++ chomp.sign).getLast? = chomp := by
  unfold commentText
  split
  · exact h
  · obtain ⟨middle, hpadded, hlast⟩ := exists_of_paddedComment body
    rw [hpadded]
    cases chomp with
    | none => rw [Chomp.sign, append_nil, hlast]; rfl
    | strip => rw [getLast?_append]; rfl
    | keep => rw [getLast?_append]; rfl

theorem atStart_commentText {body : Text} (h : Chomp.atStart (body ++ after) = .none) :
    Chomp.atStart (commentText body ++ after) = .none := by
  unfold commentText
  split
  · exact h
  · obtain ⟨middle, hpadded, -⟩ := exists_of_paddedComment body
    rw [hpadded]
    rfl

/-- What the passes write for the inside of a comment. An empty comment gets a blank, which is read
again as the inside of the comment. -/
def commentPiece (body : Text) : Cut :=
  (if body = [] then .whitespace else .comment, commentText body)

theorem Insertion.foldl_push_comment (opening closing body : Text) {state : Insertion}
    (hstate : state.IsOutside) :
    (tokensOf ((.commentBegin, opening) ::
        (someCut .comment body ++ [(.commentEnd, closing)]))).foldl push state =
      ⟨(tokensOf ((.commentBegin, opening) ::
        ([commentPiece body] ++ [(.commentEnd, closing)]))).reverse ++ state.written, false,
        false⟩ := by
  have hbegin := push_begin hstate (show (Token.ofCut (.commentBegin, opening)).opensTag = true from rfl)
  have hcloses : (Token.ofCut (.commentEnd, closing)).closesTag := rfl
  by_cases hbody : body = []
  · subst hbody
    obtain ⟨gap, ⟨-, hgap⟩ | ⟨rfl, -⟩, hend⟩ :=
      push_end hcloses (show (state.push (Token.ofCut (.commentBegin, opening))).written =
        Token.ofCut (.commentBegin, opening) :: state.written by rw [hbegin]) (by simp [hbegin])
    · simp at hgap
    · simp only [someCut, if_true, nil_append, tokensOf_cons, tokensOf_nil, foldl_cons,
        foldl_nil]
      rw [hend, hbegin]
      rfl
  · have hcomment : (state.push (Token.ofCut (.commentBegin, opening))).push
        (Token.ofCut (.comment, body)) =
          ⟨Token.ofCut (commentPiece body) :: Token.ofCut (.commentBegin, opening) :: state.written,
            true, false⟩ := by
      rw [hbegin]
      have htidy : tidied ⟨Token.ofCut (.commentBegin, opening) :: state.written, true, false⟩
          (Token.ofCut (.comment, body)) = Token.ofCut (commentPiece body) := by
        simp only [tidied, Token.ofCut, Token.isLineBlank, commentPiece, commentText, hbody]
        by_cases hline : '\n' ∈ body <;> simp [hline]
      have hneeds : needsBlank ⟨Token.ofCut (.commentBegin, opening) :: state.written, true, false⟩
          (Token.ofCut (commentPiece body)) = false := by
        simp [needsBlank, commentPiece, hbody, Token.ofCut, Token.closesTag]
      rw [push_of_not_operator htidy (by simp [commentPiece, hbody, Token.ofCut]), hneeds]
      simp [commentPiece, hbody, Token.ofCut, Token.opensTag, Token.closesTag]
    obtain ⟨gap, ⟨rfl, -⟩ | ⟨-, -, hgap⟩, hend⟩ :=
      push_end hcloses (show ((state.push (Token.ofCut (.commentBegin, opening))).push
        (Token.ofCut (.comment, body))).written = Token.ofCut (commentPiece body) ::
          Token.ofCut (.commentBegin, opening) :: state.written by rw [hcomment])
        (by simp [hcomment])
    · simp only [someCut, hbody, if_false, singleton_append, tokensOf_cons, tokensOf_nil,
        foldl_cons, foldl_nil]
      rw [hend, hcomment]
      rfl
    · simp [commentPiece, hbody] at hgap

theorem isDropped_of_opensTag {token : Token}
    (h : ∀ previous ∈ kept.head?, previous.opensTag = true) :
    isDropped kept token tokens = false := by
  cases kept with
  | nil => rfl
  | cons previous before =>
      cases tokens with
      | nil => rfl
      | cons following tokens =>
          by_contra hdropped
          simp only [isDropped, Bool.not_eq_false, Bool.and_eq_true] at hdropped
          have hopens := (of_isUnwanted hdropped.2).1
          rw [h previous rfl] at hopens
          simp at hopens

theorem dropBlanks_comment (opening closing : Text) (piece : Cut) (kept tokens : List Token) :
    dropBlanks kept (tokensOf ((.commentBegin, opening) ::
        ([piece] ++ [(.commentEnd, closing)])) ++ tokens) =
      dropBlanks ((tokensOf ((.commentBegin, opening) ::
        ([piece] ++ [(.commentEnd, closing)]))).reverse ++ kept) tokens := by
  simp only [tokensOf_cons, tokensOf_nil, cons_append, nil_append]
  rw [dropBlanks_keep (isDropped_of_not_whitespace (by simp [Token.ofCut])),
    dropBlanks_keep (isDropped_of_opensTag (by simp [Token.ofCut, Token.opensTag])),
    dropBlanks_keep (isDropped_of_not_whitespace (by simp [Token.ofCut]))]
  simp

/-! ### The text outside of tags -/

def HeadNotOperator (tokens : List Token) : Prop :=
  ∀ token ∈ tokens.head?, token.kind ≠ .operator

theorem isDropped_of_headNotOperator {token : Token} (hkept : HeadNotOperator kept)
    (htokens : HeadNotOperator tokens) :
    isDropped kept token tokens = false := by
  cases kept with
  | nil => rfl
  | cons previous before =>
      cases tokens with
      | nil => rfl
      | cons following tokens =>
          by_contra hdropped
          simp only [isDropped, Bool.not_eq_false, Bool.and_eq_true] at hdropped
          rcases (of_isUnwanted hdropped.2).2.2.1 with hkind | hkind
          · exact hkept previous rfl hkind
          · exact htokens following rfl hkind

theorem headNotOperator_of_copied {cut : Cut} (h : cut.1 ∈ copiedKinds) (tokens : List Token) :
    HeadNotOperator (Token.ofCut cut :: tokens) := by
  intro token htoken hkind
  obtain rfl : Token.ofCut cut = token := by simpa using htoken
  rw [show cut.1 = .operator from hkind] at h
  simp [copiedKinds] at h

theorem HeadNotOperator.append_copied (hcopied : ∀ cut ∈ cuts, cut.1 ∈ copiedKinds)
    (htokens : HeadNotOperator tokens) :
    HeadNotOperator (tokensOf cuts ++ tokens) := by
  cases cuts with
  | nil => exact htokens
  | cons cut cuts => exact headNotOperator_of_copied (hcopied cut mem_cons_self) _

theorem HeadNotOperator.reverse_append_copied (hcopied : ∀ cut ∈ cuts, cut.1 ∈ copiedKinds)
    (hkept : HeadNotOperator kept) : HeadNotOperator ((tokensOf cuts).reverse ++ kept) := by
  rw [tokensOf, ← map_reverse]
  exact hkept.append_copied fun cut hcut => hcopied cut (mem_reverse.mp hcut)

theorem dropBlanks_copied (hcopied : ∀ cut ∈ cuts, cut.1 ∈ copiedKinds)
    (hkept : HeadNotOperator kept) (htokens : HeadNotOperator tokens) :
    dropBlanks kept (tokensOf cuts ++ tokens) =
      dropBlanks ((tokensOf cuts).reverse ++ kept) tokens := by
  induction cuts generalizing kept with
  | nil => rfl
  | cons cut cuts ih =>
      have hcopiedRest : ∀ other ∈ cuts, other.1 ∈ copiedKinds :=
        fun other hother => hcopied other (mem_cons_of_mem _ hother)
      rw [tokensOf_cons, cons_append, dropBlanks_keep
          (isDropped_of_headNotOperator hkept (htokens.append_copied hcopiedRest)),
        ih hcopiedRest (headNotOperator_of_copied (hcopied cut mem_cons_self) kept)]
      simp

/-- Both passes make the second pieces from the first ones, wherever these stand outside of tags. -/
def SpacesTo (cuts spaced : List Cut) : Prop :=
  ∀ state : Insertion, state.IsOutside →
    ∃ wide, ((tokensOf cuts).foldl push state).IsOutside ∧
      ((tokensOf cuts).foldl push state).written = (tokensOf wide).reverse ++ state.written ∧
      (∀ tokens, HeadNotOperator tokens → HeadNotOperator (tokensOf wide ++ tokens)) ∧
      ∀ kept tokens, HeadNotOperator kept → HeadNotOperator tokens →
        dropBlanks kept (tokensOf wide ++ tokens) =
            dropBlanks ((tokensOf spaced).reverse ++ kept) tokens ∧
          HeadNotOperator ((tokensOf spaced).reverse ++ kept)

theorem spacesTo_copied (hcopied : ∀ cut ∈ cuts, cut.1 ∈ copiedKinds) :
    SpacesTo cuts cuts := by
  intro state hstate
  obtain ⟨houtside, hwritten⟩ := foldl_push_copied hcopied hstate
  refine ⟨cuts, houtside, hwritten, fun tokens htokens => htokens.append_copied hcopied, ?_⟩
  intro kept tokens hkept htokens
  exact ⟨dropBlanks_copied hcopied hkept htokens, hkept.reverse_append_copied hcopied⟩

theorem SpacesTo.append {first second spacedFirst spacedSecond : List Cut}
    (hfirst : SpacesTo first spacedFirst) (hsecond : SpacesTo second spacedSecond) :
    SpacesTo (first ++ second) (spacedFirst ++ spacedSecond) := by
  intro state hstate
  obtain ⟨wideFirst, houtside, hwritten, hhead, hdrop⟩ := hfirst state hstate
  obtain ⟨wideSecond, houtside', hwritten', hhead', hdrop'⟩ := hsecond _ houtside
  rw [tokensOf_append, foldl_append]
  refine ⟨wideFirst ++ wideSecond, houtside', ?_, ?_, ?_⟩
  · rw [hwritten', hwritten]
    simp
  · intro tokens htokens
    rw [tokensOf_append, append_assoc]
    exact hhead _ (hhead' _ htokens)
  · intro kept tokens hkept htokens
    obtain ⟨hrun, hkeptFirst⟩ := hdrop kept _ hkept (hhead' _ htokens)
    obtain ⟨hrun', hkeptSecond⟩ := hdrop' _ tokens hkeptFirst htokens
    have hlists : (tokensOf (spacedFirst ++ spacedSecond)).reverse ++ kept =
        (tokensOf spacedSecond).reverse ++ ((tokensOf spacedFirst).reverse ++ kept) := by simp
    rw [tokensOf_append, append_assoc, hrun, hrun', hlists]
    exact ⟨rfl, hkeptSecond⟩

theorem SpacesTag.spacesTo {opening closing : Cut} (hopens : (Token.ofCut opening).opensTag)
    (hcloses : (Token.ofCut closing).closesTag) (h : SpacesTag opening closing cuts spaced) :
    SpacesTo (opening :: (cuts ++ [closing])) (opening :: (spaced ++ [closing])) := by
  have hopening : (Token.ofCut opening).kind ≠ .operator := by
    obtain ⟨kind, text⟩ := opening
    revert hopens
    cases kind <;> simp [Token.ofCut, Token.opensTag]
  have hclosing : (Token.ofCut closing).kind ≠ .operator ∧ (Token.ofCut closing).opensTag = false := by
    obtain ⟨kind, text⟩ := closing
    revert hcloses
    cases kind <;> simp [Token.ofCut, Token.opensTag, Token.closesTag]
  obtain ⟨wide, hrun, hdrop⟩ := h
  intro state hstate
  rw [hrun state hstate]
  refine ⟨opening :: (wide ++ [closing]), ⟨rfl, rfl, by simp [hclosing.2]⟩, rfl, ?_, ?_⟩
  · rintro tokens - token htoken
    obtain rfl : Token.ofCut opening = token := by simpa using htoken
    exact hopening
  · intro kept tokens _ _
    refine ⟨hdrop kept tokens, ?_⟩
    rintro token htoken
    obtain rfl : Token.ofCut closing = token := by simpa using htoken
    exact hclosing.1

theorem SpacesTo.respaced_eq (h : SpacesTo cuts spaced) :
    respaced (tokensOf cuts) = tokensOf spaced := by
  have hnil : HeadNotOperator [] := by simp [HeadNotOperator]
  obtain ⟨wide, -, hwritten, -, hdrop⟩ := h {} ⟨rfl, rfl, rfl⟩
  obtain ⟨hrun, -⟩ := hdrop [] [] hnil hnil
  rw [respaced, withBlanks, hwritten]
  simpa [dropBlanks] using hrun

/-! ### One part of the outline -/

structure ReadsBack (written shown : Cut) : Prop where
  text_eq : written.2 = shown.2
  kind_eq : written.1 = shown.1 ∨ written.1 = .whitespace ∧ shown.1 = .comment

theorem ReadsBack.refl (cut : Cut) : ReadsBack cut cut :=
  ⟨rfl, .inl rfl⟩

theorem textOfCuts_of_readsBack {written shown : List Cut}
    (h : Forall₂ ReadsBack written shown) : textOfCuts written = textOfCuts shown := by
  induction h with
  | nil => rfl
  | cons hcut _ ih => rw [textOfCuts_cons, textOfCuts_cons, hcut.text_eq, ih]

theorem allRead_isNumber_of_readsBack {written shown : List Cut}
    (h : Forall₂ ReadsBack written shown) (previous : Option Char) (after : Text) :
    AllRead TokenKind.isNumber previous written after ↔
      AllRead TokenKind.isNumber previous shown after := by
  induction h generalizing previous with
  | nil => exact Iff.rfl
  | @cons cut cut' written shown hcut hrest ih =>
      rw [allRead_cons, allRead_cons, textOfCuts_of_readsBack hrest, hcut.text_eq, ih]
      obtain ⟨kind, text⟩ := cut
      obtain ⟨kind', text'⟩ := cut'
      obtain rfl : text = text' := hcut.text_eq
      rcases hcut.kind_eq with rfl | ⟨rfl, rfl⟩
      · exact Iff.rfl
      · simp [TokenKind.isNumber]

/-- The whitespace that the end of a tag removes depends on one character of the text behind it. -/
theorem tailText_congr {trims : Bool} {after' : Text}
    (h : tailText env chomp trims (tail ++ after) = tail) (hhead : after'.head? = after.head?) :
    tailText env chomp trims (tail ++ after') = tail := by
  have hheads : (tail ++ after').head? = (tail ++ after).head? := by
    rw [head?_append, head?_append, hhead]
  unfold tailText at h ⊢
  cases chomp with
  | strip =>
      obtain ⟨hall, hnext⟩ := Literal.takeWhile_length_append_eq.mp (congrArg length h)
      rw [← hhead] at hnext
      have hstop : after'.takeWhile isBlank = [] := by
        cases after' with
        | nil => rfl
        | cons c after' => simpa using hnext
      dsimp only
      rw [takeWhile_append_of_pos (by simpa using hall), hstop, append_nil]
  | keep => exact h
  | none => rwa [hheads]

/-- What the passes leave of a part of the outline, and what is read there again. -/
structure IsRespaced (env : Environment) (kind : MarkerKind) (cuts : List Cut) (after : Text)
    (written shown : List Cut) : Prop where
  readsBack : List.Forall₂ ReadsBack written shown
  opened : ∀ after' : Text, after'.head? = after.head? → Opened env kind shown after'
  plain : ∀ (previous : Option Char) (after' : Text),
    AllRead TokenKind.isPlain previous shown after'
  steady : SpacesTo written written
  settled : SpacesTo shown shown
  content_eq : contentOf shown = contentOf cuts
  chomp_eq : Chomp.atStart ((textOfCuts shown).drop 2) = Chomp.atStart ((textOfCuts cuts).drop 2)

/-- Both passes go over a part of the outline without touching what is around it. -/
def Respaces (env : Environment) (kind : MarkerKind) (cuts : List Cut) (after : Text) : Prop :=
  ∃ thin shown, SpacesTo cuts thin ∧ IsRespaced env kind cuts after thin shown

theorem copied_someCut {kind : TokenKind} (hkind : kind ∈ copiedKinds) (text : Text) :
    ∀ cut ∈ someCut kind text, cut.1 ∈ copiedKinds := by
  intro cut hcut
  rw [(mem_someCut.mp hcut).2]
  exact hkind

theorem SpacesTag.spacesTo_tail {opening closing : Cut}
    (hopens : (Token.ofCut opening).opensTag)
    (hcloses : (Token.ofCut closing).closesTag) (h : SpacesTag opening closing cuts spaced)
    (tail : Text) :
    SpacesTo (opening :: (cuts ++ closing :: someCut .whitespace tail))
      (opening :: (spaced ++ closing :: someCut .whitespace tail)) := by
  have hcopied := copied_someCut (show .whitespace ∈ copiedKinds by simp [copiedKinds]) tail
  simpa using (h.spacesTo hopens hcloses).append (spacesTo_copied hcopied)

theorem contentOf_someCut_whitespace (text : Text) : contentOf (someCut .whitespace text) = [] := by
  unfold someCut
  split <;> rfl

theorem contentOf_tagCuts (tagEnd : TagEnd) (sign : Chomp) (inside : List Cut) (chomp : Chomp)
    (tail : Text) :
    contentOf (tagCuts tagEnd sign inside chomp tail) =
      (tagEnd.beginKind, tagEnd.opening ++ sign.sign) ::
        (contentOf inside ++ [(tagEnd.kind, chomp.sign ++ tagEnd.closing)]) := by
  have hbegin : tagEnd.beginKind.isContent := by cases tagEnd <;> rfl
  have hend : tagEnd.kind.isContent := by cases tagEnd <;> rfl
  rw [tagCuts, contentOf_cons_of_isContent hbegin, contentOf_append,
    contentOf_cons_of_isContent hend, contentOf_someCut_whitespace]

theorem atStart_of_isSpacedInside (h : IsSpacedInside cuts spaced) (after : Text) :
    Chomp.atStart (textOfCuts spaced ++ after) = .none := by
  obtain ⟨gap, rest, rfl⟩ := exists_cons_of_ne_nil h.ends.ne_nil
  have hgap := (h.inner gap mem_cons_self).isGapCut (h.starts gap rfl)
  rw [textOfCuts_cons, append_assoc]
  exact atStart_blanks_append hgap.ne_nil hgap.all_blank _

theorem IsSpacedInside.isRespaced (hstock : env.IsStock) {tagEnd : TagEnd} (hline : tagEnd ≠ .line)
    {sign : Chomp} {inside thin : List Cut}
    (hsign : sign = .none → Chomp.atStart (textOfCuts inside ++
      (chomp.sign ++ tagEnd.closing ++ (tail ++ after))) = .none)
    (hraw : tagEnd = .block → wordTag? env "raw" (tagEnd.opening ++ sign.sign ++
      (textOfCuts inside ++ (chomp.sign ++ tagEnd.closing ++ (tail ++ after)))) = none)
    (hinside : Inside env tagEnd [] inside (chomp.sign ++ tagEnd.closing ++ (tail ++ after)))
    (htail : tailText env chomp (tagEnd == .block) (tail ++ after) = tail)
    (hinner : ∀ cut ∈ inside, IsInner cut) (hdue : dueAfterCuts [] inside = some [])
    (h : IsSpacedInside inside thin)
    (hsettled : SpacesTo (tagCuts tagEnd sign thin chomp tail) (tagCuts tagEnd sign thin chomp tail)) :
    IsRespaced env tagEnd.marker (tagCuts tagEnd sign inside chomp tail) after
      (tagCuts tagEnd sign thin chomp tail) (tagCuts tagEnd sign thin chomp tail) := by
  have hdueThin : dueAfterCuts [] thin = some [] := by
    rw [dueAfterCuts, h.words_eq]
    exact hdue
  have hthin : ∀ after', Inside env tagEnd [] thin (chomp.sign ++ tagEnd.closing ++ after') :=
    inside_of_chain hstock hline h.inner h.chain h.ends hdueThin chomp
  refine ⟨forall₂_same.mpr fun cut _ => .refl cut, ?_, ?_, hsettled, hsettled, ?_, ?_⟩
  · intro after' hhead
    refine .tag hline (fun _ => atStart_of_isSpacedInside h _) ?_ (hthin _)
      (tailText_congr htail hhead)
    rintro rfl
    by_contra hsome
    have hwords := wordsOf_of_wordTag?_raw hstock h.inner h.chain h.starts h.ends hdueThin sign
      chomp (tail ++ after') hsome
    rw [h.words_eq] at hwords
    exact wordTag?_raw_of_wordsOf hstock hinner hwords sign chomp (tail ++ after) (hraw rfl)
  · intro previous after'
    have hplain : tagEnd.beginKind.isPlain = false ∧ tagEnd.kind.isPlain = false := by
      cases tagEnd <;> exact ⟨rfl, rfl⟩
    refine ⟨by simp [hplain.1], (allRead_append ..).mpr
      ⟨allRead_isPlain_of_chain h.inner h.chain h.ends _ _, by simp [hplain.2], ?_⟩⟩
    refine allRead_of_none (fun cut hcut => ?_) _ _
    rw [(mem_someCut.mp hcut).2]
    rfl
  · rw [contentOf_tagCuts, contentOf_tagCuts, (hthin (tail ++ after)).contentOf_eq,
      hinside.contentOf_eq, h.words_eq]
  · have hdrop : ∀ cuts, (textOfCuts (tagCuts tagEnd sign cuts chomp tail)).drop 2 =
        sign.sign ++ (textOfCuts cuts ++ (chomp.sign ++ tagEnd.closing ++ tail)) := by
      intro cuts
      rcases TagEnd.eq_of_ne_line hline with rfl | rfl <;> simp [tagCuts, TagEnd.opening]
    rw [hdrop, hdrop, Chomp.atStart_sign_append fun _ => atStart_of_isSpacedInside h _,
      Chomp.atStart_sign_append fun hnone => ?_]
    have hhead : (textOfCuts inside ++ (chomp.sign ++ tagEnd.closing ++ tail)).head? =
        (textOfCuts inside ++ (chomp.sign ++ tagEnd.closing ++ (tail ++ after))).head? := by
      rcases TagEnd.eq_of_ne_line hline with rfl | rfl <;>
        simp [TagEnd.closing, head?_append]
    rw [Chomp.atStart, hhead]
    exact hsign hnone

theorem respaces_tag (hstock : env.IsStock) {tagEnd : TagEnd} (hline : tagEnd ≠ .line)
    {sign : Chomp} {inside : List Cut} (hsign : sign = .none → Chomp.atStart (textOfCuts inside ++
      (chomp.sign ++ tagEnd.closing ++ (tail ++ after))) = .none)
    (hraw : tagEnd = .block → wordTag? env "raw" (tagEnd.opening ++ sign.sign ++
      (textOfCuts inside ++ (chomp.sign ++ tagEnd.closing ++ (tail ++ after)))) = none)
    (hinside : Inside env tagEnd [] inside (chomp.sign ++ tagEnd.closing ++ (tail ++ after)))
    (htail : tailText env chomp (tagEnd == .block) (tail ++ after) = tail)
    (hread : AllRead TokenKind.isWord previous (tagCuts tagEnd sign inside chomp tail) after) :
    Respaces env tagEnd.marker (tagCuts tagEnd sign inside chomp tail) after := by
  have hreadInside := ((allRead_append ..).mp ((allRead_cons ..).mp hread).2).1
  rw [textOfCuts_cons, textOfCuts_someCut, append_assoc] at hreadInside
  obtain ⟨hinner, hchain, hdue⟩ := hinside.chain hreadInside
  have hopens : (Token.ofCut (tagEnd.beginKind, tagEnd.opening ++ sign.sign)).opensTag := by
    rcases TagEnd.eq_of_ne_line hline with rfl | rfl <;> rfl
  have hcloses : (Token.ofCut (tagEnd.kind, chomp.sign ++ tagEnd.closing)).closesTag := by
    rcases TagEnd.eq_of_ne_line hline with rfl | rfl <;> rfl
  obtain ⟨thin, hthin, hspaces, hsettled⟩ := exists_settled_tag hopens hcloses hinner hchain
  exact ⟨_, _, hspaces.spacesTo_tail hopens hcloses tail,
    hthin.isRespaced hstock hline hsign hraw hinside htail hinner hdue
      (hsettled.spacesTo_tail hopens hcloses tail)⟩

theorem spacesTo_comment (sign chomp : Chomp) (body tail : Text) :
    SpacesTo (commentCuts sign body chomp tail)
      ((.commentBegin, ['{', '#'] ++ sign.sign) :: ([commentPiece body] ++
        (.commentEnd, chomp.sign ++ ['#', '}']) :: someCut .whitespace tail)) := by
  have hspaces : SpacesTag (.commentBegin, ['{', '#'] ++ sign.sign)
      (.commentEnd, chomp.sign ++ ['#', '}']) (someCut .comment body) [commentPiece body] :=
    ⟨_, fun _ hstate => foldl_push_comment _ _ body hstate, dropBlanks_comment _ _ _⟩
  exact hspaces.spacesTo_tail rfl rfl tail

theorem spacesTo_commentText (sign chomp : Chomp) (body tail : Text) :
    SpacesTo (commentCuts sign (commentText body) chomp tail)
      (commentCuts sign (commentText body) chomp tail) := by
  have hpiece : [commentPiece (commentText body)] = someCut .comment (commentText body) := by
    simp [commentPiece, someCut, commentText_ne_nil, commentText_commentText]
  have hspaces := spacesTo_comment sign chomp (commentText body) tail
  rwa [hpiece] at hspaces

theorem Insertion.foldl_push_blankComment (opening closing : Text) {state : Insertion}
    (hstate : state.IsOutside) :
    (tokensOf ((.commentBegin, opening) :: ([blankCut] ++ [(.commentEnd, closing)]))).foldl push
        state =
      ⟨(tokensOf ((.commentBegin, opening) ::
        ([blankCut] ++ [(.commentEnd, closing)]))).reverse ++ state.written, false, false⟩ := by
  have hbegin := push_begin hstate (show (Token.ofCut (.commentBegin, opening)).opensTag = true from rfl)
  have hblank : (state.push (Token.ofCut (.commentBegin, opening))).push (Token.ofCut blankCut) =
      ⟨Token.ofCut blankCut :: Token.ofCut (.commentBegin, opening) :: state.written, true,
        false⟩ := by
    have hneeds := needsBlank_whitespace (state.push (Token.ofCut (.commentBegin, opening))) [' ']
    rw [hbegin] at hneeds ⊢
    rw [push_of_not_operator (show tidied _ _ = ⟨.whitespace, [' ']⟩ from rfl) (by simp), hneeds]
    rfl
  obtain ⟨gap, ⟨rfl, -⟩ | ⟨-, hgap, -⟩, hend⟩ :=
    push_end (show (Token.ofCut (.commentEnd, closing)).closesTag = true from rfl)
      (show ((state.push (Token.ofCut (.commentBegin, opening))).push
        (Token.ofCut blankCut)).written = Token.ofCut blankCut ::
          Token.ofCut (.commentBegin, opening) :: state.written by rw [hblank])
      (by simp [hblank])
  · simp only [singleton_append, tokensOf_cons, tokensOf_nil, foldl_cons, foldl_nil]
    rw [hend, hblank]
    rfl
  · simp [blankCut] at hgap

theorem spacesTo_commentPiece (sign chomp : Chomp) (body tail : Text) :
    SpacesTo
      ((.commentBegin, ['{', '#'] ++ sign.sign) :: ([commentPiece body] ++
        (.commentEnd, chomp.sign ++ ['#', '}']) :: someCut .whitespace tail))
      ((.commentBegin, ['{', '#'] ++ sign.sign) :: ([commentPiece body] ++
        (.commentEnd, chomp.sign ++ ['#', '}']) :: someCut .whitespace tail)) := by
  by_cases hbody : body = []
  · -- the blank in an empty comment is whitespace for the second run
    have hspaces : SpacesTag (.commentBegin, ['{', '#'] ++ sign.sign)
        (.commentEnd, chomp.sign ++ ['#', '}']) [blankCut] [blankCut] :=
      ⟨_, fun _ hstate => foldl_push_blankComment _ _ hstate, dropBlanks_comment _ _ _⟩
    have hpiece : commentPiece body = blankCut := by rw [hbody]; rfl
    rw [hpiece]
    exact hspaces.spacesTo_tail rfl rfl tail
  · have hpiece : [commentPiece body] = someCut .comment (commentText body) := by
      simp [commentPiece, someCut, commentText_ne_nil, hbody]
    rw [hpiece]
    exact spacesTo_commentText sign chomp body tail

theorem isRespaced_comment {env : Environment} {sign chomp : Chomp} {body tail after : Text}
    (hsign : sign = .none → Chomp.atStart (body ++ (chomp.sign ++ ['#', '}'])) = .none)
    (hbody : position? ['#', '}'] (body ++ chomp.sign) = none)
    (hchomp : Chomp.ofChar? (body ++ chomp.sign).getLast? = chomp)
    (htail : tailText env chomp true (tail ++ after) = tail) :
    IsRespaced env .comment (commentCuts sign body chomp tail) after
      ((.commentBegin, ['{', '#'] ++ sign.sign) :: ([commentPiece body] ++
        (.commentEnd, chomp.sign ++ ['#', '}']) :: someCut .whitespace tail))
      (commentCuts sign (commentText body) chomp tail) := by
  have hsigns : ∀ body, (sign = .none → Chomp.atStart (body ++ (chomp.sign ++ ['#', '}'])) = .none) →
      Chomp.atStart ((textOfCuts (commentCuts sign body chomp tail)).drop 2) = sign := by
    intro body hnot
    have hdrop : (textOfCuts (commentCuts sign body chomp tail)).drop 2 =
        sign.sign ++ (body ++ (chomp.sign ++ ['#', '}'] ++ tail)) := by
      simp [commentCuts]
    rw [hdrop, Chomp.atStart_sign_append fun hnone => ?_]
    have hhead : (body ++ (chomp.sign ++ ['#', '}'] ++ tail)).head? =
        (body ++ (chomp.sign ++ ['#', '}'])).head? := by
      simp [head?_append]
    rw [Chomp.atStart, hhead]
    exact hnot hnone
  have hsignText : sign = .none →
      Chomp.atStart (commentText body ++ (chomp.sign ++ ['#', '}'])) = .none :=
    fun hnone => atStart_commentText (hsign hnone)
  have hsome : someCut .comment (commentText body) = [(.comment, commentText body)] := by
    simp [someCut, commentText_ne_nil]
  have hcontent : ∀ body, contentOf (commentCuts sign body chomp tail) =
      [(.commentBegin, ['{', '#'] ++ sign.sign), (.commentEnd, chomp.sign ++ ['#', '}'])] := by
    intro body
    have hcomment : contentOf (someCut .comment body) = [] := by
      unfold someCut
      split <;> rfl
    rw [commentCuts, contentOf_cons_of_isContent rfl, contentOf_append, hcomment,
      contentOf_cons_of_isContent rfl, contentOf_someCut_whitespace]
    rfl
  refine ⟨?_, ?_, ?_, spacesTo_commentPiece sign chomp body tail,
    spacesTo_commentText sign chomp body tail, ?_, ?_⟩
  · rw [commentCuts, hsome]
    refine .cons (.refl _) (.cons ⟨rfl, ?_⟩ (.cons (.refl _) ?_))
    · by_cases hempty : body = [] <;> simp [commentPiece, hempty]
    · exact forall₂_same.mpr fun cut _ => .refl cut
  · intro after' hhead
    exact .comment hsignText (position?_commentEnd_commentText hbody) (ofChar?_commentText hchomp)
      (tailText_congr htail hhead)
  · intro previous after'
    refine allRead_of_none (fun cut hcut => ?_) previous after'
    have hword := isWord_of_mem_commentCuts cut hcut
    revert hword
    cases cut.1 <;> simp [TokenKind.isWord, TokenKind.isPlain]
  · rw [hcontent, hcontent]
  · rw [hsigns _ hsignText, hsigns _ hsign]

theorem respaces_comment {env : Environment} {sign chomp : Chomp} {body tail after : Text}
    (hsign : sign = .none → Chomp.atStart (body ++ (chomp.sign ++ ['#', '}'])) = .none)
    (hbody : position? ['#', '}'] (body ++ chomp.sign) = none)
    (hchomp : .ofChar? (body ++ chomp.sign).getLast? = chomp)
    (htail : tailText env chomp true (tail ++ after) = tail) :
    Respaces env .comment (commentCuts sign body chomp tail) after :=
  ⟨_, _, spacesTo_comment sign chomp body tail, isRespaced_comment hsign hbody hchomp htail⟩

theorem respaces_raw (hstock : env.IsStock) {opening gap data closing : Text} {first last : Chomp}
    (hopening : WordTag "raw" opening first)
    (hgap : tailText env first true (gap ++ (data ++ (closing ++ (tail ++ after)))) = gap)
    (hclosing : WordTag "endraw" closing last)
    (hdata : endRaw? env (data ++ (closing ++ (tail ++ after))) =
      some (data.length, closing.length, last))
    (htail : tailText env last true (tail ++ after) = tail) :
    Respaces env .block (rawCuts env opening gap data closing tail) after := by
  have hcopied : ∀ cut ∈ rawCuts env opening gap data closing tail, cut.1 ∈ copiedKinds := by
    intro cut hcut
    simp only [rawCuts, leadCuts, mem_cons, mem_append, mem_someCut] at hcut
    rcases hcut with rfl | ⟨-, rfl⟩ | (⟨-, rfl⟩ | ⟨-, rfl⟩) | rfl | ⟨-, rfl⟩ <;> simp [copiedKinds]
  refine ⟨_, _, spacesTo_copied hcopied, forall₂_same.mpr fun cut _ => .refl cut, ?_, ?_,
    spacesTo_copied hcopied, spacesTo_copied hcopied, rfl, rfl⟩
  · intro after' hhead
    refine .raw hopening (tailText_congr hgap ?_) hclosing ?_ (tailText_congr htail hhead)
    · simp [head?_append, hhead]
    · exact endRaw?_append hstock hclosing hdata (tail ++ after')
  · intro previous after'
    refine allRead_of_none (fun cut hcut => ?_) previous after'
    have hword := isWord_of_mem_rawCuts hcut
    revert hword
    cases cut.1 <;> simp [TokenKind.isWord, TokenKind.isPlain]

theorem respaces_of_opened (hstock : env.IsStock) {kind : MarkerKind}
    (h : Opened env kind cuts after) (hread : AllRead TokenKind.isWord previous cuts after) :
    Respaces env kind cuts after := by
  cases h with
  | tag hline hsign hraw hinside htail =>
      exact respaces_tag hstock hline hsign hraw hinside htail hread
  | comment hsign hbody hchomp htail => exact respaces_comment hsign hbody hchomp htail
  | raw hopening hgap hclosing hdata htail =>
      exact respaces_raw hstock hopening hgap hclosing hdata htail

/-! ### The whole outline -/

theorem leadLength_congr (hlstrip : env.lstripBlocks = false) (previous previous' : Option Char)
    (kind : MarkerKind) (chomp : Chomp) (data : Text) :
    leadLength env previous kind chomp data = leadLength env previous' kind chomp data := by
  simp [leadLength, hlstrip]

theorem copied_leadCuts (kept : Nat) (data : Text) :
    ∀ cut ∈ leadCuts kept data, cut.1 ∈ copiedKinds := by
  intro cut hcut
  simp only [leadCuts, mem_append, mem_someCut] at hcut
  rcases hcut with ⟨-, rfl⟩ | ⟨-, rfl⟩ <;> simp [copiedKinds]

/-- What the passes leave of a template, and what is read there again. -/
structure IsRespacedWhole (env : Environment) (cuts written shown : List Cut) : Prop where
  readsBack : List.Forall₂ ReadsBack written shown
  shaped : ∀ previous : Option Char, Shaped env previous shown
  plain : ∀ previous : Option Char, AllRead TokenKind.isPlain previous shown []
  steady : SpacesTo written written
  settled : SpacesTo shown shown
  content_eq : contentOf shown = contentOf cuts
  head_eq : (textOfCuts shown).head? = (textOfCuts cuts).head?

theorem IsRespacedWhole.nil (env : Environment) : IsRespacedWhole env [] [] [] :=
  ⟨.nil, fun _ => .nil, fun _ => trivial, spacesTo_copied (by simp), spacesTo_copied (by simp), rfl,
    rfl⟩

theorem IsRespacedWhole.data (env : Environment) {data : Text} (hsome : data ≠ [])
    (hdata : Marker.first? data = none) :
    IsRespacedWhole env [(.data, data)] [(.data, data)] [(.data, data)] :=
  ⟨.cons (.refl _) .nil, fun _ => .data hsome hdata, fun _ => ⟨by simp [TokenKind.isPlain], trivial⟩,
    spacesTo_copied (by simp [copiedKinds]), spacesTo_copied (by simp [copiedKinds]), rfl, rfl⟩

theorem IsRespacedWhole.opened {env : Environment} (hlstrip : env.lstripBlocks = false)
    {previous : Option Char} {data : Text} {kind : MarkerKind}
    {cuts more written writtenMore shown shownMore : List Cut}
    (hdata : Marker.first? (data ++ ['{']) = none)
    (hopened : Opened env kind cuts (textOfCuts more))
    (hcuts : IsRespaced env kind cuts (textOfCuts more) written shown)
    (hmore : IsRespacedWhole env more writtenMore shownMore) :
    IsRespacedWhole env
      (leadCuts (leadLength env previous kind (Chomp.atStart ((textOfCuts cuts).drop 2)) data) data ++
        (cuts ++ more))
      (leadCuts (leadLength env previous kind (Chomp.atStart ((textOfCuts cuts).drop 2)) data) data ++
        (written ++ writtenMore))
      (leadCuts (leadLength env previous kind (Chomp.atStart ((textOfCuts cuts).drop 2)) data) data ++
        (shown ++ shownMore)) := by
  have hshown := hcuts.opened _ hmore.head_eq
  refine ⟨?_, ?_, ?_, ?_, ?_, ?_, ?_⟩
  · refine rel_append (forall₂_same.mpr fun cut _ => .refl cut) ?_
    exact rel_append hcuts.readsBack hmore.readsBack
  · intro previous'
    rw [leadLength_congr hlstrip previous previous', ← hcuts.chomp_eq]
    exact .opened hdata hshown (hmore.shaped _)
  · intro previous'
    refine (allRead_append ..).mpr ⟨allRead_of_none (fun cut hcut => ?_) _ _, (allRead_append ..).mpr
      ⟨hcuts.plain _ _, hmore.plain _⟩⟩
    have hcopied := copied_leadCuts _ _ cut hcut
    simp only [copiedKinds, mem_cons, not_mem_nil, or_false] at hcopied
    rcases hcopied with hkind | hkind | hkind | hkind <;> rw [hkind] <;> rfl
  · exact (spacesTo_copied (copied_leadCuts _ _)).append (hcuts.steady.append hmore.steady)
  · exact (spacesTo_copied (copied_leadCuts _ _)).append (hcuts.settled.append hmore.settled)
  · rw [contentOf_append, contentOf_append, contentOf_append, contentOf_append, hcuts.content_eq,
      hmore.content_eq]
  · obtain ⟨_, _, _, htext, -⟩ := hopened.exists_cons
    obtain ⟨_, _, _, hshownText, -⟩ := hshown.exists_cons
    simp [htext, hshownText, head?_append]

theorem exists_respaced (hstock : env.IsStock) (hlstrip : env.lstripBlocks = false)
    (h : Shaped env previous cuts) (hread : AllRead TokenKind.isWord previous cuts []) :
    ∃ thin shown, SpacesTo cuts thin ∧ IsRespacedWhole env cuts thin shown := by
  induction h with
  | nil => exact ⟨[], [], spacesTo_copied (by simp), .nil env⟩
  | data hsome hdata =>
      exact ⟨_, _, spacesTo_copied (by simp [copiedKinds]), .data env hsome hdata⟩
  | opened hdata hopened hmore ih =>
      obtain ⟨-, hreadRest⟩ := (allRead_append ..).mp hread
      obtain ⟨hreadCuts, hreadMore⟩ := (allRead_append ..).mp hreadRest
      rw [append_nil] at hreadCuts
      rw [← lastChar_append, textOfCuts_leadCuts] at hreadMore
      obtain ⟨thin, shown, hspaces, hcuts⟩ := respaces_of_opened hstock hopened hreadCuts
      obtain ⟨thinMore, shownMore, hspacesMore, hwhole⟩ := ih hreadMore
      exact ⟨_, _, (spacesTo_copied (copied_leadCuts _ _)).append (hspaces.append hspacesMore),
        .opened hlstrip hdata hopened hcuts hwhole⟩

end JinjaLayout.Spacing
