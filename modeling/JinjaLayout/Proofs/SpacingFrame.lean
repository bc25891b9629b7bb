import Mathlib
import JinjaLayout.Proofs.SpacingFixedPoint

/-!
What the preferred spacing leaves alone. It puts, shortens and drops blanks without a line end, and
only inside tags; a comment on one line is set anew from its words. All other tokens stay, in their
order and with their texts.
-/

namespace JinjaLayout.Spacing

open JinjaLayout.Scan JinjaLayout.Text Insertion List

def Token.staysInside (inside : Bool) (token : Token) : Bool :=
  token.opensTag || (inside && !token.closesTag)

def isInside (inside : Bool) (tokens : List Token) : Bool :=
  tokens.foldl Token.staysInside inside

/-- A comment on one line without its blanks; any other token is itself. -/
def Token.bare (token : Token) : Token :=
  if token.kind = .comment && !token.text.contains '\n' then
    { token with text := token.text.filter fun c => !isBlank c }
  else token

/-- The tokens without the blanks that stand inside tags and comments, as far as these are on one
line. -/
def unspaced : Bool → List Token → List Token
  | _, [] => []
  | inside, token :: tokens =>
      if inside && token.isLineBlank then unspaced inside tokens
      else token.bare :: unspaced (token.staysInside inside) tokens

/-- Operators and the ends of tags stand inside tags, and whitespace there is made of blanks. -/
def InPlace : Bool → List Token → Prop
  | _, [] => True
  | inside, token :: tokens =>
      (token.closesTag ∨ token.kind = .operator → inside = true) ∧
        (inside → token.kind = .whitespace → token.text.all isBlank = true) ∧
        InPlace (token.staysInside inside) tokens

theorem isInside_cons (inside : Bool) (token : Token) (tokens : List Token) :
    isInside inside (token :: tokens) = isInside (token.staysInside inside) tokens := rfl

theorem isInside_append (inside : Bool) (first second : List Token) :
    isInside inside (first ++ second) = isInside (isInside inside first) second :=
  foldl_append

theorem inPlace_append (inside : Bool) (first second : List Token) :
    InPlace inside (first ++ second) ↔
      InPlace inside first ∧ InPlace (isInside inside first) second := by
  induction first generalizing inside with
  | nil => simp [InPlace, isInside]
  | cons token first ih =>
      simp only [cons_append, InPlace, ih, and_assoc]
      rfl

variable {token : Token} {tokens : List Token} {cuts : List Cut}

theorem Token.staysInside_of_isLineBlank (h : token.isLineBlank) (inside : Bool) :
    token.staysInside inside = inside := by
  obtain ⟨kind, text⟩ := token
  revert h
  cases kind <;> simp [isLineBlank, staysInside, opensTag, closesTag]

theorem unspaced_append (inside : Bool) (first second : List Token) :
    unspaced inside (first ++ second) =
      unspaced inside first ++ unspaced (isInside inside first) second := by
  induction first generalizing inside with
  | nil => rfl
  | cons token first ih =>
      rw [cons_append, unspaced, unspaced, ih, ih]
      rw [isInside_cons]
      split
      · rename_i hblank
        rw [Bool.and_eq_true] at hblank
        rw [token.staysInside_of_isLineBlank hblank.2]
      · rfl

theorem unspaced_blank (h : token.isLineBlank) :
    unspaced true [token] = [] := by
  simp [unspaced, h]

/-! ### Comments -/

theorem flatten_words_go (front text : Text) :
    (words.go front text).flatten = front.reverse ++ text.filter fun c => !isBlank c := by
  induction text generalizing front with
  | nil =>
      simp only [words.go]
      split <;> simp_all
  | cons c text ih =>
      simp only [words.go]
      by_cases hblank : isBlank c = true
      · rw [if_pos hblank]
        split <;> simp_all
      · rw [if_neg hblank, ih]
        simp [hblank]

theorem flatten_words (text : Text) : (words text).flatten = text.filter fun c => !isBlank c :=
  flatten_words_go [] text

theorem filter_paddedComment (text : Text) :
    (paddedComment text).filter (fun c => !isBlank c) = text.filter fun c => !isBlank c := by
  rw [← flatten_words, words_paddedComment, flatten_words]

theorem newline_not_mem_paddedComment {text : Text} (h : '\n' ∉ text) :
    '\n' ∉ paddedComment text := by
  intro hmem
  rcases mem_paddedComment hmem with hblank | hmem
  · exact absurd hblank (by decide)
  · exact h hmem

/-! ### Adding blanks -/

theorem Token.not_isLineBlank (h : token.kind ≠ .whitespace) :
    token.isLineBlank = false := by
  simp [isLineBlank, h]

namespace Insertion

theorem kind_tidied (state : Insertion) (token : Token) :
    (state.tidied token).kind = token.kind := by
  unfold tidied
  split
  · rfl
  · split <;> rfl

theorem staysInside_tidied (state : Insertion) (token : Token) (inside : Bool) :
    (state.tidied token).staysInside inside = token.staysInside inside := by
  simp only [Token.staysInside, Token.opensTag, Token.closesTag, kind_tidied]

variable {state : Insertion} {token : Token} {tokens : List Token}

theorem tidied_of_isLineBlank (hinside : state.inside) (hline : token.isLineBlank) :
    state.tidied token = Token.blank := by
  have hkind : token.kind = .whitespace := by
    simp only [Token.isLineBlank, Bool.and_eq_true, beq_iff_eq] at hline
    exact hline.1
  simp [tidied, hinside, hline, Token.blank, hkind]

theorem unspaced_tidied (state : Insertion) (token : Token) :
    unspaced state.inside [state.tidied token] = unspaced state.inside [token] := by
  by_cases hblank : (state.inside && token.isLineBlank) = true
  · obtain ⟨hinside, hline⟩ := Bool.and_eq_true_iff.mp hblank
    rw [tidied_of_isLineBlank hinside hline, hinside, unspaced_blank hline, unspaced_blank rfl]
  · unfold tidied
    rw [if_neg hblank]
    split
    · rename_i hcomment
      obtain ⟨hkind, hline⟩ : token.kind = .comment ∧ '\n' ∉ token.text := by simpa using hcomment
      have hbare : ({ token with text := paddedComment token.text } : Token).bare = token.bare := by
        simp [Token.bare, hkind, hline, newline_not_mem_paddedComment hline, filter_paddedComment]
      have hnot : ∀ text, ({ token with text := text } : Token).isLineBlank = false :=
        fun text => Token.not_isLineBlank (by simp [hkind])
      simp [unspaced, hbare, hnot]
    · rfl

/-- What writing a token does: at most one blank comes before it, and only where the token or the
place asks for one. -/
theorem exists_push (state : Insertion) (token : Token) :
    ∃ gap, (state.push token).written = state.tidied token :: (gap ++ state.written) ∧
      (gap = [] ∨ gap = [Token.blank] ∧
        (state.needsBlank (state.tidied token) ∨ token.kind = .operator)) ∧
      (state.push token).inside = token.staysInside state.inside ∧
      ((state.push token).blankDue → token.kind = .operator) := by
  have hinside : (if (state.tidied token).opensTag then true
      else if (state.tidied token).closesTag then false else state.inside) =
      token.staysInside state.inside := by
    rw [← staysInside_tidied state]
    unfold Token.staysInside
    cases (state.tidied token).opensTag <;> cases (state.tidied token).closesTag <;> simp
  have hput : ∃ gap, (if state.needsBlank (state.tidied token) then Token.blank :: state.written
      else state.written) = gap ++ state.written ∧
      (gap = [] ∨ gap = [Token.blank] ∧ state.needsBlank (state.tidied token) = true) := by
    split
    · rename_i hneeds
      exact ⟨[Token.blank], rfl, .inr ⟨rfl, hneeds⟩⟩
    · exact ⟨[], rfl, .inl rfl⟩
  obtain ⟨gap, hgap, hreason⟩ := hput
  have hreason' : gap = [] ∨ gap = [Token.blank] ∧
      (state.needsBlank (state.tidied token) ∨ token.kind = .operator) :=
    hreason.imp_right fun h => ⟨h.1, .inl h.2⟩
  unfold push
  dsimp only
  rw [hgap, hinside, kind_tidied]
  split
  · rename_i hoperator
    split
    · unfold blankBefore
      split
      · exact ⟨gap, rfl, hreason', rfl, fun _ => hoperator⟩
      · rename_i hhead
        -- a blank was put already, or nothing was
        rcases hreason with rfl | ⟨rfl, -⟩
        · exact ⟨[Token.blank], rfl, .inr ⟨rfl, .inr hoperator⟩, rfl, fun _ => hoperator⟩
        · simp [Token.blank] at hhead
    · exact ⟨gap, rfl, hreason', rfl, fun _ => hoperator⟩
  · exact ⟨gap, rfl, hreason', rfl, by simp⟩

/-- What was written has the tokens of what was read, and the state knows whether the place is
inside a tag. -/
structure Keeps (state : Insertion) (tokens : List Token) : Prop where
  unspaced_eq : unspaced false state.written.reverse = unspaced false tokens
  inPlace : InPlace false state.written.reverse
  inside_eq : state.inside = isInside false tokens
  written_eq : isInside false state.written.reverse = isInside false tokens
  blankDue : state.blankDue → state.inside = true

theorem Keeps.inside_of_needsBlank (h : state.Keeps tokens)
    (htoken : token.closesTag → state.inside = true) (hneeds : state.needsBlank token) :
    state.inside := by
  simp only [needsBlank, Bool.or_eq_true, Bool.and_eq_true] at hneeds
  rcases hneeds with (⟨hopens, -⟩ | ⟨hcloses, -⟩) | ⟨⟨hdue, -⟩, -⟩
  · -- the tag begins right here
    rw [h.inside_eq, ← h.written_eq]
    cases hwritten : state.written with
    | nil => simp [hwritten] at hopens
    | cons previous before =>
        rw [hwritten] at hopens
        rw [reverse_cons, isInside_append]
        have hprevious : previous.opensTag := by simpa using hopens
        simp [isInside, Token.staysInside, hprevious]
  · exact htoken hcloses
  · exact h.blankDue hdue

theorem Keeps.push (h : state.Keeps tokens) (htoken : InPlace state.inside [token]) :
    (state.push token).Keeps (tokens ++ [token]) := by
  obtain ⟨hinside, hblank, -⟩ := htoken
  obtain ⟨gap, hwritten, hgap, hstays, hdue⟩ := state.exists_push token
  have hclosesTidied : (state.tidied token).closesTag = token.closesTag := by
    simp only [Token.closesTag, kind_tidied]
  -- blanks are put inside tags only
  have hput : gap = [] ∨ gap = [Token.blank] ∧ state.inside := by
    refine hgap.imp_right fun hblank => ⟨hblank.1, ?_⟩
    rcases hblank.2 with hneeds | hoperator
    · refine h.inside_of_needsBlank (fun hcloses => hinside (.inl ?_)) hneeds
      rwa [hclosesTidied] at hcloses
    · exact hinside (.inr hoperator)
  have hgapFacts : unspaced state.inside gap = [] ∧ isInside state.inside gap = state.inside ∧
      InPlace state.inside gap := by
    rcases hput with rfl | ⟨rfl, hput⟩
    · exact ⟨rfl, rfl, trivial⟩
    · rw [hput]
      exact ⟨rfl, rfl, by simp [InPlace, Token.blank, Token.closesTag]; decide⟩
  have hreverse : (state.push token).written.reverse =
      state.written.reverse ++ (gap ++ [state.tidied token]) := by
    rcases hput with rfl | ⟨rfl, -⟩ <;> simp [hwritten]
  have hbefore : isInside false state.written.reverse = state.inside :=
    h.written_eq.trans h.inside_eq.symm
  have hplace : InPlace state.inside [state.tidied token] := by
    refine ⟨?_, ?_, trivial⟩
    · rw [hclosesTidied, kind_tidied]
      exact hinside
    · intro hin hkind
      rw [kind_tidied] at hkind
      by_cases hline : token.isLineBlank = true
      · rw [tidied_of_isLineBlank hin hline]
        decide
      · have htidied : state.tidied token = token := by
          simp [tidied, hline, hkind]
        rw [htidied]
        exact hblank hin hkind
  refine ⟨?_, ?_, ?_, ?_, ?_⟩
  · rw [hreverse, unspaced_append, unspaced_append, unspaced_append, hbefore, hgapFacts.1,
      hgapFacts.2.1, unspaced_tidied, h.unspaced_eq, ← h.inside_eq]
    rfl
  · rw [hreverse, inPlace_append, inPlace_append, hbefore, hgapFacts.2.1]
    exact ⟨h.inPlace, hgapFacts.2.2, hplace⟩
  · rw [hstays, isInside_append, ← h.inside_eq]
    rfl
  · rw [hreverse, isInside_append, isInside_append, isInside_append, hbefore, hgapFacts.2.1,
      ← h.inside_eq]
    exact staysInside_tidied state token state.inside
  · intro hblankDue
    have hoperator := hdue hblankDue
    rw [hstays, hinside (.inr hoperator)]
    simp [Token.staysInside, Token.closesTag, hoperator]

theorem Keeps.foldl_push {before : List Token} (h : state.Keeps before)
    (htokens : InPlace state.inside tokens) :
    (tokens.foldl Insertion.push state).Keeps (before ++ tokens) := by
  induction tokens generalizing state before with
  | nil => simpa using h
  | cons token tokens ih =>
      obtain ⟨hinside, hblank, hrest⟩ := htokens
      have hnext := h.push ⟨hinside, hblank, trivial⟩
      obtain ⟨-, -, -, hstays, -⟩ := state.exists_push token
      rw [append_cons]
      exact ih hnext (by rwa [hstays])

end Insertion

theorem unspaced_withBlanks (h : InPlace false tokens) :
    unspaced false (withBlanks tokens) = unspaced false tokens ∧
      InPlace false (withBlanks tokens) := by
  have hstart : ({} : Insertion).Keeps [] := ⟨rfl, trivial, rfl, rfl, by simp⟩
  have hkeeps := hstart.foldl_push h
  exact ⟨hkeeps.unspaced_eq, hkeeps.inPlace⟩

/-! ### Dropping blanks -/

theorem isInside_of_isDropped {kept : List Token}
    (h : InPlace false (kept.reverse ++ token :: tokens))
    (hdropped : isDropped kept token tokens) :
    isInside false kept.reverse ∧ token.isLineBlank := by
  unfold isDropped at hdropped
  split at hdropped
  · rename_i previous before following tokens
    rw [Bool.and_eq_true] at hdropped
    obtain ⟨hline, hunwanted⟩ := hdropped
    refine ⟨?_, hline⟩
    obtain ⟨hkept, -, -, hfollowing, -⟩ := (inPlace_append ..).mp h
    rw [token.staysInside_of_isLineBlank hline] at hfollowing
    by_cases hoperator : following.kind = .operator
    · exact hfollowing (.inr hoperator)
    · have hprevious : previous.kind = .operator := by
        unfold isUnwanted at hunwanted
        by_contra hother
        simp [hoperator, hother] at hunwanted
      rw [reverse_cons, inPlace_append] at hkept
      have hbefore := hkept.2.1 (.inr hprevious)
      rw [reverse_cons, isInside_append, hbefore]
      simp [isInside, Token.staysInside, Token.closesTag, hprevious]
  · simp at hdropped

theorem unspaced_dropBlanks {kept : List Token} (h : InPlace false (kept.reverse ++ tokens)) :
    unspaced false (dropBlanks kept tokens) = unspaced false (kept.reverse ++ tokens) ∧
      InPlace false (dropBlanks kept tokens) := by
  induction tokens generalizing kept with
  | nil =>
      rw [append_nil] at h ⊢
      exact ⟨rfl, h⟩
  | cons token tokens ih =>
      by_cases hdropped : isDropped kept token tokens = true
      · obtain ⟨hinside, hline⟩ := isInside_of_isDropped h hdropped
        obtain ⟨hkept, -, -, htokens⟩ := (inPlace_append ..).mp h
        rw [token.staysInside_of_isLineBlank hline] at htokens
        rw [dropBlanks_drop hdropped]
        obtain ⟨heq, hplace⟩ := ih ((inPlace_append ..).mpr ⟨hkept, htokens⟩)
        refine ⟨?_, hplace⟩
        rw [heq, unspaced_append, unspaced_append, hinside, unspaced.eq_def true (token :: tokens)]
        simp [hline]
      · rw [dropBlanks_keep (by simpa using hdropped)]
        have hsame : (token :: kept).reverse ++ tokens = kept.reverse ++ token :: tokens := by simp
        rw [← hsame] at h ⊢
        exact ih h

theorem unspaced_respaced (h : InPlace false tokens) :
    unspaced false (respaced tokens) = unspaced false tokens ∧ InPlace false (respaced tokens) := by
  obtain ⟨hfirst, hplace⟩ := unspaced_withBlanks h
  obtain ⟨hsecond, hrespaced⟩ := @unspaced_dropBlanks _ [] hplace
  exact ⟨hsecond.trans hfirst, hrespaced⟩

/-! ### The characters -/

/-- Whether a character is a line end or no blank. -/
def isLasting (c : Char) : Bool :=
  c == '\n' || !isBlank c

theorem filter_isLasting_of_not_mem {text : Text} (h : '\n' ∉ text) :
    text.filter isLasting = text.filter fun c => !isBlank c := by
  apply filter_congr
  intro c hc
  have hne : c ≠ '\n' := fun heq => h (heq ▸ hc)
  simp [isLasting, hne]

theorem filter_bare (token : Token) :
    token.bare.text.filter isLasting = token.text.filter isLasting := by
  unfold Token.bare
  split
  · rename_i hcomment
    obtain ⟨-, hline⟩ : token.kind = .comment ∧ '\n' ∉ token.text := by simpa using hcomment
    rw [filter_isLasting_of_not_mem hline, filter_filter]
    apply filter_congr
    intro c _
    cases hblank : isBlank c <;> simp [isLasting, hblank]
  · rfl

theorem filter_unspaced {inside : Bool} (h : InPlace inside tokens) :
    ((unspaced inside tokens).flatMap Token.text).filter isLasting =
      (tokens.flatMap Token.text).filter isLasting := by
  induction tokens generalizing inside with
  | nil => rfl
  | cons token tokens ih =>
      obtain ⟨-, hblank, hrest⟩ := h
      rw [flatMap_cons, filter_append, unspaced]
      split
      · rename_i hgap
        obtain ⟨rfl, hline⟩ := Bool.and_eq_true_iff.mp hgap
        rw [token.staysInside_of_isLineBlank hline] at hrest
        obtain ⟨hkind, hmem⟩ : token.kind = .whitespace ∧ '\n' ∉ token.text := by
          simpa [Token.isLineBlank] using hline
        have hnone : token.text.filter isLasting = [] := by
          rw [filter_isLasting_of_not_mem hmem, filter_eq_nil_iff]
          intro c hc
          simp [all_eq_true.mp (hblank rfl hkind) c hc]
        rw [hnone, nil_append, ih hrest]
      · rw [flatMap_cons, filter_append, filter_bare, ih hrest]

theorem filter_normalizeNewlines (text : Text) :
    (normalizeNewlines text).filter (fun c => !isBlank c) = text.filter fun c => !isBlank c := by
  have hreturn : isBlank '\r' := by decide
  have hline : isBlank '\n' := by decide
  fun_induction normalizeNewlines text with
  | case1 => rfl
  | case2 rest ih => simpa [hreturn, hline] using ih
  | case3 c rest _ ih =>
      rw [filter_cons, filter_cons, ih]
      split
      · rename_i hc
        simp [hc, hreturn, hline]
      · rfl

theorem filter_filter_isLasting (text : Text) :
    (text.filter isLasting).filter (fun c => !isBlank c) = text.filter fun c => !isBlank c := by
  rw [filter_filter]
  apply filter_congr
  intro c _
  cases hblank : isBlank c <;> simp [isLasting, hblank]

/-! ### Scanned texts -/

theorem inPlace_copied (hcopied : ∀ cut ∈ cuts, cut.1 ∈ copiedKinds) :
    InPlace false (tokensOf cuts) ∧ isInside false (tokensOf cuts) = false := by
  induction cuts with
  | nil => exact ⟨trivial, rfl⟩
  | cons cut cuts ih =>
      obtain ⟨hplace, hinside⟩ :=
        ih fun other hother => hcopied other (mem_cons_of_mem _ hother)
      have hcut := hcopied cut mem_cons_self
      obtain ⟨kind, text⟩ := cut
      simp only [copiedKinds, mem_cons, not_mem_nil, or_false] at hcut
      rcases hcut with rfl | rfl | rfl | rfl <;>
        exact ⟨⟨by simp [Token.ofCut, Token.closesTag], by simp, hplace⟩, hinside⟩

theorem inPlace_inner (hinner : ∀ cut ∈ cuts, IsInner cut) :
    InPlace true (tokensOf cuts) ∧ isInside true (tokensOf cuts) := by
  induction cuts with
  | nil => exact ⟨trivial, rfl⟩
  | cons cut cuts ih =>
      obtain ⟨hplace, hinside⟩ :=
        ih fun other hother => hinner other (mem_cons_of_mem _ hother)
      have hcut := hinner cut mem_cons_self
      have hstays : (Token.ofCut cut).staysInside true := by
        by_cases hkind : cut.1 = .whitespace
        · simp [Token.staysInside, Token.ofCut, Token.closesTag, hkind]
        · simp [Token.staysInside, opensTag_word (hcut.isToken hkind).isWord]
      refine ⟨⟨fun _ => rfl, fun _ hkind => (hcut.isGapCut hkind).all_blank, ?_⟩, ?_⟩
      · rwa [hstays]
      · rw [tokensOf_cons, isInside_cons, hstays]
        exact hinside

theorem inPlace_tag {opening closing : Cut} (hopens : (Token.ofCut opening).opensTag)
    (hcloses : (Token.ofCut closing).closesTag)
    (hcuts : InPlace true (tokensOf cuts) ∧ isInside true (tokensOf cuts) = true) (tail : Text) :
    InPlace false (tokensOf (opening :: (cuts ++ closing :: someCut .whitespace tail))) ∧
      isInside false (tokensOf (opening :: (cuts ++ closing :: someCut .whitespace tail))) =
        false := by
  have hopening : (Token.ofCut opening).closesTag = false ∧
      (Token.ofCut opening).kind ≠ .operator := by
    obtain ⟨kind, text⟩ := opening
    revert hopens
    cases kind <;> simp [Token.ofCut, Token.opensTag, Token.closesTag]
  have hclosing : (Token.ofCut closing).opensTag = false ∧
      (Token.ofCut closing).kind ≠ .whitespace := by
    obtain ⟨kind, text⟩ := closing
    revert hcloses
    cases kind <;> simp [Token.ofCut, Token.opensTag, Token.closesTag]
  have henters : (Token.ofCut opening).staysInside false := by
    simp [Token.staysInside, hopens]
  have hleaves : (Token.ofCut closing).staysInside true = false := by
    simp [Token.staysInside, hclosing.1, hcloses]
  have hkind : TokenKind.whitespace ∈ copiedKinds := by simp [copiedKinds]
  obtain ⟨htail, hout⟩ := inPlace_copied (copied_someCut hkind tail)
  rw [tokensOf_cons, tokensOf_append, tokensOf_cons]
  constructor
  · refine ⟨by simp [hopening], by simp, ?_⟩
    rw [henters, inPlace_append, hcuts.2]
    refine ⟨hcuts.1, fun _ => rfl, fun _ hkind => absurd hkind hclosing.2, ?_⟩
    rwa [hleaves]
  · rw [isInside_cons, henters, isInside_append, hcuts.2, isInside_cons, hleaves]
    exact hout

theorem inPlace_opened {env : Environment} {kind : MarkerKind} {after : Text}
    (h : Opened env kind cuts after) {previous : Option Char}
    (hread : AllRead TokenKind.isWord previous cuts after) :
    InPlace false (tokensOf cuts) ∧ isInside false (tokensOf cuts) = false := by
  cases h with
  | @tag tagEnd sign chomp inside tail after hline hsign hraw hinside htail =>
      have hinner : ∀ cut ∈ inside, IsInner cut := by
        have hreadInside := ((allRead_append ..).mp ((allRead_cons ..).mp hread).2).1
        rw [textOfCuts_cons, textOfCuts_someCut, append_assoc] at hreadInside
        exact (hinside.chain hreadInside).1
      refine inPlace_tag ?_ ?_ (inPlace_inner hinner) tail
      · rcases TagEnd.eq_of_ne_line hline with rfl | rfl <;> rfl
      · rcases TagEnd.eq_of_ne_line hline with rfl | rfl <;> rfl
  | @comment sign chomp body tail after hsign hbody hchomp htail =>
      refine inPlace_tag rfl rfl ?_ tail
      unfold someCut
      split
      · exact ⟨trivial, rfl⟩
      · exact ⟨⟨fun _ => rfl, by simp [Token.ofCut], trivial⟩, rfl⟩
  | @raw opening gap data closing tail after first last hopening hgap hclosing hdata htail =>
      apply inPlace_copied
      intro cut hcut
      simp only [rawCuts, leadCuts, mem_cons, mem_append, mem_someCut] at hcut
      rcases hcut with rfl | ⟨-, rfl⟩ | (⟨-, rfl⟩ | ⟨-, rfl⟩) | rfl | ⟨-, rfl⟩ <;>
        simp [copiedKinds]

theorem inPlace_shaped {env : Environment} {previous : Option Char} (h : Shaped env previous cuts)
    (hread : AllRead TokenKind.isWord previous cuts []) :
    InPlace false (tokensOf cuts) := by
  induction h with
  | nil => trivial
  | data => exact ⟨by simp [Token.ofCut, Token.closesTag], by simp, trivial⟩
  | @opened previous data kind cuts more hdata hopened hmore ih =>
      obtain ⟨-, hread⟩ := (allRead_append ..).mp hread
      obtain ⟨hcuts, hrest⟩ := (allRead_append ..).mp hread
      rw [append_nil] at hcuts
      rw [← lastChar_append, textOfCuts_leadCuts] at hrest
      obtain ⟨hlead, hleadOut⟩ := inPlace_copied (copied_leadCuts _ _)
      obtain ⟨hplace, hout⟩ := inPlace_opened hopened hcuts
      rw [tokensOf_append, tokensOf_append, inPlace_append, inPlace_append, hleadOut, hout]
      exact ⟨hlead, hplace, ih hrest⟩

/-- The preferred spacing changes blanks inside tags only. Outside of tags every character stays,
inside of them every token, and each line end stays at its place among the other characters. -/
theorem reformatted_keeps {text : Text} {pieces : List Piece}
    (hscan : scan .spacingCheck (normalizeNewlines text) = .ok pieces) :
    (check text).reformatted.filter (fun c => !isBlank c) = text.filter (fun c => !isBlank c) ∧
      (check text).reformatted.filter (fun c => c == '\n' || !isBlank c) =
        (normalizeNewlines text).filter (fun c => c == '\n' || !isBlank c) ∧
      (check text).reformatted = (respaced (pieces.map Token.ofPiece)).flatMap Token.text ∧
      unspaced false (respaced (pieces.map Token.ofPiece)) =
        unspaced false (pieces.map Token.ofPiece) := by
  obtain ⟨htext, hshaped, hread⟩ := (scan_eq_ok_iff isStock_spacingCheck).mp ⟨pieces, hscan, rfl⟩
  have hplace := inPlace_shaped hshaped hread
  rw [← map_ofPiece] at hplace
  obtain ⟨hsame, hrespaced⟩ := unspaced_respaced hplace
  have hreformatted : (check text).reformatted =
      (respaced (pieces.map Token.ofPiece)).flatMap Token.text := by
    simp [check, hscan, Report.reformatted]
  have hlasting : (check text).reformatted.filter isLasting =
      (normalizeNewlines text).filter isLasting := by
    have hsource : (pieces.map Token.ofPiece).flatMap Token.text = normalizeNewlines text := by
      rw [map_ofPiece, flatMap_text_tokensOf]
      exact htext
    rw [hreformatted, ← filter_unspaced hrespaced, hsame, filter_unspaced hplace, hsource]
  refine ⟨?_, hlasting, hreformatted, hsame⟩
  rw [← filter_filter_isLasting, hlasting, filter_filter_isLasting, filter_normalizeNewlines]

/-- Data, raw blocks and strings keep their blanks; tags and comments do not. -/
theorem reformatted_keeps_of_raw :
    ∃ text pieces,
      text = ("a {%-set x=[1,2 ]-%} {#b  c#}{% raw -%} {{x  }} {% endraw %}" ++
        "\x7b\x7b'a  b'~\r\nx\x7d\x7d").toList ∧
      (check text).reformatted =
        ("a {%- set x = [1, 2] -%} {# b c #}{% raw -%} {{x  }} {% endraw %}" ++
          "\x7b\x7b 'a  b' ~\nx \x7d\x7d").toList ∧
      scan .spacingCheck (normalizeNewlines text) = .ok pieces ∧
      unspaced false (respaced (pieces.map Token.ofPiece)) =
        unspaced false (pieces.map Token.ofPiece) := by
  obtain ⟨pieces, hscan⟩ : ∃ pieces, scan .spacingCheck (normalizeNewlines
      ("a {%-set x=[1,2 ]-%} {#b  c#}{% raw -%} {{x  }} {% endraw %}" ++
        "\x7b\x7b'a  b'~\r\nx\x7d\x7d").toList) = .ok pieces := ⟨_, rfl⟩
  exact ⟨_, pieces, rfl, by decide +kernel, hscan, (reformatted_keeps hscan).2.2.2⟩

end JinjaLayout.Spacing
