import Mathlib
import JinjaLayout.Proofs.Outline

/-!
Pieces in a row. Whether names, strings and operators are found at their places can be seen from
each piece and the first character of the next one; numbers are the exception. So pieces that fit
together in this sense, with whitespace at the end, lie inside a tag.
-/

namespace JinjaLayout

open List

/-- Whether the category is a token of expressions that is no number. -/
def TokenKind.isPlain : TokenKind → Bool
  | name | operator | string => true
  | _ => false

def TokenKind.isNumber : TokenKind → Bool
  | integer | float => true
  | _ => false

namespace Scan

open JinjaLayout.Text JinjaLayout.Literal

/-- The scanner finds the piece at some place inside a tag. -/
def IsToken (cut : Cut) : Prop :=
  ∃ previous after, ReadsAs previous cut after

structure IsGapCut (cut : Cut) : Prop where
  kind_eq : cut.1 = .whitespace
  ne_nil : cut.2 ≠ []
  all_blank : cut.2.all isBlank

/-- The next character does not belong to the piece. -/
def Fits (cut : Cut) (next : Option Char) : Prop :=
  match cut.1 with
  | .name => next.any continuesName = false
  | .operator => ∀ c ∈ next, cut.2 ++ [c] ∉ longOperators
  | _ => True

/-- Two pieces can stand side by side. -/
structure Joins (first second : Cut) : Prop where
  blanks : first.1 = .whitespace → second.1 ≠ .whitespace
  fits : Fits first second.2.head?

variable {cut : Cut} {after due : Text} {env : Environment} {tagEnd : TagEnd} {cuts : List Cut}

theorem fits_of_readsAs {previous : Option Char} (h : ReadsAs previous cut after) :
    Fits cut after.head? := by
  obtain ⟨kind, text⟩ := cut
  unfold Fits
  split
  · rename_i heq
    obtain rfl : kind = .name := heq
    exact (readsAs_name_iff.mp h).2
  · rename_i heq
    obtain rfl : kind = .operator := heq
    intro c hc hmem
    obtain ⟨more, rfl⟩ : ∃ more, after = c :: more := by
      cases after with
      | nil => simp at hc
      | cons d more => exact ⟨more, by simpa using hc⟩
    rcases readsAs_operator_iff.mp h with hlong | ⟨d, -, rfl, hnone⟩
    · obtain ⟨_, _, rfl, -⟩ := starts_of_mem_longOperators hlong
      obtain ⟨_, _, hlength, -⟩ := starts_of_mem_longOperators hmem
      simp at hlength
    · exact hnone _ hmem ⟨more, rfl⟩
  · trivial

theorem readsAs_of_fits (htoken : IsToken cut) (hplain : cut.1.isPlain)
    (hfits : Fits cut after.head?) (previous : Option Char) : ReadsAs previous cut after := by
  obtain ⟨kind, text⟩ := cut
  obtain ⟨_, _, hread⟩ := htoken
  cases kind with
  | name => exact readsAs_name_iff.mpr ⟨(readsAs_name_iff.mp hread).1, hfits⟩
  | string => exact readsAs_string_iff.mpr (readsAs_string_iff.mp hread)
  | operator =>
      refine readsAs_operator_iff.mpr ?_
      rcases readsAs_operator_iff.mp hread with hlong | ⟨c, hc, rfl, -⟩
      · exact .inl hlong
      · refine .inr ⟨c, hc, rfl, ?_⟩
        rintro operator hmem ⟨rest, hrest⟩
        obtain ⟨_, d, rfl, -⟩ := starts_of_mem_longOperators hmem
        obtain ⟨rfl, rfl⟩ := cons.inj hrest
        exact hfits d rfl hmem
  | _ => simp [TokenKind.isPlain] at hplain

theorem IsToken.exists_cons (h : IsToken cut) :
    ∃ c more, cut.2 = c :: more ∧ (cut.1.isNumber ∧ c.isDigit ∨ cut.1 = .name ∧ startsName c ∨
      cut.1 = .string ∧ (c = '\'' ∨ c = '"') ∨ cut.1 = .operator ∧ c ∈ '!' :: shortOperators) := by
  obtain ⟨previous, after, hread⟩ := h
  obtain ⟨hpos, -⟩ := anyToken?_bounds hread
  obtain ⟨kind, text⟩ := cut
  obtain ⟨c, more, rfl⟩ := exists_cons_of_ne_nil (length_pos_iff.mp hpos)
  refine ⟨c, more, rfl, ?_⟩
  rw [ReadsAs, anyToken?_eq_some_iff] at hread
  obtain hnumber | ⟨-, ⟨rfl, hname⟩ | ⟨-, ⟨rfl, hstring⟩ | ⟨-, rfl, hoperator⟩⟩⟩ := hread
  · obtain ⟨hkind, d, _, hcons, hdigit⟩ := number?_eq_some hnumber
    obtain ⟨rfl, -⟩ := cons.inj hcons
    refine .inl ⟨?_, hdigit⟩
    rcases hkind with rfl | rfl <;> rfl
  · refine .inr (.inl ⟨rfl, ?_⟩)
    by_contra hstarts
    simp [nameLength?, hstarts] at hname
  · refine .inr (.inr (.inl ⟨rfl, ?_⟩))
    by_contra hquote
    simp [stringLength?, hquote] at hstring
  · refine .inr (.inr (.inr ⟨rfl, ?_⟩))
    rcases hoperator with ⟨operator, hmem, ⟨rest, hrest⟩, -⟩ | ⟨-, ⟨d, _, hcons, hshort⟩, -⟩
    · obtain ⟨d, _, rfl, hd, -⟩ := starts_of_mem_longOperators hmem
      obtain ⟨rfl, -⟩ := cons.inj hrest
      exact hd
    · obtain ⟨rfl, -⟩ := cons.inj hcons
      exact mem_cons_of_mem _ hshort

theorem isBlank_of_isDigit {c : Char} (h : c.isDigit) : isBlank c = false := by
  by_contra hblank
  have hcode := mem_blankCodes (by simpa using hblank)
  simp only [blankCodes, mem_cons, not_mem_nil, or_false] at hcode
  simp only [Char.isDigit, Bool.and_eq_true, decide_eq_true_eq, UInt32.le_iff_toNat_le] at h
  have hlow : 48 ≤ c.toNat := h.1
  have hhigh : c.toNat ≤ 57 := h.2
  omega

theorem IsToken.head_not_blank (h : IsToken cut) : cut.2.head?.any isBlank = false := by
  obtain ⟨c, more, hcons, hstarts⟩ := h.exists_cons
  rw [hcons]
  simp only [head?_cons, Option.any_some]
  rcases hstarts with ⟨-, hdigit⟩ | ⟨-, hname⟩ | ⟨-, rfl | rfl⟩ | ⟨-, hoperator⟩
  · exact isBlank_of_isDigit hdigit
  · exact isBlank_of_startsName hname
  · decide
  · decide
  · exact (not_starts_of_mem_shortOperators hoperator).2.2.2.2

theorem IsToken.ne_nil (h : IsToken cut) : cut.2 ≠ [] := by
  obtain ⟨_, _, hcons, -⟩ := h.exists_cons
  simp [hcons]

theorem IsToken.isWord (h : IsToken cut) : cut.1.isWord := by
  obtain ⟨_, _, hread⟩ := h
  exact isWord_of_readsAs hread

/-- A piece of the inside of a tag. -/
def IsInner (cut : Cut) : Prop :=
  IsGapCut cut ∨ IsToken cut

theorem IsInner.ne_nil (h : IsInner cut) : cut.2 ≠ [] :=
  h.elim IsGapCut.ne_nil IsToken.ne_nil

theorem IsInner.isToken (h : IsInner cut) (hkind : cut.1 ≠ .whitespace) :
    IsToken cut :=
  h.resolve_left fun hgap => hkind hgap.kind_eq

theorem IsInner.isGapCut (h : IsInner cut) (hkind : cut.1 = .whitespace) :
    IsGapCut cut := by
  refine h.resolve_right fun htoken => ?_
  have hword := htoken.isWord
  rw [hkind] at hword
  simp [TokenKind.isWord] at hword

theorem fits_of_blank (cut : Cut) {next : Option Char} (h : next.all isBlank) : Fits cut next := by
  unfold Fits
  split
  · cases next with
    | none => rfl
    | some c => exact continuesName_of_isBlank (by simpa using h)
  · intro c hc hmem
    obtain rfl : next = some c := hc
    obtain ⟨_, d, heq, -, hd⟩ := starts_of_mem_longOperators hmem
    have hc : c = d := by
      have hlast := congrArg getLast? heq
      simpa using hlast
    subst hc
    have hblank : isBlank c := by simpa using h
    fin_cases hd <;> exact absurd hblank (by decide)
  · trivial

/-- The closing brackets due after several tokens. -/
def dueAfterCuts (due : Text) (cuts : List Cut) : Option Text :=
  (wordsOf cuts).foldlM dueAfterCut due

theorem dueAfterCuts_blank (due text : Text) (cuts : List Cut) :
    dueAfterCuts due ((.whitespace, text) :: cuts) = dueAfterCuts due cuts := by
  rw [dueAfterCuts, wordsOf_blank, dueAfterCuts]

theorem dueAfterCuts_word (due : Text) (h : cut.1.isWord) (cuts : List Cut) :
    dueAfterCuts due (cut :: cuts) = (dueAfterCut due cut).bind (dueAfterCuts · cuts) := by
  rw [dueAfterCuts, wordsOf_word h]
  rfl

theorem Inside.chain (h : Inside env tagEnd due cuts after) {previous : Option Char}
    (hread : AllRead TokenKind.isWord previous cuts after) :
    (∀ cut ∈ cuts, IsInner cut) ∧ cuts.IsChain Joins ∧ dueAfterCuts due cuts = some [] := by
  induction h generalizing previous with
  | stop => exact ⟨by simp, .nil, rfl⟩
  | @blank due text cuts after hsome hblank hnext hinside ih =>
      obtain ⟨hinner, hchain, hdue⟩ := ih hread.2
      refine ⟨?_, ?_, by rw [dueAfterCuts_blank, hdue]⟩
      · intro cut hcut
        rcases mem_cons.mp hcut with rfl | hcut
        · refine .inl ⟨rfl, hsome, ?_⟩
          refine all_eq_true.mpr fun c hc => ?_
          have hgap := all_eq_true.mp hblank c hc
          simp only [isGap, Bool.and_eq_true] at hgap
          exact hgap.1
        · exact hinner cut hcut
      · cases cuts with
        | nil => exact .singleton _
        | cons next cuts =>
            refine .cons_cons ⟨fun _ hwhitespace => ?_, trivial⟩ hchain
            -- two pieces of whitespace side by side would be one
            have hgap := (hinner next mem_cons_self).isGapCut hwhitespace
            cases hinside with
            | blank hsome' hblank' =>
                rw [textOfCuts_cons, append_assoc, startsGap_append_of_ne_nil _ hsome',
                  startsGap_of_all hsome' hblank'] at hnext
                simp at hnext
            | token hword =>
                rw [hwhitespace] at hword
                simp [TokenKind.isWord] at hword
  | @token due due' cut cuts after hword hsome hgap hending hdue hinside ih =>
      obtain ⟨hinner, hchain, hdueRest⟩ := ih hread.2
      have hreads := hread.1 hword
      refine ⟨?_, ?_, by rw [dueAfterCuts_word _ hword, hdue]; exact hdueRest⟩
      · intro other hother
        rcases mem_cons.mp hother with rfl | hother
        · exact .inr ⟨_, _, hreads⟩
        · exact hinner other hother
      · cases cuts with
        | nil => exact .singleton _
        | cons next cuts =>
            refine .cons_cons ⟨fun hwhitespace => ?_, ?_⟩ hchain
            · rw [hwhitespace] at hword
              simp [TokenKind.isWord] at hword
            · have hfits := fits_of_readsAs hreads
              obtain ⟨c, more, hcons⟩ :=
                exists_cons_of_ne_nil (hinner next mem_cons_self).ne_nil
              rw [textOfCuts_cons, hcons] at hfits
              rw [hcons]
              exact hfits

def EndsBlank (cuts : List Cut) : Prop :=
  ∃ front text, cuts = front ++ [(.whitespace, text)]

theorem EndsBlank.tail (h : EndsBlank (cut :: cuts)) (hcut : cut.1 ≠ .whitespace) :
    EndsBlank cuts := by
  obtain ⟨front, text, heq⟩ := h
  cases front with
  | nil =>
      obtain ⟨rfl, -⟩ := cons.inj heq
      exact absurd rfl hcut
  | cons first front =>
      obtain ⟨-, rfl⟩ := cons.inj heq
      exact ⟨front, text, rfl⟩

theorem EndsBlank.of_cons_cons {first second : Cut} (h : EndsBlank (first :: second :: cuts)) :
    EndsBlank (second :: cuts) := by
  obtain ⟨front, text, heq⟩ := h
  cases front with
  | nil => simp at heq
  | cons _ front => exact ⟨front, text, (cons.inj heq).2⟩

theorem EndsBlank.ne_nil (h : EndsBlank cuts) : cuts ≠ [] := by
  obtain ⟨front, text, rfl⟩ := h
  simp

theorem IsInner.eq_operator {cut : Cut} (h : IsInner cut) {c : Char} {more : Text}
    (hcons : cut.2 = c :: more) (hc : c ∈ ['%', '-', '+', '}']) : cut = (.operator, [c]) := by
  have hclass : c.isDigit = false ∧ startsName c = false ∧ c ≠ '\'' ∧ c ≠ '"' ∧
      isBlank c = false :=
    not_starts_of_mem_shortOperators (by fin_cases hc <;> decide)
  obtain ⟨kind, text⟩ := cut
  obtain rfl : text = c :: more := hcons
  have htoken : IsToken (kind, c :: more) := by
    refine h.resolve_left fun hgap => ?_
    have hblank := isBlank_of_mem_all hgap.all_blank
    rw [hclass.2.2.2.2] at hblank
    simp at hblank
  obtain ⟨d, _, heq, hstarts⟩ := htoken.exists_cons
  obtain ⟨rfl, -⟩ := cons.inj heq
  obtain rfl : kind = .operator := by
    rcases hstarts with ⟨-, hdigit⟩ | ⟨-, hname⟩ | ⟨-, hquote⟩ | ⟨hkind, -⟩
    · rw [hclass.1] at hdigit
      simp at hdigit
    · rw [hclass.2.1] at hname
      simp at hname
    · exact absurd hquote (by simp [hclass.2.2.1, hclass.2.2.2.1])
    · exact hkind
  obtain ⟨_, _, hread⟩ := htoken
  rcases readsAs_operator_iff.mp hread with hlong | ⟨e, -, heq, -⟩
  · exfalso
    revert hlong
    fin_cases hc <;> simp [longOperators]
  · rw [(cons.inj heq).2]

theorem not_closer_of_dueAfterCuts (hinner : ∀ cut ∈ cuts, IsInner cut) (hlast : EndsBlank cuts)
    (hdue : dueAfterCuts [] cuts = some due) (front : Text)
    (hfront : ∀ c ∈ front, c ∈ ['%', '-', '+']) (more after : Text) :
    ¬ front ++ '}' :: more <+: textOfCuts cuts ++ after := by
  induction front generalizing cuts with
  | nil =>
      obtain ⟨cut, cuts, rfl⟩ := exists_cons_of_ne_nil hlast.ne_nil
      rintro ⟨rest, hrest⟩
      have hcut := hinner cut mem_cons_self
      obtain ⟨c, text, hcons⟩ := exists_cons_of_ne_nil hcut.ne_nil
      rw [textOfCuts_cons, hcons] at hrest
      obtain ⟨rfl, -⟩ := cons.inj hrest
      obtain rfl := hcut.eq_operator hcons (by simp)
      rw [dueAfterCuts_word [] rfl] at hdue
      simp [dueAfterCut, dueAfter, closer?, isCloser, Except.toOption] at hdue
  | cons d front ih =>
      obtain ⟨cut, cuts, rfl⟩ := exists_cons_of_ne_nil hlast.ne_nil
      rintro ⟨rest, hrest⟩
      have hcut := hinner cut mem_cons_self
      obtain ⟨c, text, hcons⟩ := exists_cons_of_ne_nil hcut.ne_nil
      rw [textOfCuts_cons, hcons] at hrest
      obtain ⟨rfl, hbehind⟩ := cons.inj hrest
      have hd := hfront d mem_cons_self
      obtain rfl := hcut.eq_operator hcons (by fin_cases hd <;> simp)
      obtain rfl : [] = text := (cons.inj hcons).2
      refine ih (fun cut hmem => hinner cut (mem_cons_of_mem _ hmem)) (hlast.tail (by simp))
        ?_ (fun c hc => hfront c (mem_cons_of_mem _ hc)) ⟨rest, hbehind⟩
      rw [dueAfterCuts_word [] rfl] at hdue
      fin_cases hd <;> simpa [dueAfterCut, dueAfter, closer?, isCloser, Except.toOption] using hdue

theorem ending?_eq_none_of_dueAfterCuts (hstock : env.IsStock) (hline : tagEnd ≠ .line)
    (hinner : ∀ cut ∈ cuts, IsInner cut) (hlast : EndsBlank cuts)
    (hdue : dueAfterCuts [] cuts = some due) (after : Text) :
    ending? env tagEnd (textOfCuts cuts ++ after) = none := by
  by_contra hsome
  obtain ⟨⟨length, chomp⟩, hfound⟩ := Option.ne_none_iff_exists'.mp hsome
  have hclosing := ((ending?_eq_some_iff hstock hline).mp hfound).1
  have hsign : ∀ c ∈ chomp.sign, c ∈ ['%', '-', '+'] := by
    cases chomp <;> simp [Chomp.sign]
  rcases TagEnd.eq_of_ne_line hline with rfl | rfl
  · refine not_closer_of_dueAfterCuts hinner hlast hdue (chomp.sign ++ ['%']) ?_ [] after ?_
    · intro c hc
      rcases mem_append.mp hc with hc | hc
      · exact hsign c hc
      · simp_all
    · simpa [TagEnd.closing] using hclosing
  · exact not_closer_of_dueAfterCuts hinner hlast hdue chomp.sign hsign ['}'] after hclosing

theorem isGap_eq_isBlank (hline : tagEnd ≠ .line) (due : Text) :
    isGap tagEnd due = isBlank := by
  funext c
  have hfalse : (tagEnd == .line) = false := by simpa using hline
  simp [isGap, hfalse]

theorem startsGap_closing (hline : tagEnd ≠ .line) (due : Text) (chomp : Chomp) (rest : Text) :
    startsGap tagEnd due (chomp.sign ++ tagEnd.closing ++ rest) = false := by
  rw [startsGap, isGap_eq_isBlank hline, append_assoc]
  rcases TagEnd.eq_of_ne_line hline with rfl | rfl
  · exact head?_sign_append_not_blank chomp ('}' :: rest) (by decide : isBlank '%' = false)
  · exact head?_sign_append_not_blank chomp ('}' :: rest) (by decide : isBlank '}' = false)

/-- Pieces that fit together, with balanced brackets and whitespace at the end, lie inside a tag. -/
theorem inside_of_chain (hstock : env.IsStock) (hline : tagEnd ≠ .line)
    (hinner : ∀ cut ∈ cuts, IsInner cut) (hchain : cuts.IsChain Joins) (hlast : EndsBlank cuts)
    (hdue : dueAfterCuts due cuts = some []) (chomp : Chomp) (rest : Text) :
    Inside env tagEnd due cuts (chomp.sign ++ tagEnd.closing ++ rest) := by
  induction cuts generalizing due with
  | nil => exact absurd rfl hlast.ne_nil
  | cons cut cuts ih =>
      have hcut := hinner cut mem_cons_self
      have hinnerRest : ∀ other ∈ cuts, IsInner other :=
        fun other hother => hinner other (mem_cons_of_mem _ hother)
      by_cases hblank : cut.1 = .whitespace
      · have hgap := hcut.isGapCut hblank
        obtain ⟨kind, text⟩ := cut
        obtain rfl : kind = .whitespace := hblank
        rw [dueAfterCuts_blank] at hdue
        have hall : text.all (isGap tagEnd due) := by
          rw [isGap_eq_isBlank hline]
          exact hgap.all_blank
        cases cuts with
        | nil =>
            obtain rfl : due = [] := Option.some.inj hdue
            refine .blank hgap.ne_nil hall (startsGap_closing hline [] chomp rest) (.stop ?_ ?_)
            · exact startsGap_closing hline [] chomp rest
            · rw [(ending?_eq_some_iff hstock hline).mpr ⟨prefix_append _ _, rfl⟩]
              rfl
        | cons next cuts =>
            obtain ⟨hjoins, hchainRest⟩ := isChain_cons_cons.mp hchain
            have hnext := (hinnerRest next mem_cons_self).isToken (hjoins.blanks rfl)
            refine .blank hgap.ne_nil hall ?_ (ih hinnerRest hchainRest hlast.of_cons_cons hdue)
            rw [textOfCuts_cons, append_assoc, startsGap_append_of_ne_nil _ hnext.ne_nil,
              startsGap, isGap_eq_isBlank hline]
            exact hnext.head_not_blank
      · have htoken := hcut.isToken hblank
        have hdueAll := hdue
        rw [dueAfterCuts_word _ htoken.isWord] at hdue
        obtain ⟨due', hdue', hdueRest⟩ := Option.bind_eq_some_iff.mp hdue
        have hchainRest : cuts.IsChain Joins := IsChain.tail hchain
        refine .token htoken.isWord htoken.ne_nil ?_ ?_ hdue'
          (ih hinnerRest hchainRest (hlast.tail hblank) hdueRest)
        · rw [startsGap, isGap_eq_isBlank hline]
          exact htoken.head_not_blank
        · rintro rfl
          have hnone := ending?_eq_none_of_dueAfterCuts hstock hline hinner hlast hdueAll
            (chomp.sign ++ tagEnd.closing ++ rest)
          rwa [textOfCuts_cons, append_assoc] at hnone

theorem allRead_isPlain_of_chain (hinner : ∀ cut ∈ cuts, IsInner cut) (hchain : cuts.IsChain Joins)
    (hlast : EndsBlank cuts) (previous : Option Char) (after : Text) :
    AllRead TokenKind.isPlain previous cuts after := by
  induction cuts generalizing previous with
  | nil => trivial
  | cons cut cuts ih =>
      have hcut := hinner cut mem_cons_self
      cases cuts with
      | nil =>
          obtain ⟨front, text, heq⟩ := hlast
          obtain rfl : cut = (.whitespace, text) := by
            cases front with
            | nil => simpa using heq
            | cons first front => simp at heq
          exact ⟨by simp [TokenKind.isPlain], trivial⟩
      | cons next cuts =>
          obtain ⟨hjoins, hchainRest⟩ := isChain_cons_cons.mp hchain
          refine ⟨fun hplain => ?_, ih (fun other hother =>
            hinner other (mem_cons_of_mem _ hother)) hchainRest hlast.of_cons_cons _⟩
          have htoken : IsToken cut := hcut.isToken fun hblank => by
            rw [hblank] at hplain
            simp [TokenKind.isPlain] at hplain
          refine readsAs_of_fits htoken hplain ?_ previous
          obtain ⟨c, more, hcons⟩ := exists_cons_of_ne_nil
            (hinner next (mem_cons_of_mem _ mem_cons_self)).ne_nil
          have hfits := hjoins.fits
          rw [hcons] at hfits
          rw [textOfCuts_cons, hcons]
          exact hfits

/-! ### Tags that hold only one word -/

theorem wordsOf_of_isGapCut (h : IsGapCut cut) (cuts : List Cut) :
    wordsOf (cut :: cuts) = wordsOf cuts := by
  simp [wordsOf, h.kind_eq, TokenKind.isWord]

theorem all_isBlank_of_wordsOf (hinner : ∀ cut ∈ cuts, IsInner cut) (hwords : wordsOf cuts = []) :
    (textOfCuts cuts).all isBlank := by
  induction cuts with
  | nil => rfl
  | cons cut cuts ih =>
      have hcut := hinner cut mem_cons_self
      by_cases hblank : cut.1 = .whitespace
      · have hrest : wordsOf cuts = [] := by
          simpa [wordsOf, hblank, TokenKind.isWord] using hwords
        rw [textOfCuts_cons, all_append, (hcut.isGapCut hblank).all_blank,
          ih (fun other hother => hinner other (mem_cons_of_mem _ hother)) hrest]
        rfl
      · rw [wordsOf_word (hcut.isToken hblank).isWord] at hwords
        simp at hwords

theorem exists_blanks_of_wordsOf (hinner : ∀ cut ∈ cuts, IsInner cut) {word : Cut}
    (hwords : wordsOf cuts = [word]) :
    ∃ before after, before.all isBlank ∧ after.all isBlank ∧
      textOfCuts cuts = before ++ (word.2 ++ after) := by
  induction cuts with
  | nil => simp [wordsOf] at hwords
  | cons cut cuts ih =>
      have hcut := hinner cut mem_cons_self
      have hinnerRest : ∀ other ∈ cuts, IsInner other :=
        fun other hother => hinner other (mem_cons_of_mem _ hother)
      by_cases hblank : cut.1 = .whitespace
      · have hrest : wordsOf cuts = [word] := by
          simpa [wordsOf, hblank, TokenKind.isWord] using hwords
        obtain ⟨before, after, hbefore, hafter, htext⟩ := ih hinnerRest hrest
        refine ⟨cut.2 ++ before, after, ?_, hafter, by rw [textOfCuts_cons, htext]; simp⟩
        rw [all_append, (hcut.isGapCut hblank).all_blank, hbefore]
        rfl
      · rw [wordsOf_word (hcut.isToken hblank).isWord] at hwords
        obtain ⟨rfl, hrest⟩ := cons.inj hwords
        exact ⟨[], textOfCuts cuts, rfl, all_isBlank_of_wordsOf hinnerRest hrest, rfl⟩

theorem wordTag?_raw_of_wordsOf (hstock : env.IsStock) (hinner : ∀ cut ∈ cuts, IsInner cut)
    (hwords : wordsOf cuts = [(.name, "raw".toList)]) (sign chomp : Chomp) (rest : Text) :
    wordTag? env "raw" (TagEnd.block.opening ++ sign.sign ++
      (textOfCuts cuts ++ (chomp.sign ++ TagEnd.block.closing ++ rest))) ≠ none := by
  obtain ⟨before, after, hbefore, hafter, htext⟩ := exists_blanks_of_wordsOf hinner hwords
  refine Option.ne_none_iff_exists'.mpr ⟨(_, chomp), (wordTag?_raw_iff hstock).mpr
    ⟨_, ⟨sign, before, after, hbefore, hafter, rfl⟩, ⟨rest, ?_⟩, rfl⟩⟩
  rw [htext]
  simp [TagEnd.opening, TagEnd.closing]

theorem blanks_unique {first second rest rest' : Text} (hfirst : first.all isBlank)
    (hsecond : second.all isBlank) (hrest : rest.head?.any isBlank = false)
    (hrest' : rest'.head?.any isBlank = false) (h : first ++ rest = second ++ rest') :
    first = second ∧ rest = rest' := by
  have hlength : first.length = second.length := by
    rw [← takeWhile_length_append_eq.mpr ⟨hfirst, hrest⟩, h,
      takeWhile_length_append_eq.mpr ⟨hsecond, hrest'⟩]
  exact append_inj h hlength

theorem head?_any_append {p : Char → Bool} {text : Text} (hsome : text ≠ []) (after : Text) :
    (text ++ after).head?.any p = text.head?.any p := by
  obtain ⟨c, more, rfl⟩ := exists_cons_of_ne_nil hsome
  rfl

theorem wordsOf_eq_nil_of_closing {cuts : List Cut} (hinner : ∀ cut ∈ cuts, IsInner cut)
    (hchain : cuts.IsChain Joins) (hlast : EndsBlank cuts) {due : Text}
    (hdue : dueAfterCuts [] cuts = some due) {blanks : Text} (hblanks : blanks.all isBlank)
    {last : Chomp} {behind after : Text}
    (htext : blanks ++ (last.sign ++ '%' :: '}' :: behind) = textOfCuts cuts ++ after) :
    wordsOf cuts = [] := by
  have hnot : ∀ cuts : List Cut, (∀ cut ∈ cuts, IsInner cut) → EndsBlank cuts →
      dueAfterCuts [] cuts = some due →
      last.sign ++ '%' :: '}' :: behind ≠ textOfCuts cuts ++ after := by
    intro cuts hinner hlast hdue heq
    refine not_closer_of_dueAfterCuts hinner hlast hdue (last.sign ++ ['%']) ?_ [] after
      ⟨behind, by rw [← heq]; simp⟩
    cases last <;> simp [Chomp.sign]
  have hclosing : (last.sign ++ '%' :: '}' :: behind).head?.any isBlank = false :=
    head?_sign_append_not_blank last _ (by decide)
  cases cuts with
  | nil => rfl
  | cons cut cuts =>
      have hcut := hinner cut mem_cons_self
      by_cases hblank : cut.1 = .whitespace
      · have hgap := hcut.isGapCut hblank
        cases cuts with
        | nil => simp [wordsOf, hblank, TokenKind.isWord]
        | cons next cuts =>
            -- a second piece would be a token, and the closing delimiter would start with it
            exfalso
            have hinnerRest : ∀ other ∈ next :: cuts, IsInner other :=
              fun other hother => hinner other (mem_cons_of_mem _ hother)
            have htoken := (hinnerRest next mem_cons_self).isToken
              ((isChain_cons_cons.mp hchain).1.blanks hblank)
            rw [textOfCuts_cons, append_assoc] at htext
            have hhead : (textOfCuts (next :: cuts) ++ after).head?.any isBlank = false := by
              rw [textOfCuts_cons, append_assoc, head?_any_append htoken.ne_nil]
              exact htoken.head_not_blank
            refine hnot (next :: cuts) hinnerRest hlast.of_cons_cons ?_
              (blanks_unique hblanks hgap.all_blank hclosing hhead htext).2
            obtain ⟨kind, text⟩ := cut
            obtain rfl : kind = .whitespace := hblank
            rwa [dueAfterCuts_blank] at hdue
      · exfalso
        have htoken := hcut.isToken hblank
        have hhead : (textOfCuts (cut :: cuts) ++ after).head?.any isBlank = false := by
          rw [textOfCuts_cons, append_assoc, head?_any_append htoken.ne_nil]
          exact htoken.head_not_blank
        exact hnot _ hinner hlast hdue
          (blanks_unique hblanks (all_nil : ([] : Text).all isBlank = true) hclosing hhead htext).2

theorem wordsOf_of_wordTag?_raw (hstock : env.IsStock) (hinner : ∀ cut ∈ cuts, IsInner cut)
    (hchain : cuts.IsChain Joins) (hstarts : ∀ cut ∈ cuts.head?, cut.1 = .whitespace)
    (hlast : EndsBlank cuts) (hdue : dueAfterCuts [] cuts = some due) (sign chomp : Chomp)
    (rest : Text) (hraw : wordTag? env "raw" (TagEnd.block.opening ++ sign.sign ++
      (textOfCuts cuts ++ (chomp.sign ++ TagEnd.block.closing ++ rest))) ≠ none) :
    wordsOf cuts = [(.name, "raw".toList)] := by
  obtain ⟨⟨length, last⟩, hfound⟩ := Option.ne_none_iff_exists'.mp hraw
  obtain ⟨_, ⟨sign', before, blanks, hbefore, hblanks, rfl⟩, ⟨behind, hbehind⟩, -⟩ :=
    (wordTag?_raw_iff hstock).mp hfound
  have hread := allRead_isPlain_of_chain hinner hchain hlast none
    (chomp.sign ++ TagEnd.block.closing ++ rest)
  obtain ⟨gap, cuts, rfl⟩ := exists_cons_of_ne_nil hlast.ne_nil
  have hgap := (hinner gap mem_cons_self).isGapCut (hstarts gap rfl)
  have hinnerRest : ∀ other ∈ cuts, IsInner other :=
    fun other hother => hinner other (mem_cons_of_mem _ hother)
  have htext : sign'.sign ++ (before ++ ("raw".toList ++ (blanks ++
      (last.sign ++ '%' :: '}' :: behind)))) = sign.sign ++ (gap.2 ++ (textOfCuts cuts ++
        (chomp.sign ++ TagEnd.block.closing ++ rest))) := by
    simpa [TagEnd.opening] using hbehind
  obtain rfl : sign' = sign := by
    have hsign : Chomp.atStart (before ++ ("raw".toList ++ (blanks ++
        (last.sign ++ '%' :: '}' :: behind)))) = .none :=
      atStart_of_blanks hbefore rfl
    rw [← Chomp.atStart_sign_append fun _ : sign' = .none => hsign, htext,
      Chomp.atStart_sign_append fun _ => atStart_blanks_append hgap.ne_nil hgap.all_blank _]
  have htextRest := append_cancel_left htext
  cases cuts with
  | nil =>
      have hhead : (chomp.sign ++ TagEnd.block.closing ++ rest).head?.any isBlank = false := by
        rw [append_assoc]
        exact head?_sign_append_not_blank chomp _ (by decide)
      have hclosing := (blanks_unique hbefore hgap.all_blank rfl hhead htextRest).2
      cases chomp <;> simp [Chomp.sign, TagEnd.closing] at hclosing
  | cons word cuts =>
      have hword := (hinnerRest word mem_cons_self).isToken
        ((isChain_cons_cons.mp hchain).1.blanks hgap.kind_eq)
      have hhead : (textOfCuts (word :: cuts) ++ (chomp.sign ++ TagEnd.block.closing ++
          rest)).head?.any isBlank = false := by
        rw [textOfCuts_cons, append_assoc, head?_any_append hword.ne_nil]
        exact hword.head_not_blank
      have hwordText := (blanks_unique hbefore hgap.all_blank rfl hhead htextRest).2
      rw [textOfCuts_cons, append_assoc] at hwordText
      have hplain : word.1.isPlain := by
        obtain ⟨c, more, hcons, hstarts⟩ := hword.exists_cons
        rw [hcons] at hwordText
        obtain ⟨rfl, -⟩ := cons.inj hwordText
        rcases hstarts with ⟨-, hdigit⟩ | ⟨hkind, -⟩ | ⟨hkind, -⟩ | ⟨hkind, -⟩
        · exact absurd hdigit (by decide)
        all_goals rw [hkind]; rfl
      -- the word is a name that is read at the same place as `raw`
      have hreadWord := hread.2.1 hplain
      have hreadRaw : ReadsAs (lastChar none gap.2) (.name, "raw".toList) (blanks ++
          (last.sign ++ '%' :: '}' :: behind)) := by
        refine readsAs_name_iff.mpr ⟨by decide, ?_⟩
        cases blanks with
        | nil => cases last <;> rfl
        | cons c blanks => exact continuesName_of_isBlank (isBlank_of_mem_all hblanks)
      obtain ⟨hwordEq, hbehindWord⟩ : word = (.name, "raw".toList) ∧ textOfCuts cuts ++
          (chomp.sign ++ TagEnd.block.closing ++ rest) =
            blanks ++ (last.sign ++ '%' :: '}' :: behind) := by
        rw [ReadsAs, ← hwordText, hreadRaw] at hreadWord
        obtain ⟨hkind, hlength⟩ := Prod.mk.inj (Option.some.inj hreadWord)
        obtain ⟨htextEq, hrestEq⟩ := append_inj hwordText hlength
        exact ⟨Prod.ext hkind.symm htextEq.symm, hrestEq.symm⟩
      subst hwordEq
      have hdueRest : dueAfterCuts [] cuts = some due := by
        rw [dueAfterCuts, wordsOf_of_isGapCut hgap, wordsOf_word rfl] at hdue
        exact hdue
      rw [wordsOf_of_isGapCut hgap, wordsOf_word rfl, wordsOf_eq_nil_of_closing
        (fun other hother => hinnerRest other (mem_cons_of_mem _ hother))
        (IsChain.tail (IsChain.tail hchain)) (hlast.of_cons_cons.tail (by simp)) hdueRest
        hblanks hbehindWord.symm]

end Scan

end JinjaLayout
