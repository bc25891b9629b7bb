import Mathlib
import JinjaLayout.Proofs.TokenReading

/-!
The inside of a tag, as a relation between its pieces and the text behind them. The relation says
where pieces start and end; that each piece is the one the scanner finds at its place is a second
condition, which looks at one piece, the character before it and the text behind it.
-/

namespace JinjaLayout.Scan

open List

/-- The closing brackets due after a token. -/
def dueAfterCut (due : Text) : Cut → Option Text
  | (.operator, [c]) => (dueAfter due c).toOption
  | _ => some due

variable {due after : Text} {cuts : List Cut} {env : Environment} {tagEnd : TagEnd}

theorem dueAfterCut_cases {due' : Text} {cut : Cut} (h : dueAfterCut due cut = some due') :
    (∃ c closer, cut = (.operator, [c]) ∧ closer? c = some closer ∧ due' = closer :: due) ∨
      (∃ c, cut = (.operator, [c]) ∧ isCloser c ∧ due = c :: due') ∨
      due' = due ∧ ∀ c, cut = (.operator, [c]) → closer? c = none ∧ isCloser c = false := by
  unfold dueAfterCut at h
  split at h
  · rename_i c
    unfold dueAfter at h
    split at h
    · rename_i closer hcloser
      obtain rfl : closer :: due = due' := by simpa [Except.toOption] using h
      exact .inl ⟨c, closer, rfl, hcloser, rfl⟩
    · rename_i hcloser
      split at h
      · rename_i hcloses
        split at h
        · simp [Except.toOption] at h
        · rename_i expected outer
          split at h
          · rename_i heq
            obtain rfl : outer = due' := by simpa [Except.toOption] using h
            exact .inr (.inl ⟨c, rfl, hcloses, by rw [heq]⟩)
          · simp [Except.toOption] at h
      · rename_i hcloses
        obtain rfl : due = due' := by simpa [Except.toOption] using h
        refine .inr (.inr ⟨rfl, ?_⟩)
        rintro _ ⟨⟩
        exact ⟨hcloser, by simpa using hcloses⟩
  · rename_i hsingle
    obtain rfl : due = due' := by simpa using h
    exact .inr (.inr ⟨rfl, fun c hcut => absurd hcut (hsingle c)⟩)

theorem dueAfterCut_of_plainToken? {previous : Option Char} {rest : Text} {kind : TokenKind}
    {length : Nat} (h : plainToken? previous rest = some (kind, length)) :
    dueAfterCut due (kind, rest.take length) = some due := by
  unfold dueAfterCut
  split
  · rename_i c hcut
    simp only [Prod.mk.injEq] at hcut
    obtain ⟨rfl, htake⟩ := hcut
    -- the operators that are found first have two characters
    unfold plainToken? at h
    simp only [Option.orElse_eq_some, Option.map_eq_some_iff, Prod.mk.injEq, reduceCtorEq,
      false_and, and_false, exists_false, false_or, true_and] at h
    obtain hnumber | ⟨-, -, -, operator, hfind, rfl⟩ := h
    · simpa using (number?_eq_some hnumber).1
    · obtain ⟨c, d, rfl, -⟩ := starts_of_mem_longOperators (mem_of_find?_eq_some hfind)
      have hfront : [c, d] <+: rest := by simpa using find?_some hfind
      rw [← prefix_iff_eq_take.mp hfront] at htake
      simp at htake
  · rfl

theorem tagToken_eq_ok_iff (scan : Scan) (due : Text) (kind : TokenKind) (length : Nat)
    (due' : Text) :
    scan.tagToken due = .ok (kind, length, due') ↔
      anyToken? scan.previous scan.rest = some (kind, length) ∧
        dueAfterCut due (kind, scan.rest.take length) = some due' := by
  unfold tagToken anyToken?
  cases hplain : plainToken? scan.previous scan.rest with
  | some plain =>
      obtain ⟨kind, length⟩ := plain
      have hdue : dueAfterCut due (kind, scan.rest.take length) = some due :=
        dueAfterCut_of_plainToken? hplain
      simp only [Except.ok.injEq, Prod.mk.injEq, Option.orElse_eq_orElse, Option.orElse_some,
        Option.some.injEq]
      constructor
      · rintro ⟨rfl, rfl, rfl⟩
        exact ⟨⟨rfl, rfl⟩, hdue⟩
      · rintro ⟨⟨rfl, rfl⟩, hsome⟩
        exact ⟨rfl, rfl, by simpa [hdue] using hsome⟩
  | none =>
      cases hrest : scan.rest with
      | nil => simp [shortOperator?]
      | cons c rest =>
          simp only [shortOperator?, Option.orElse_eq_orElse, Option.orElse_none]
          split
          · cases hafter : dueAfter due c with
            | error fault =>
                simp only [Except.map, reduceCtorEq, Option.some.injEq, Prod.mk.injEq, false_iff]
                rintro ⟨⟨rfl, rfl⟩, hsome⟩
                simp [dueAfterCut, hafter, Except.toOption] at hsome
            | ok found =>
                simp only [Except.map, Except.ok.injEq, Prod.mk.injEq, Option.some.injEq]
                constructor
                · rintro ⟨rfl, rfl, rfl⟩
                  simp [dueAfterCut, hafter, Except.toOption]
                · rintro ⟨⟨rfl, rfl⟩, hsome⟩
                  simpa [dueAfterCut, hafter, Except.toOption] using hsome
          · simp

/-- Whether a character inside a tag separates pieces. Outside of brackets the end of its line ends
a line statement. -/
def isGap (tagEnd : TagEnd) (due : Text) (c : Char) : Bool :=
  Text.isBlank c && !((tagEnd == .line && due.isEmpty) && c == '\n')

/-- Whether the text starts with a character that separates pieces. -/
def startsGap (tagEnd : TagEnd) (due text : Text) : Bool :=
  text.head?.any (isGap tagEnd due)

def ending? (env : Environment) : TagEnd → Text → Option (Nat × Chomp)
  | .line, [] => some (0, .none)
  | .line, c :: _ => if c = '\n' then some (1, .none) else none
  | _, [] => none
  | tagEnd, rest => tagEnd.delimiter? env rest

inductive Inside (env : Environment) (tagEnd : TagEnd) : Text → List Cut → Text → Prop where
  | stop {after : Text} (hgap : startsGap tagEnd [] after = false)
      (hending : (ending? env tagEnd after).isSome) : Inside env tagEnd [] [] after
  | blank {due text : Text} {cuts : List Cut} {after : Text} (hsome : text ≠ [])
      (hblank : text.all (isGap tagEnd due))
      (hnext : startsGap tagEnd due (textOfCuts cuts ++ after) = false)
      (hrest : Inside env tagEnd due cuts after) :
      Inside env tagEnd due ((.whitespace, text) :: cuts) after
  | token {due due' : Text} {cut : Cut} {cuts : List Cut} {after : Text}
      (hword : cut.1.isWord) (hsome : cut.2 ≠ []) (hgap : startsGap tagEnd due cut.2 = false)
      (hending : due = [] → ending? env tagEnd (cut.2 ++ (textOfCuts cuts ++ after)) = none)
      (hdue : dueAfterCut due cut = some due') (hrest : Inside env tagEnd due' cuts after) :
      Inside env tagEnd due (cut :: cuts) after

/-- Every piece of the given categories is the one that the scanner finds at its place inside a
tag. -/
def AllRead (kinds : TokenKind → Bool) : Option Char → List Cut → Text → Prop
  | _, [], _ => True
  | previous, cut :: cuts, after =>
      (kinds cut.1 → ReadsAs previous cut (textOfCuts cuts ++ after)) ∧
        AllRead kinds (lastChar previous cut.2) cuts after

@[simp]
theorem allRead_nil (kinds : TokenKind → Bool) (previous : Option Char) (after : Text) :
    AllRead kinds previous [] after := trivial

@[simp]
theorem allRead_cons (kinds : TokenKind → Bool) (previous : Option Char) (cut : Cut)
    (cuts : List Cut) (after : Text) :
    AllRead kinds previous (cut :: cuts) after ↔
      (kinds cut.1 → ReadsAs previous cut (textOfCuts cuts ++ after)) ∧
        AllRead kinds (lastChar previous cut.2) cuts after := Iff.rfl

theorem allRead_append (kinds : TokenKind → Bool) (previous : Option Char)
    (first second : List Cut) (after : Text) :
    AllRead kinds previous (first ++ second) after ↔
      AllRead kinds previous first (textOfCuts second ++ after) ∧
        AllRead kinds (lastChar previous (textOfCuts first)) second after := by
  induction first generalizing previous with
  | nil => simp
  | cons cut first ih =>
      simp [ih, lastChar_append, and_assoc]

theorem allRead_of_none {kinds : TokenKind → Bool} (h : ∀ cut ∈ cuts, kinds cut.1 = false)
    (previous : Option Char) (after : Text) :
    AllRead kinds previous cuts after := by
  induction cuts generalizing previous with
  | nil => trivial
  | cons cut cuts ih =>
      refine ⟨?_, ih (fun other hother => h other (mem_cons_of_mem _ hother)) _⟩
      simp [h cut mem_cons_self]

theorem tagToken_nil {scan : Scan} (due : Text) (h : scan.rest = []) :
    scan.tagToken due = .error .unexpectedEnd := by
  have hplain : plainToken? scan.previous [] = none := by
    simp [plainToken?, number?, Literal.nameLength?, Literal.stringLength?, longOperators]
  simp [tagToken, h, hplain]

theorem takeWhile_isGap_length_ne_zero (tagEnd : TagEnd) (due text : Text) :
    (text.takeWhile (isGap tagEnd due)).length ≠ 0 ↔ startsGap tagEnd due text := by
  cases text with
  | nil => simp [startsGap]
  | cons c text => cases hc : isGap tagEnd due c <;> simp [startsGap, hc]

theorem startsGap_dropWhile (tagEnd : TagEnd) (due text : Text) :
    startsGap tagEnd due (text.dropWhile (isGap tagEnd due)) = false := by
  have h := head?_dropWhile_not (isGap tagEnd due) text
  cases hhead : (text.dropWhile (isGap tagEnd due)).head? with
  | none => simp [startsGap, hhead]
  | some c =>
      rw [hhead] at h
      simpa [startsGap, hhead] using h

theorem readTag_succ (env : Environment) (tagEnd : TagEnd) (bound : Nat) (due : Text)
    (scan : Scan) :
    readTag env tagEnd (bound + 1) due scan =
      if startsGap tagEnd due scan.rest then
        readTag env tagEnd bound due
          (scan.push .whitespace (scan.rest.takeWhile (isGap tagEnd due)).length)
      else
        match (if due = [] then ending? env tagEnd scan.rest else none) with
        | some (length, chomp) =>
            .ok ((scan.push tagEnd.kind length).readTail env chomp (tagEnd == .block))
        | none =>
            match scan.tagToken due with
            | .error fault => scan.fail fault
            | .ok (kind, length, due) => readTag env tagEnd bound due (scan.push kind length) := by
  rw [readTag]
  simp only [show (fun c => Text.isBlank c && !(tagEnd == .line && due.isEmpty && c == '\n')) =
    isGap tagEnd due from rfl, takeWhile_isGap_length_ne_zero]
  cases hrest : scan.rest with
  | nil =>
      rw [tagToken_nil due hrest]
      cases tagEnd <;> cases due <;> simp [startsGap, ending?, readTail, TagEnd.kind]
  | cons c rest =>
      by_cases hgap : startsGap tagEnd due (c :: rest)
      · simp [hgap]
      · cases tagEnd <;> cases due <;> by_cases hc : c = '\n' <;>
          simp [hgap, ending?, readTail, TagEnd.kind, hc] <;> rfl

theorem readTag_of_inside (h : Inside env tagEnd due cuts after) :
    ∀ (bound : Nat) (scan : Scan), cuts.length < bound → AllRead TokenKind.isWord scan.previous cuts after →
      scan.rest = textOfCuts cuts ++ after →
      ∃ (stop : Scan) (length : Nat) (chomp : Chomp), Reaches scan cuts stop ∧ stop.rest = after ∧
        ending? env tagEnd after = some (length, chomp) ∧
        readTag env tagEnd bound due scan =
          .ok ((stop.push tagEnd.kind length).readTail env chomp (tagEnd == .block)) := by
  induction h with
  | @stop after hgap hending =>
      intro bound scan hbound _ hrest
      obtain ⟨bound, rfl⟩ : ∃ n, bound = n + 1 := Nat.exists_eq_add_one.mpr hbound
      obtain ⟨⟨length, chomp⟩, hfound⟩ := Option.isSome_iff_exists.mp hending
      replace hrest : scan.rest = after := hrest
      refine ⟨scan, length, chomp, Reaches.refl scan, hrest, hfound, ?_⟩
      rw [readTag_succ, hrest, hgap]
      simp [hfound]
  | @blank due text cuts after hsome hblank hnext hinside ih =>
      intro bound scan hbound hread hrest
      obtain ⟨bound, rfl⟩ : ∃ n, bound = n + 1 :=
        Nat.exists_eq_add_one.mpr (Nat.zero_lt_of_lt hbound)
      rw [textOfCuts_cons, append_assoc] at hrest
      obtain ⟨hreach, hafter⟩ := reaches_push_of_rest .whitespace hrest
      have htake : (scan.rest.takeWhile (isGap tagEnd due)).length = text.length := by
        rw [hrest, Literal.takeWhile_length_append_eq]
        exact ⟨hblank, hnext⟩
      have hstarts : startsGap tagEnd due scan.rest := by
        rw [← takeWhile_isGap_length_ne_zero, htake]
        simpa using hsome
      obtain ⟨stop, length, chomp, hstop, hstopRest, hfound, hrun⟩ :=
        ih bound (scan.push .whitespace text.length) (by simpa using hbound)
          (by rw [hreach.previous_eq]; simpa using hread.2) hafter
      refine ⟨stop, length, chomp, hreach.trans hstop, hstopRest, hfound, ?_⟩
      rw [readTag_succ, if_pos hstarts, htake]
      exact hrun
  | @token due due' cut cuts after hword hsome hgap hending hdue hinside ih =>
      intro bound scan hbound hread hrest
      obtain ⟨bound, rfl⟩ : ∃ n, bound = n + 1 :=
        Nat.exists_eq_add_one.mpr (Nat.zero_lt_of_lt hbound)
      rw [textOfCuts_cons, append_assoc] at hrest
      obtain ⟨hreach, hafter⟩ := reaches_push_of_rest cut.1 hrest
      have hstarts : startsGap tagEnd due scan.rest = false := by
        obtain ⟨c, more, hcut⟩ := exists_cons_of_ne_nil hsome
        rw [hrest, hcut]
        simpa [startsGap, hcut] using hgap
      obtain ⟨stop, length, chomp, hstop, hstopRest, hfound, hrun⟩ :=
        ih bound (scan.push cut.1 cut.2.length) (by simpa using hbound)
          (by rw [hreach.previous_eq]; simpa using hread.2) hafter
      refine ⟨stop, length, chomp, hreach.trans hstop, hstopRest, hfound, ?_⟩
      have hnone : (if due = [] then ending? env tagEnd scan.rest else none) = none := by
        split
        · rw [hrest]
          exact hending ‹_›
        · rfl
      have htoken : scan.tagToken due = .ok (cut.1, cut.2.length, due') := by
        rw [tagToken_eq_ok_iff, hrest, take_left]
        exact ⟨hread.1 hword, hdue⟩
      rw [readTag_succ, hstarts]
      simp [hnone, htoken, hrun]

theorem inside_of_readTag {bound : Nat} {scan result : Scan}
    (h : readTag env tagEnd bound due scan = .ok result) :
    ∃ (cuts : List Cut) (stop : Scan) (length : Nat) (chomp : Chomp),
      Inside env tagEnd due cuts stop.rest ∧ AllRead TokenKind.isWord scan.previous cuts stop.rest ∧
        Reaches scan cuts stop ∧ ending? env tagEnd stop.rest = some (length, chomp) ∧
        result = (stop.push tagEnd.kind length).readTail env chomp (tagEnd == .block) := by
  induction bound generalizing due scan with
  | zero => simp [readTag, fail] at h
  | succ bound ih =>
      rw [readTag_succ] at h
      split at h
      case isTrue hgap =>
          have hlength := (takeWhile_isGap_length_ne_zero tagEnd due scan.rest).mpr hgap
          have hsplit : scan.rest = scan.rest.takeWhile (isGap tagEnd due) ++
              scan.rest.dropWhile (isGap tagEnd due) := takeWhile_append_dropWhile.symm
          obtain ⟨hreach, hafter⟩ := reaches_push_of_rest .whitespace hsplit
          obtain ⟨cuts, stop, length, chomp, hinside, hread, hstop, hending, hresult⟩ := ih h
          have hrest := hstop.rest_eq
          rw [hafter] at hrest
          refine ⟨_, stop, length, chomp, .blank ?_ ?_ ?_ hinside, ⟨by simp [TokenKind.isWord], ?_⟩,
            hreach.trans hstop, hending, hresult⟩
          · simpa using hlength
          · exact all_takeWhile
          · rw [← hrest]
            exact startsGap_dropWhile tagEnd due scan.rest
          · rw [hreach.previous_eq] at hread
            simpa using hread
      case isFalse hgap =>
          split at h
          case h_1 length chomp hending =>
              obtain ⟨rfl, hending⟩ := Option.ite_none_right_eq_some.mp hending
              refine ⟨[], scan, length, chomp, .stop (by simpa using hgap) ?_, trivial,
                Reaches.refl scan, hending, (Except.ok.inj h).symm⟩
              exact Option.isSome_iff_exists.mpr ⟨_, hending⟩
          case h_2 hending =>
              split at h
              case h_1 => simp [fail] at h
              case h_2 kind length due' htoken =>
                  obtain ⟨hfound, hdue⟩ := (tagToken_eq_ok_iff ..).mp htoken
                  obtain ⟨hpos, hle⟩ := anyToken?_bounds hfound
                  have hlength : (scan.rest.take length).length = length := by simpa using hle
                  have hsome : scan.rest.take length ≠ [] := by
                    rw [← length_pos_iff, hlength]
                    exact hpos
                  have hreach := reaches_push kind length scan
                  obtain ⟨cuts, stop, endLength, chomp, hinside, hread, hstop, hstopEnding, hresult⟩ :=
                    ih h
                  have hsplit : scan.rest =
                      scan.rest.take length ++ (textOfCuts cuts ++ stop.rest) := by
                    have hrest := hreach.rest_eq
                    rwa [hstop.rest_eq, textOfCuts_cons, textOfCuts_nil, append_nil] at hrest
                  have hreads : ReadsAs scan.previous (kind, scan.rest.take length)
                      (textOfCuts cuts ++ stop.rest) := by
                    rw [ReadsAs, ← hsplit, hlength]
                    exact hfound
                  refine ⟨_, stop, endLength, chomp,
                    .token (isWord_of_readsAs hreads) hsome ?_ ?_ hdue hinside,
                    ⟨fun _ => hreads, ?_⟩, hreach.trans hstop, hstopEnding, hresult⟩
                  · have hhead : (scan.rest.take length).head? = scan.rest.head? := by
                      simp [head?_take, hpos.ne']
                    rw [startsGap, hhead]
                    simpa [startsGap] using hgap
                  · intro hempty
                    rw [← hsplit]
                    simpa [hempty] using hending
                  · rw [hreach.previous_eq] at hread
                    simpa using hread

theorem Inside.length_le (h : Inside env tagEnd due cuts after) :
    cuts.length ≤ (textOfCuts cuts).length := by
  induction h with
  | stop => simp
  | blank hsome _ _ _ ih =>
      have hpos := length_pos_iff.mpr hsome
      simp only [textOfCuts_cons, length_append, length_cons]
      omega
  | token _ hsome _ _ _ _ ih =>
      have hpos := length_pos_iff.mpr hsome
      simp only [textOfCuts_cons, length_append, length_cons]
      omega

/-- The tokens among the pieces. -/
def wordsOf (cuts : List Cut) : List Cut :=
  cuts.filter fun cut => cut.1.isWord

theorem wordsOf_blank (text : Text) (cuts : List Cut) :
    wordsOf ((.whitespace, text) :: cuts) = wordsOf cuts := by
  simp [wordsOf, TokenKind.isWord]

theorem wordsOf_word {cut : Cut} (h : cut.1.isWord) (cuts : List Cut) :
    wordsOf (cut :: cuts) = cut :: wordsOf cuts := by
  simp [wordsOf, h]

theorem startsGap_append_of_ne_nil {text : Text} (rest : Text) (h : text ≠ []) :
    startsGap tagEnd due (text ++ rest) = startsGap tagEnd due text := by
  obtain ⟨c, more, rfl⟩ := exists_cons_of_ne_nil h
  rfl

theorem startsGap_of_all {text : Text} (h : text ≠ []) (hall : text.all (isGap tagEnd due)) :
    startsGap tagEnd due text := by
  obtain ⟨c, more, rfl⟩ := exists_cons_of_ne_nil h
  simp only [all_cons, Bool.and_eq_true] at hall
  exact hall.1

theorem Inside.unique {cuts' : List Cut} {after' : Text} {more more' : List Cut}
    (h : Inside env tagEnd due cuts after) (h' : Inside env tagEnd due cuts' after')
    (htext : textOfCuts cuts ++ after = textOfCuts cuts' ++ after')
    (hwords : wordsOf cuts ++ more = wordsOf cuts' ++ more') :
    cuts = cuts' ∧ after = after' := by
  induction h generalizing cuts' after' with
  | @stop after hgap hending =>
      cases h' with
      | stop => exact ⟨rfl, htext⟩
      | blank hsome' hblank' =>
          rw [textOfCuts_nil, nil_append, textOfCuts_cons, append_assoc] at htext
          rw [htext, startsGap_append_of_ne_nil _ hsome', startsGap_of_all hsome' hblank'] at hgap
          simp at hgap
      | token _ _ _ hending' =>
          rw [textOfCuts_nil, nil_append, textOfCuts_cons, append_assoc] at htext
          rw [htext, hending' rfl] at hending
          simp at hending
  | @blank due text cuts after hsome hblank hnext hinside ih =>
      rw [textOfCuts_cons, append_assoc] at htext
      have hstarts : startsGap tagEnd due (text ++ (textOfCuts cuts ++ after)) := by
        rw [startsGap_append_of_ne_nil _ hsome]
        exact startsGap_of_all hsome hblank
      cases h' with
      | stop hgap' =>
          rw [htext] at hstarts
          exact absurd hstarts (Bool.eq_false_iff.mp hgap')
      | @blank _ text' cuts' _ hsome' hblank' hnext' hinside' =>
          rw [textOfCuts_cons, append_assoc] at htext
          have hlength : text.length = text'.length := by
            rw [← Literal.takeWhile_length_append_eq.mpr ⟨hblank, hnext⟩, htext,
              Literal.takeWhile_length_append_eq.mpr ⟨hblank', hnext'⟩]
          obtain ⟨rfl, hrest⟩ := append_inj htext hlength
          rw [wordsOf_blank, wordsOf_blank] at hwords
          obtain ⟨rfl, rfl⟩ := ih hinside' hrest hwords
          exact ⟨rfl, rfl⟩
      | token _ hsome' hgap' =>
          rw [textOfCuts_cons, append_assoc] at htext
          rw [htext, startsGap_append_of_ne_nil _ hsome', hgap'] at hstarts
          simp at hstarts
  | @token due due' cut cuts after hword hsome hgap hending hdue hinside ih =>
      rw [wordsOf_word hword, cons_append] at hwords
      rw [textOfCuts_cons, append_assoc] at htext
      cases h' with
      | stop _ hending' =>
          rw [← show cut.2 ++ (textOfCuts cuts ++ after) = after' from htext, hending rfl] at hending'
          simp at hending'
      | blank hsome' hblank' =>
          rw [textOfCuts_cons, append_assoc] at htext
          have hstarts : startsGap tagEnd due (cut.2 ++ (textOfCuts cuts ++ after)) = false := by
            rw [startsGap_append_of_ne_nil _ hsome]
            exact hgap
          rw [htext, startsGap_append_of_ne_nil _ hsome', startsGap_of_all hsome' hblank'] at hstarts
          simp at hstarts
      | @token _ _ cut' cuts' _ hword' hsome' hgap' hending' hdue' hinside' =>
          rw [wordsOf_word hword', cons_append] at hwords
          obtain ⟨rfl, hmore⟩ := cons.inj hwords
          obtain rfl := Option.some.inj (hdue.symm.trans hdue')
          rw [textOfCuts_cons, append_assoc] at htext
          obtain ⟨rfl, rfl⟩ := ih hinside' (append_cancel_left htext) hmore
          exact ⟨rfl, rfl⟩

end JinjaLayout.Scan
