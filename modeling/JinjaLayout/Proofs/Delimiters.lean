import Mathlib
import JinjaLayout.Proofs.StockMarker
import JinjaLayout.Proofs.TagInside

/-!
What the scanner looks for around tags: end delimiters, tags that hold one word, the end of a raw
block and of a comment. Each is found by its own text, whatever comes behind it.
-/

namespace JinjaLayout

open List

namespace Chomp

theorem atStart_sign_append {chomp : Chomp} {text : Text}
    (h : chomp = .none → atStart text = .none) : atStart (chomp.sign ++ text) = chomp := by
  cases chomp with
  | none => simpa [sign] using h rfl
  | strip => rfl
  | keep => rfl

theorem atStart_cons (c : Char) (text : Text) :
    atStart (c :: text) = if c = '-' then .strip else if c = '+' then .keep else .none := by
  by_cases hstrip : c = '-'
  · simp [hstrip, atStart, ofChar?]
  · by_cases hkeep : c = '+'
    · simp [hkeep, atStart, ofChar?]
    · simp [hstrip, hkeep, atStart, ofChar?]

theorem exists_of_atStart (text : Text) :
    ∃ more, text = (atStart text).sign ++ more ∧ (atStart text = .none → atStart more = .none) ∧
      text.drop (atStart text).width = more := by
  cases text with
  | nil => exact ⟨[], rfl, fun _ => rfl, rfl⟩
  | cons c text =>
      rw [atStart_cons]
      split_ifs with hstrip hkeep
      · exact ⟨text, by rw [hstrip]; rfl, by simp, rfl⟩
      · exact ⟨text, by rw [hkeep]; rfl, by simp, rfl⟩
      · exact ⟨c :: text, rfl, fun _ => by simp [atStart_cons, hstrip, hkeep], rfl⟩

end Chomp

namespace Scan

open JinjaLayout.Text

variable {c : Char} {rest text tag opening : Text} {length : Nat} {chomp : Chomp}
  {env : Environment}

theorem endDelimiter?_eq_some_iff {more : Text} (hstrip : c ≠ '-') (hkeep : c ≠ '+') :
    endDelimiter? (c :: more) rest = some (length, chomp) ↔
      chomp.sign ++ c :: more <+: rest ∧ length = chomp.width + (c :: more).length := by
  unfold endDelimiter?
  cases rest with
  | nil => cases chomp <;> simp [Chomp.sign]
  | cons d rest =>
      simp only [drop_one, tail_cons, Chomp.atStart_cons]
      by_cases hminus : d = '-'
      · subst hminus
        cases chomp <;> by_cases hdelim : c :: more <+: rest <;>
          simp [hdelim, hstrip, Chomp.sign, Chomp.width]
        omega
      · by_cases hplus : d = '+'
        · subst hplus
          cases chomp <;> by_cases hdelim : c :: more <+: rest <;>
            simp [hdelim, hkeep, Chomp.sign, Chomp.width]
          omega
        · have hminus' : '-' ≠ d := Ne.symm hminus
          have hplus' : '+' ≠ d := Ne.symm hplus
          cases chomp <;>
            simp [hminus, hplus, hminus', hplus', Chomp.sign, Chomp.width]
          exact fun _ _ => eq_comm

theorem after?_eq_some_iff {start : Text} :
    after? start text = some rest ↔ text = start ++ rest := by
  unfold after?
  constructor
  · intro h
    obtain ⟨hfront, hrest⟩ := Option.ite_none_right_eq_some.mp h
    obtain ⟨more, rfl⟩ := List.isPrefixOf_iff_prefix.mp hfront
    simpa using hrest
  · rintro rfl
    simp

theorem dropWhile_append_of_all {p : Char → Bool} {after : Text} (hall : text.all p)
    (hafter : after.head?.any p = false) : (text ++ after).dropWhile p = after := by
  rw [dropWhile_append_of_pos (by simpa using hall)]
  cases after with
  | nil => rfl
  | cons c after => simpa using hafter

/-- The text of a block tag that holds only the given word. -/
def WordTag (word opening : Text) (chomp : Chomp) : Prop :=
  ∃ (sign : Chomp) (before after : Text), before.all isBlank ∧ after.all isBlank ∧
    opening = ['{', '%'] ++ (sign.sign ++ (before ++ (word ++ (after ++
      (chomp.sign ++ ['%', '}'])))))

theorem isBlank_of_mem_all (h : (c :: text).all isBlank) : isBlank c := by
  simp only [all_cons, Bool.and_eq_true] at h
  exact h.1

theorem atStart_blanks_append {before : Text} (hsome : before ≠ []) (hbefore : before.all isBlank)
    (text : Text) : Chomp.atStart (before ++ text) = .none := by
  obtain ⟨c, before, rfl⟩ := exists_cons_of_ne_nil hsome
  have hc := isBlank_of_mem_all hbefore
  have hstrip : c ≠ '-' := by rintro rfl; revert hc; decide
  have hkeep : c ≠ '+' := by rintro rfl; revert hc; decide
  simp [Chomp.atStart_cons, hstrip, hkeep]

theorem atStart_of_blanks {before : Text} (hbefore : before.all isBlank)
    (htext : Chomp.atStart text = .none) : Chomp.atStart (before ++ text) = .none := by
  by_cases hsome : before = []
  · rwa [hsome]
  · exact atStart_blanks_append hsome hbefore text

theorem head?_sign_append_not_blank (chomp : Chomp) (text : Text) (hc : isBlank c = false) :
    (chomp.sign ++ c :: text).head?.any isBlank = false := by
  cases chomp with
  | none => simpa [Chomp.sign] using hc
  | strip => rfl
  | keep => rfl

theorem wordTag?_eq_some_iff (hstock : env.IsStock) {more : Text} (hblank : isBlank c = false)
    (hstrip : c ≠ '-') (hkeep : c ≠ '+') :
    wordTag? env (c :: more) tag = some (length, chomp) ↔
      ∃ opening, WordTag (c :: more) opening chomp ∧ opening <+: tag ∧
        length = opening.length := by
  unfold wordTag?
  simp only [hstock.blockStart, hstock.blockEnd, Option.bind_eq_bind, Option.bind_eq_some_iff,
    after?_eq_some_iff, Option.some.injEq, Prod.mk.injEq]
  constructor
  · rintro ⟨inside, rfl, afterWord, hword, ⟨found, chomp⟩, hending, hlength, rfl⟩
    obtain ⟨unsigned, hinside, -, hdrop⟩ := Chomp.exists_of_atStart inside
    rw [hdrop] at hword
    obtain ⟨⟨rest, hrest⟩, rfl⟩ := (endDelimiter?_eq_some_iff (by decide) (by decide)).mp hending
    -- the text of the tag, part by part
    have htext : inside = (Chomp.atStart inside).sign ++ (unsigned.takeWhile isBlank ++
        (c :: more ++ (afterWord.takeWhile isBlank ++ (chomp.sign ++ ['%', '}'] ++ rest)))) := by
      calc inside = (Chomp.atStart inside).sign ++ unsigned := hinside
        _ = (Chomp.atStart inside).sign ++ (unsigned.takeWhile isBlank ++ (c :: more ++
              (afterWord.takeWhile isBlank ++ afterWord.dropWhile isBlank))) := by
            rw [takeWhile_append_dropWhile, ← hword, takeWhile_append_dropWhile]
        _ = _ := by rw [← hrest]
    refine ⟨_, ⟨Chomp.atStart inside, unsigned.takeWhile isBlank, afterWord.takeWhile isBlank,
      all_takeWhile, all_takeWhile, rfl⟩, ⟨rest, ?_⟩, ?_⟩
    · conv_rhs => rw [htext]
      simp
    · have hlengths := congrArg List.length htext
      rw [← hrest] at hlength
      simp only [length_append, length_cons, length_nil, Chomp.width] at hlengths hlength ⊢
      omega
  · rintro ⟨_, ⟨sign, before, after, hbefore, hafter, rfl⟩, ⟨rest, rfl⟩, rfl⟩
    have hsign : Chomp.atStart (sign.sign ++ (before ++ (c :: more ++ (after ++
        (chomp.sign ++ ['%', '}'] ++ rest))))) = sign :=
      Chomp.atStart_sign_append fun _ =>
        atStart_of_blanks hbefore (by simp [Chomp.atStart_cons, hstrip, hkeep])
    have hending : (after ++ (chomp.sign ++ ['%', '}'] ++ rest)).dropWhile isBlank =
        chomp.sign ++ ['%', '}'] ++ rest := by
      have hpercent : isBlank '%' = false := by decide
      refine dropWhile_append_of_all hafter ?_
      rw [append_assoc]
      exact head?_sign_append_not_blank chomp ('}' :: rest) hpercent
    refine ⟨sign.sign ++ (before ++ (c :: more ++ (after ++ (chomp.sign ++ ['%', '}'] ++ rest)))),
      by simp, after ++ (chomp.sign ++ ['%', '}'] ++ rest), ?_,
      (chomp.width + 2, chomp), ?_, ?_, rfl⟩
    · rw [hsign, Chomp.width, drop_left]
      exact dropWhile_append_of_all hbefore (by simpa using hblank)
    · rw [hending, endDelimiter?_eq_some_iff (by decide) (by decide)]
      exact ⟨⟨rest, rfl⟩, rfl⟩
    · rw [hending]
      simp only [length_append, length_cons, length_nil, Chomp.width]
      omega

theorem wordTag?_endraw_iff (hstock : env.IsStock) :
    wordTag? env "endraw" tag = some (length, chomp) ↔
      ∃ opening, WordTag "endraw" opening chomp ∧ opening <+: tag ∧ length = opening.length :=
  wordTag?_eq_some_iff hstock (by decide) (by decide) (by decide)

theorem wordTag?_raw_iff (hstock : env.IsStock) :
    wordTag? env "raw" tag = some (length, chomp) ↔
      ∃ opening, WordTag "raw" opening chomp ∧ opening <+: tag ∧ length = opening.length :=
  wordTag?_eq_some_iff hstock (by decide) (by decide) (by decide)

/-- The first tag that holds only `endraw`, as the end of a raw block. -/
def endRaw? (env : Environment) : Text → Option (Nat × Nat × Chomp)
  | [] => none
  | c :: rest =>
      match wordTag? env "endraw" (c :: rest) with
      | some found => some (0, found)
      | none => (endRaw? env rest).map fun found => (found.1 + 1, found.2)

theorem wordTag?_eq_none_of_not_starts {word : Text} (h : env.blockStart.isPrefixOf text = false) :
    wordTag? env word text = none := by
  simp [wordTag?, after?, h]

/-- Inside the start of a tag no other tag starts, so looking at every place finds the same end. -/
theorem rawEnd?_eq_endRaw? (hstock : env.IsStock) (text : Text) :
    rawEnd? env 0 text = endRaw? env text := by
  induction hlength : text.length using Nat.strong_induction_on generalizing text with
  | _ length ih =>
      subst hlength
      cases text with
      | nil => rfl
      | cons c rest =>
          rw [rawEnd?, endRaw?]
          by_cases hfront : env.blockStart.isPrefixOf (c :: rest)
          · rw [if_pos hfront]
            cases hword : wordTag? env "endraw" (c :: rest) with
            | some found => rfl
            | none =>
                rw [hstock.blockStart] at hfront ⊢
                obtain ⟨more, hmore⟩ := List.isPrefixOf_iff_prefix.mp hfront
                obtain ⟨rfl, hrest⟩ := cons.inj hmore
                obtain rfl : '%' :: more = rest := hrest
                have hpercent : wordTag? env "endraw" ('%' :: more) = none :=
                  wordTag?_eq_none_of_not_starts (by rw [hstock.blockStart]; rfl)
                simp only [length_cons, length_nil, Nat.zero_add, Nat.add_one_sub_one,
                  rawEnd?, endRaw?, hpercent]
                rw [ih more.length (by simp) more rfl]
          · simp only [Bool.not_eq_true] at hfront
            rw [hfront, wordTag?_eq_none_of_not_starts hfront]
            simp only [Bool.false_eq_true, if_false]
            rw [ih rest.length (by simp) rest rfl]

theorem WordTag.no_brace (h : WordTag "endraw" opening chomp) :
    ∃ more, opening = '{' :: more ∧ '{' ∉ more := by
  obtain ⟨sign, before, after, hbefore, hafter, rfl⟩ := h
  have hblanks : ∀ text : Text, text.all isBlank → '{' ∉ text := by
    intro text hall hmem
    exact absurd (all_eq_true.mp hall '{' hmem) (by decide)
  have hsign : ∀ sign : Chomp, '{' ∉ sign.sign := by
    intro sign
    cases sign <;> decide
  refine ⟨'%' :: (sign.sign ++ (before ++ ("endraw".toList ++ (after ++
    (chomp.sign ++ ['%', '}']))))), rfl, ?_⟩
  simp only [mem_cons, mem_append, not_or]
  exact ⟨by decide, hsign _, hblanks _ hbefore, by decide, hblanks _ hafter, hsign _, by decide⟩

theorem endRaw?_bounds (hstock : env.IsStock) {start : Nat}
    (h : endRaw? env text = some (start, length, chomp)) :
    ∃ data opening after, text = data ++ (opening ++ after) ∧ data.length = start ∧
      opening.length = length ∧ WordTag "endraw" opening chomp := by
  induction text generalizing start with
  | nil => simp [endRaw?] at h
  | cons c rest ih =>
      rw [endRaw?] at h
      split at h
      · rename_i found hword
        obtain ⟨rfl, rfl⟩ : 0 = start ∧ found = (length, chomp) := by simpa using h
        obtain ⟨opening, htag, ⟨after, hafter⟩, rfl⟩ := (wordTag?_endraw_iff hstock).mp hword
        exact ⟨[], opening, after, by simp [hafter], rfl, rfl, htag⟩
      · obtain ⟨⟨inner, found⟩, hinner, heq⟩ := Option.map_eq_some_iff.mp h
        obtain ⟨rfl, rfl⟩ : inner + 1 = start ∧ found = (length, chomp) := by simpa using heq
        obtain ⟨data, opening, after, rfl, rfl, rfl, htag⟩ := ih hinner
        exact ⟨c :: data, opening, after, rfl, rfl, rfl, htag⟩

theorem prefix_of_not_mem {data : Text} (h : text <+: data ++ c :: rest) (hmem : c ∉ text) :
    text <+: data := by
  induction data generalizing text with
  | nil =>
      cases text with
      | nil => exact nil_prefix
      | cons d text =>
          obtain ⟨rfl, -⟩ := cons_prefix_cons.mp h
          simp at hmem
  | cons d data ih =>
      cases text with
      | nil => exact nil_prefix
      | cons e text =>
          obtain ⟨rfl, htext⟩ := cons_prefix_cons.mp h
          refine cons_prefix_cons.mpr ⟨rfl, ih htext fun hin => hmem ?_⟩
          exact mem_cons_of_mem _ hin

theorem endRaw?_wordTag (hstock : env.IsStock) (htag : WordTag "endraw" opening chomp)
    (after : Text) :
    endRaw? env (opening ++ after) = some (0, opening.length, chomp) := by
  obtain ⟨more, rfl, -⟩ := htag.no_brace
  have hword : wordTag? env "endraw" ('{' :: (more ++ after)) =
      some (('{' :: more).length, chomp) :=
    (wordTag?_endraw_iff hstock).mpr ⟨_, htag, ⟨after, rfl⟩, rfl⟩
  simp only [cons_append, endRaw?, hword]

theorem wordTag?_endraw_append_brace (hstock : env.IsStock) (c : Char) (data rest : Text) :
    wordTag? env "endraw" (c :: (data ++ '{' :: rest)) = wordTag? env "endraw" (c :: data) := by
  refine Option.ext fun found => ?_
  obtain ⟨length, chomp⟩ := found
  rw [wordTag?_endraw_iff hstock, wordTag?_endraw_iff hstock]
  constructor
  · rintro ⟨opening, htag, hfront, hlength⟩
    obtain ⟨more, rfl, hbrace⟩ := htag.no_brace
    obtain ⟨rfl, hmore⟩ := cons_prefix_cons.mp hfront
    exact ⟨_, htag, cons_prefix_cons.mpr ⟨rfl, prefix_of_not_mem hmore hbrace⟩, hlength⟩
  · rintro ⟨opening, htag, hfront, hlength⟩
    exact ⟨opening, htag, hfront.trans (prefix_append (c :: data) _), hlength⟩

theorem endRaw?_append_brace (hstock : env.IsStock) (data rest : Text) :
    endRaw? env (data ++ '{' :: rest) = (endRaw? env data).or
      ((endRaw? env ('{' :: rest)).map fun found => (found.1 + data.length, found.2)) := by
  induction data with
  | nil => simp [endRaw?]
  | cons c data ih =>
      rw [cons_append, endRaw?, wordTag?_endraw_append_brace hstock, ih]
      generalize endRaw? env ('{' :: rest) = behind
      rw [endRaw?]
      cases wordTag? env "endraw" (c :: data) with
      | some found => rfl
      | none =>
          cases endRaw? env data with
          | some found => rfl
          | none => simp [Function.comp_def, Nat.add_assoc]

theorem endRaw?_append (hstock : env.IsStock) {data after : Text}
    (htag : WordTag "endraw" opening chomp)
    (h : endRaw? env (data ++ (opening ++ after)) = some (data.length, opening.length, chomp))
    (after' : Text) :
    endRaw? env (data ++ (opening ++ after')) = some (data.length, opening.length, chomp) := by
  have hsplit : ∀ after, endRaw? env (data ++ (opening ++ after)) =
      (endRaw? env data).or (some (data.length, opening.length, chomp)) := by
    intro after
    have hopening := endRaw?_wordTag hstock htag after
    obtain ⟨more, rfl, -⟩ := htag.no_brace
    rw [cons_append] at hopening ⊢
    rw [endRaw?_append_brace hstock, hopening]
    simp
  rw [hsplit] at h ⊢
  exact h

theorem position?_commentEnd_iff {body : Text} (rest : Text) :
    position? ['#', '}'] (body ++ '#' :: '}' :: rest) = some body.length ↔
      position? ['#', '}'] body = none := by
  induction body with
  | nil => simp [position?]
  | cons c body ih =>
      have hfront : ['#', '}'].isPrefixOf (c :: (body ++ '#' :: '}' :: rest)) =
          ['#', '}'].isPrefixOf (c :: body) := by
        cases body <;> simp [isPrefixOf]
      rw [cons_append, position?, position?, hfront]
      split
      · simp
      · simp [ih]

theorem exists_of_position?_commentEnd {text : Text} {start : Nat}
    (h : position? ['#', '}'] text = some start) :
    ∃ body rest, text = body ++ '#' :: '}' :: rest ∧ body.length = start := by
  induction text generalizing start with
  | nil => simp [position?] at h
  | cons c text ih =>
      rw [position?] at h
      split at h
      · rename_i hfront
        obtain ⟨rest, hrest⟩ := List.isPrefixOf_iff_prefix.mp hfront
        obtain rfl := Option.some.inj h
        exact ⟨[], rest, hrest.symm, rfl⟩
      · obtain ⟨inner, hinner, rfl⟩ := Option.map_eq_some_iff.mp h
        obtain ⟨body, rest, rfl, rfl⟩ := ih hinner
        exact ⟨c :: body, rest, rfl, rfl⟩

end Scan

end JinjaLayout
