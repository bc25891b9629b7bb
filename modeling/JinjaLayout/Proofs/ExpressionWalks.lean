import Mathlib
import JinjaLayout.Proofs.MatchedBrackets
import JinjaLayout.Proofs.Walks

/-!
The walk takes the tokens of an expression part by part. Its opening parentheses may have been taken
before, together with those of what stands around it, so there are two ways to come to an expression:
before its first token, or behind its opening parentheses.
-/

namespace JinjaLayout.Alignment

open Spelling Grammar List

variable {α β : Type}

/-! ### Opening parentheses -/

def opens (ts : List Token) : List Token :=
  ts.takeWhile (·.isOperator "(")

section Opens

variable {ts us : List Token} {token : Token}

theorem opens_cons_of_not (h : token.isOperator "(" = false) : opens (token :: ts) = [] := by
  rw [opens, takeWhile_cons, h]
  rfl

theorem opens_append_of_mem (hmem : token ∈ ts) (h : token.isOperator "(" = false) :
    opens (ts ++ us) = opens ts := by
  unfold opens
  rw [takeWhile_append, if_neg]
  intro hlength
  have hall : ts.takeWhile (·.isOperator "(") = ts :=
    (List.takeWhile_prefix _).eq_of_length hlength
  have htoken := mem_takeWhile_imp (hall ▸ hmem)
  rw [h] at htoken
  cases htoken

theorem not_bracket_of_isPlain (h : isPlain token) {pair : Text × Text}
    (hpair : pair ∈ brackets) : token.isOperator pair.1 = false ∧ token.isOperator pair.2 = false := by
  have hother : ∀ kind, token.isKind kind → kind ≠ .operator → ∀ symbol,
      token.isOperator symbol = false := by
    intro kind hkind hne symbol
    exact Bool.eq_false_iff.mpr fun hsymbol =>
      hne (isKind_unique hkind (isKind_of_isOperator hsymbol))
  unfold isPlain at h
  simp only [Bool.or_eq_true, Bool.and_eq_true] at h
  rcases h with (((hkind | hkind) | hkind) | hkind) | ⟨-, hbrackets⟩
  · exact ⟨hother _ hkind (by decide) _, hother _ hkind (by decide) _⟩
  · exact ⟨hother _ hkind (by decide) _, hother _ hkind (by decide) _⟩
  · exact ⟨hother _ hkind (by decide) _, hother _ hkind (by decide) _⟩
  · exact ⟨hother _ hkind (by decide) _, hother _ hkind (by decide) _⟩
  · simpa using all_eq_true.mp hbrackets pair hpair

theorem isOperator_eq_false_of_isPlain (h : isPlain token) : token.isOperator "(" = false :=
  (not_bracket_of_isPlain h (mem_cons_self (a := ("(".toList, ")".toList)))).1

theorem notNext_of_isPlain (h : isPlain token) : NotNext (·.isOperator ")") (token :: us) := by
  have hnot : token.isOperator ")" = false :=
    (not_bracket_of_isPlain h (mem_cons_self (a := ("(".toList, ")".toList)))).2
  simpa [NotNext] using hnot

theorem opens_append_of_matched (h : Matched ts) (hne : ts ≠ []) : opens (ts ++ us) = opens ts := by
  cases h with
  | nil => exact absurd rfl hne
  | plain htoken _ =>
      exact opens_append_of_mem mem_cons_self (isOperator_eq_false_of_isPlain htoken)
  | @pair opening closing pair ts us hpair _ hclosing =>
      have hmem : closing ∈ opening :: (ts ++ closing :: us) := by simp
      refine opens_append_of_mem hmem ?_
      refine Bool.eq_false_iff.mpr fun hopening => ?_
      have heq := isOperator_unique hclosing hopening
      revert hpair
      simp only [brackets, mem_cons, not_mem_nil, or_false]
      rintro (rfl | rfl | rfl) <;> exact absurd heq (by decide)

end Opens

/-! ### Coming to an expression -/

section Visits

variable (table : List Token)

/-- The walk stands behind those of the tokens `ts` that have been taken as parentheses around an
expression. -/
abbrev Loaded (loaded done ts us : List Token) (groups : List Nat) (walk : Walk) : Prop :=
  Inside table (done ++ loaded) (ts.drop loaded.length ++ us)
    ((loaded.map Token.index).reverse ++ groups) walk

/-- The visitor takes the tokens of the expression, of which some may have been taken before, and
closes the parentheses around it. It must see that these are all. -/
def VisitsFrom (loaded : List Token) (visit : Visitor) (place : Place) (expr : Expr)
    (ts us : List Token) : Prop :=
  ∀ done groups walk, Loaded table loaded done ts us groups walk → Past groups done →
    NotNext (·.isOperator ")") us ∨ Apart groups done →
    Walks (visit expr) walk fun result next =>
      result.2 = spanOf ts ∧ Spells True place result.1 ts us ∧ result.1.kind = expr.kind ∧
        Inside table (done ++ ts) us groups next

/-- The visitor finds its way through expressions. -/
structure Guided (visit : Visitor) : Prop where
  visits : ∀ loaded place expr ts us, Spells False place expr ts us →
    loaded = [] ∨ loaded = opens ts → VisitsFrom table loaded visit place expr ts us
  empty : ∀ context layout done us groups walk, Inside table done us groups walk →
    NotNext (·.isOperator "(") us → NotNext (·.isOperator ")") us →
    Walks (visit (.tuple [] context layout)) walk fun result next =>
      (∃ layout', layout'.span = some ((spanOf done).2, (spanOf done).2) ∧
        result = (.tuple [] context layout', ((spanOf done).2, (spanOf done).2))) ∧
        Inside table done us groups next

/-- The part takes the tokens for the expression behind their opening parentheses. -/
def Continues (part : Covering α) (ts us : List Token) (good : α → Prop) : Prop :=
  ∀ done groups extent walk, Loaded table (opens ts) done ts us groups walk → Past groups done →
    Covers part extent walk fun value extent' next =>
      good value ∧ extent' = extent.over ts ∧ Inside table (done ++ ts) us groups next

variable {table}

theorem loaded_nil {done ts us : List Token} {groups : List Nat} {walk : Walk} :
    Loaded table [] done ts us groups walk ↔ Inside table done (ts ++ us) groups walk := by
  unfold Loaded
  simp

theorem loaded_append {done ts ts' us : List Token} {groups : List Nat} {walk : Walk}
    (hmatched : Matched ts) (hne : ts ≠ []) :
    Loaded table (opens (ts ++ ts')) done (ts ++ ts') us groups walk ↔
      Loaded table (opens ts) done ts (ts' ++ us) groups walk := by
  have hopens : opens (ts ++ ts') = opens ts := opens_append_of_matched hmatched hne
  have hle : (opens ts).length ≤ ts.length := (List.takeWhile_prefix _).length_le
  unfold Loaded
  rw [hopens, drop_append_of_le_length hle, append_assoc (ts.drop _)]

namespace Continues

variable {ts ts' us : List Token} {token : Token}

theorem mono {part : Covering α} {good good' : α → Prop} (h : Continues table part ts us good)
    (himp : ∀ value, good value → good' value) : Continues table part ts us good' := by
  intro done groups extent walk hwalk hgroups
  exact (h done groups extent walk hwalk hgroups).mono fun value _ _ hgood =>
    ⟨himp value hgood.1, hgood.2⟩

protected theorem pure {value : α} {good : α → Prop} (h : good value) :
    Continues table (Pure.pure value) [] us good := by
  intro done groups extent walk hwalk hgroups
  exact .pure ⟨h, Extent.over_nil.symm, by simpa using loaded_nil.mp hwalk⟩

theorem map {part : Covering α} {f : α → β} {good : β → Prop}
    (h : Continues table part ts us fun value => good (f value)) :
    Continues table (do return f (← part)) ts us good := by
  intro done groups extent walk hwalk hgroups
  exact .bind ((h done groups extent walk hwalk hgroups).mono fun _ _ _ hgood =>
    .pure hgood)

theorem nextFits {kind : TokenKind} {value : Option Text} {second : Bool → Covering β}
    {good : β → Prop} (hopens : opens ts = [])
    (h : Continues table (second ((ts ++ us).head?.any fun token => Cursor.fits token kind value)) ts
      us good) :
    Continues table (liftM (Alignment.nextFits kind value) >>= second) ts us good := by
  intro done groups extent walk hwalk hgroups
  have hwalk' : Inside table done (ts ++ us) groups walk := loaded_nil.mp (hopens ▸ hwalk)
  refine .bind_lift (walks_nthFits hwalk' ?_)
  rw [← head?_eq_getElem?]
  exact h done groups extent walk hwalk hgroups

theorem nextIs_of {symbol : Text} {second : Bool → Covering β} {good : β → Prop}
    (htoken : token.isOperator symbol) (hsymbol : symbol ≠ "(".toList)
    (h : Continues table (second true) (token :: ts) us good) :
    Continues table (liftM (Alignment.nextIs symbol) >>= second) (token :: ts) us good := by
  have hopening : token.isOperator "(" = false :=
    Bool.eq_false_iff.mpr fun hopening => hsymbol (isOperator_unique htoken hopening)
  refine nextFits (opens_cons_of_not hopening) ?_
  have hhit : ((token :: ts ++ us).head?.any fun token =>
      Cursor.fits token .operator (some symbol)) = true := htoken
  rwa [hhit]

theorem nextIs_not {symbol : Text} {second : Bool → Covering β} {good : β → Prop}
    (hopens : opens ts = []) (hnext : NotNext (·.isOperator symbol) (ts ++ us))
    (h : Continues table (second false) ts us good) :
    Continues table (liftM (Alignment.nextIs symbol) >>= second) ts us good := by
  refine nextFits hopens ?_
  have hmiss : ((ts ++ us).head?.any fun token =>
      Cursor.fits token .operator (some symbol)) = false := any_head?_of_notNext hnext
  rwa [hmiss]

section Table

variable (htable : IsTable table)

include htable

theorem bind_of {first : Covering α} {second : α → Covering β} {middle : α → Prop}
    {good : β → Prop} (hmatched : Matched ts) (hne : ts ≠ [])
    (h : Continues table first ts (ts' ++ us) middle)
    (hsecond : ∀ value, middle value → Takes table (second value) ts' us good) :
    Continues table (first >>= second) (ts ++ ts') us good := by
  intro done groups extent walk hwalk hgroups
  rw [loaded_append hmatched hne] at hwalk
  refine .bind ((h done groups extent walk hwalk hgroups).mono ?_)
  rintro value _ next ⟨hvalue, rfl, hnext⟩
  have hincreasing := hnext.increasing htable
  rw [append_assoc] at hincreasing
  have htaken := (pairwise_append.mp hincreasing).2.1
  rw [← append_assoc] at htaken
  have hdone : Increasing (done ++ ts) := by
    rw [← append_assoc] at hincreasing
    exact (pairwise_append.mp hincreasing).1
  refine (hsecond value hvalue (done ++ ts) groups _ next hnext
    (hgroups.apart hne hdone)).mono ?_
  rintro result _ last ⟨hresult, rfl, hlast⟩
  exact ⟨hresult, Extent.over_append (pairwise_append.mp htaken).1, by simpa using hlast⟩

theorem consume_bind {kind : TokenKind} {value : Option Text} {second : Token → Covering β}
    {good : β → Prop} (hopening : token.isOperator "(" = false)
    (hfits : Cursor.fits token kind value) (h : Takes table (second token) ts us good) :
    Continues table (consume kind value >>= second) (token :: ts) us good := by
  intro done groups extent walk hwalk hgroups
  have hwalk' : Inside table done (token :: (ts ++ us)) groups walk :=
    loaded_nil.mp (opens_cons_of_not hopening ▸ hwalk)
  refine .bind (.bind_lift (walks_expect htable hwalk' hfits fun next hnext => ?_))
  refine .bind_modify (.pure ?_)
  have hincreasing := hnext.increasing htable
  have hdone : Increasing (done ++ [token]) := (pairwise_append.mp hincreasing).1
  have htaken : Increasing ([token] ++ ts) := by
    rw [append_assoc, ← append_assoc [token]] at hincreasing
    exact (pairwise_append.mp (pairwise_append.mp hincreasing).2.1).1
  refine (h (done ++ [token]) groups _ next hnext (hgroups.apart (by simp) hdone)).mono ?_
  rintro result _ last ⟨hresult, rfl, hlast⟩
  refine ⟨hresult, ?_, by simpa using hlast⟩
  exact Extent.over_append htaken

theorem operator_bind {symbol : Text} {second : Unit → Covering β} {good : β → Prop}
    (htoken : token.isOperator symbol) (hsymbol : symbol ≠ "(".toList)
    (h : Takes table (second ()) ts us good) :
    Continues table (consumeOperator symbol >>= second) (token :: ts) us good := by
  have hopening : token.isOperator "(" = false :=
    Bool.eq_false_iff.mpr fun hopening => hsymbol (isOperator_unique htoken hopening)
  unfold consumeOperator
  rw [bind_assoc]
  exact consume_bind htable hopening htoken h

theorem name_bind {word : Text} {second : Unit → Covering β} {good : β → Prop}
    (htoken : token.isName word) (h : Takes table (second ()) ts us good) :
    Continues table (consumeName word >>= second) (token :: ts) us good := by
  unfold consumeName
  rw [bind_assoc]
  exact consume_bind htable (isOperator_eq_false_of_isPlain (isPlain_of_isName htoken)) htoken h

end Table

end Continues

/-! ### Parts -/

section Parts

variable {visit : Visitor} {place : Place} {expr : Expr} {ts us : List Token}

theorem takes_part (h : VisitsFrom table [] visit place expr ts us) (hne : ts ≠ []) :
    Takes table (part visit expr) ts us fun value =>
      Spells True place value ts us ∧ value.kind = expr.kind := by
  intro done groups extent walk hwalk hgroups
  have hpast : Past groups done := fun group hgroup => by
    have hapart := hgroups group hgroup
    omega
  refine .bind_lift ((h done groups walk (loaded_nil.mpr hwalk) hpast (.inr hgroups)).mono ?_)
  rintro ⟨value, span⟩ next ⟨rfl, hvalue, hkind, hnext⟩
  refine .bind_modify (.pure ⟨⟨hvalue, hkind⟩, ?_, hnext⟩)
  exact (Extent.over_of_ne_nil hne).symm

theorem continues_part (h : VisitsFrom table (opens ts) visit place expr ts us) (hne : ts ≠ [])
    (hnext : NotNext (·.isOperator ")") us) :
    Continues table (part visit expr) ts us fun value =>
      Spells True place value ts us ∧ value.kind = expr.kind := by
  intro done groups extent walk hwalk hgroups
  refine .bind_lift ((h done groups walk hwalk hgroups (.inl hnext)).mono ?_)
  rintro ⟨value, span⟩ next ⟨rfl, hvalue, hkind, hnext⟩
  refine .bind_modify (.pure ⟨⟨hvalue, hkind⟩, ?_, hnext⟩)
  exact (Extent.over_of_ne_nil hne).symm

end Parts

/-! ### Lists -/

/-- Values of which the last has a comma behind it if more follows. -/
def Separated (more : Bool) (spelled : Spelling α) : Spelling (List α) :=
  if more then Commas spelled else Listed spelled

namespace Separated

variable {more : Bool} {spelled : Spelling α} {value : α} {values others : List α}
  {ts us : List Token}

theorem nil_iff : Separated more spelled [] ts us ↔ ts = [] := by
  constructor
  · intro h
    cases more <;> cases h <;> rfl
  · rintro rfl
    cases more
    · exact Listed.nil
    · exact Commas.nil

theorem single_iff : Separated more spelled [value] ts us ↔
    (more = false ∧ spelled value ts us ∧ NotNext (·.isOperator ",") us) ∨
      ∃ ts' comma, ts = ts' ++ [comma] ∧ spelled value ts' (comma :: us) ∧
        comma.isOperator "," := by
  constructor
  · intro h
    cases more with
    | false =>
        cases h with
        | last hvalue hnext => exact .inl ⟨rfl, hvalue, hnext⟩
        | more hvalue hcomma hvalues =>
            cases hvalues
            exact .inr ⟨_, _, rfl, hvalue, hcomma⟩
    | true =>
        cases h with
        | cons hvalue hcomma hvalues =>
            cases hvalues
            exact .inr ⟨_, _, rfl, hvalue, hcomma⟩
  · rintro (⟨rfl, hvalue, hnext⟩ | ⟨ts', comma, rfl, hvalue, hcomma⟩)
    · exact Listed.last hvalue hnext
    · cases more with
      | false => exact Listed.more (by simpa using hvalue) hcomma .nil
      | true => exact Commas.cons (by simpa using hvalue) hcomma .nil

theorem cons_iff : Separated more spelled (value :: values) ts us ↔
    ∃ ts' ts'', ts = ts' ++ ts'' ∧
      Separated (more || !values.isEmpty) spelled [value] ts' (ts'' ++ us) ∧
      Separated more spelled values ts'' us := by
  constructor
  · intro h
    cases more with
    | false =>
        cases h with
        | last hvalue hnext => exact ⟨ts, [], by simp, .last hvalue hnext, .nil⟩
        | @more _ _ comma ts ts' _ hvalue hcomma hvalues =>
            exact ⟨ts ++ [comma], ts', by simp,
              single_iff.mpr (.inr ⟨ts, comma, rfl, hvalue, hcomma⟩), hvalues⟩
    | true =>
        cases h with
        | @cons _ _ comma ts ts' _ hvalue hcomma hvalues =>
            exact ⟨ts ++ [comma], ts', by simp,
              single_iff.mpr (.inr ⟨ts, comma, rfl, hvalue, hcomma⟩), hvalues⟩
  · rintro ⟨ts', ts'', rfl, hfirst, hvalues⟩
    rcases single_iff.mp hfirst with ⟨hlast, hvalue, hnext⟩ | ⟨ts, comma, rfl, hvalue, hcomma⟩
    · obtain ⟨rfl, hempty⟩ : more = false ∧ values = [] := by simpa using hlast
      subst hempty
      cases hvalues
      simpa [Separated] using Listed.last hvalue hnext
    · cases more with
      | false => simpa [Separated] using Listed.more hvalue hcomma hvalues
      | true => simpa [Separated] using Commas.cons hvalue hcomma hvalues

theorem append_iff : Separated more spelled (values ++ others) ts us ↔
    ∃ ts' ts'', ts = ts' ++ ts'' ∧
      Separated (more || !others.isEmpty) spelled values ts' (ts'' ++ us) ∧
      Separated more spelled others ts'' us := by
  induction values generalizing ts with
  | nil => simp [nil_iff]
  | cons value values ih =>
      have hmore : (more || !(values ++ others).isEmpty) =
          ((more || !others.isEmpty) || !values.isEmpty) := by
        cases values <;> cases others <;> simp
      rw [cons_append, cons_iff, hmore]
      constructor
      · rintro ⟨ts', ts'', rfl, hvalue, hvalues⟩
        obtain ⟨ts₁, ts₂, rfl, hfirst, hsecond⟩ := ih.mp hvalues
        rw [append_assoc] at hvalue
        exact ⟨ts' ++ ts₁, ts₂, by simp, cons_iff.mpr ⟨ts', ts₁, rfl, hvalue, hfirst⟩, hsecond⟩
      · rintro ⟨ts', ts'', rfl, hfirst, hsecond⟩
        obtain ⟨ts₁, ts₂, rfl, hvalue, hvalues⟩ := cons_iff.mp hfirst
        refine ⟨ts₁, ts₂ ++ ts'', by simp, ?_, ih.mpr ⟨ts₂, ts'', rfl, hvalues, hsecond⟩⟩
        simpa using hvalue

theorem map_iff {γ : Type} {f : γ → α} {values : List γ} : Separated more spelled (values.map f) ts us ↔
    Separated more (fun value => spelled (f value)) values ts us := by
  induction values generalizing ts with
  | nil => simp [nil_iff]
  | cons value values ih =>
      rw [map_cons, cons_iff, cons_iff]
      simp only [single_iff, ih, isEmpty_map]

end Separated

theorem isEmpty_eq_of_length_eq {values : List α} {others : List β}
    (h : values.length = others.length) : values.isEmpty = others.isEmpty := by
  cases values <;> cases others <;> simp at h ⊢

/-- What takes a value with the comma behind it, if there is one. -/
def TakesItem (table : List Token) (spelled : Spelling α) (spelled' : Spelling β)
    (f : α → Covering β) : Prop :=
  ∀ more value ts us, Separated more spelled [value] ts us →
    Takes table (f value) ts us fun result => Separated more spelled' [result] ts us

section Lists

variable {spelled : Spelling α} {spelled' : Spelling β} {f : α → Covering β} {values : List α}
  {ts us : List Token} (htable : IsTable table)

include htable

theorem takesItem_of {γ : Type} {node : α → Covering γ} (g : α → γ → β)
    (h : ∀ value ts us, spelled value ts us →
      Takes table (node value) ts us fun result => spelled' (g value result) ts us) :
    TakesItem table spelled spelled' fun value => do
      let result ← node value
      consumeIfNext ","
      return g value result := by
  intro more value ts us hvalue
  rcases Separated.single_iff.mp hvalue with ⟨rfl, hvalue, hnext⟩ | ⟨ts, comma, rfl, hvalue, hcomma⟩
  · have hlast : ∀ result, spelled' (g value result) ts us →
        Takes table (do consumeIfNext ","; return g value result) ([] ++ []) us
          fun result => Separated false spelled' [result] ts us :=
      fun result hresult => .bind_of htable (.consumeIfNext_not hnext) fun _ _ =>
        Takes.pure (Separated.single_iff.mpr (.inl ⟨rfl, hresult, hnext⟩))
    simpa using Takes.bind_of htable (h value ts us hvalue) hlast
  · refine .bind_of htable (h value ts (comma :: us) hvalue) fun result hresult => ?_
    refine .bind_of htable (.consumeIfNext_of htable hcomma) fun _ _ => .pure ?_
    exact Separated.single_iff.mpr (.inr ⟨ts, comma, rfl, hresult, hcomma⟩)

theorem Separated.takes {more : Bool} (hf : TakesItem table spelled spelled' f)
    (h : Separated more spelled values ts us) :
    Takes table (values.mapM f) ts us fun results =>
      Separated more spelled' results ts us ∧ results.length = values.length := by
  induction values generalizing ts with
  | nil =>
      obtain rfl := nil_iff.mp h
      exact .pure ⟨nil_iff.mpr rfl, rfl⟩
  | cons value values ih =>
      obtain ⟨ts', ts'', rfl, hvalue, hvalues⟩ := cons_iff.mp h
      rw [mapM_cons]
      refine .bind_of htable (hf _ value ts' _ hvalue) fun result hresult => ?_
      refine .map ((ih hvalues).mono ?_)
      rintro results ⟨hresults, hlength⟩
      refine ⟨cons_iff.mpr ⟨ts', ts'', rfl, ?_, hresults⟩, by simp [hlength]⟩
      rwa [isEmpty_eq_of_length_eq hlength]

theorem Chained.takes
    (hf : ∀ value ts us, spelled value ts us →
      Takes table (f value) ts us fun result => spelled' result ts us)
    (h : Chained spelled values ts us) :
    Takes table (values.mapM f) ts us fun results =>
      Chained spelled' results ts us ∧ results.length = values.length := by
  induction h with
  | nil => exact .pure ⟨.nil, rfl⟩
  | @cons value values ts ts' us hvalue _ ih =>
      rw [mapM_cons]
      refine .bind_of htable (hf value ts _ hvalue) fun result hresult => ?_
      refine .map (ih.mono ?_)
      rintro results ⟨hresults, hlength⟩
      exact ⟨.cons hresult hresults, by simp [hlength]⟩

end Lists

/-! ### Arguments -/

section Arguments

abbrev Plain : Spelling Argument := ArgumentSpelled False (Spells False)

abbrev Marked : Spelling Argument := ArgumentSpelled True (Spells True)

variable {visit : Visitor} (hguided : Guided table visit) (htable : IsTable table)
  {ts us : List Token}

include hguided

theorem Guided.takes {place : Place} {expr : Expr} (h : Spells False place expr ts us) :
    Takes table (part visit expr) ts us fun value =>
      Spells True place value ts us ∧ value.kind = expr.kind :=
  takes_part (hguided.visits [] place expr ts us h (.inl rfl)) h.ne_nil

include htable

theorem takesItem_part (place : Place) :
    TakesItem table (Spells False place) (Spells True place) fun item => do
      let item ← part visit item
      consumeIfNext ","
      return item :=
  takesItem_of htable (fun _ result => result) fun _ _ _ h =>
    (hguided.takes h).mono fun _ hresult => hresult.1

theorem takes_keyword {node : Keyword Expr} (h : Plain (.keyword node) ts us) :
    Takes table (keyword visit node) ts us fun result => Marked (.keyword result) ts us := by
  cases h with
  | @keyword key value layout name equals ts us hname hequals hvalue _ =>
      have hinner : Takes table (do
          consumeName key
          consumeOperator "="
          part visit value) (name :: equals :: ts) us fun value => Spells True .value value ts us :=
        .name_bind htable hname (.operator_bind htable hequals
          ((hguided.takes hvalue).mono fun _ hresult => hresult.1))
      refine .map ((hinner.covering (by simp)).mono ?_)
      rintro ⟨value, span⟩ ⟨hvalue, rfl⟩
      exact .keyword hname hequals hvalue fun _ => rfl

theorem takesItem_keyword :
    TakesItem table (fun node => Plain (.keyword node)) (fun node => Marked (.keyword node))
      (keywords.single visit) :=
  takesItem_of htable (fun _ result => result) fun _ _ _ h => takes_keyword hguided htable h

theorem takesItem_starred {stars : Text} {argument : Expr → Argument}
    (hargument : ∀ marked spelled value ts us, ArgumentSpelled marked spelled (argument value) ts us ↔
      Behind (·.isOperator stars) (spelled .value) value ts us) :
    TakesItem table (fun expr => Plain (argument expr)) (fun expr => Marked (argument expr))
      (starred visit stars) := by
  have heq : starred visit stars = fun expr => do
      let result ← (do consumeOperator stars; part visit expr)
      consumeIfNext ","
      return result := by
    funext expr
    simp [starred]
  rw [heq]
  refine takesItem_of htable (fun _ result => result) fun value ts us h => ?_
  obtain ⟨hstar, hvalue⟩ := (hargument _ _ _ _ _).mp h
  refine .operator_bind htable hstar ((hguided.takes hvalue).mono fun result hresult => ?_)
  exact (hargument _ _ _ _ _).mpr (.mk hstar hresult.1)

theorem takesItem_star :
    TakesItem table (fun expr => Plain (.star expr)) (fun expr => Marked (.star expr))
      (starred visit "*") := by
  refine takesItem_starred hguided htable fun marked spelled value ts us => ⟨?_, ?_⟩
  · rintro ⟨⟩
    exact .mk ‹_› ‹_›
  · rintro ⟨hstar, hvalue⟩
    exact .star hstar hvalue

theorem takesItem_doubleStar :
    TakesItem table (fun expr => Plain (.doubleStar expr)) (fun expr => Marked (.doubleStar expr))
      (starred visit "**") := by
  refine takesItem_starred hguided htable fun marked spelled value ts us => ⟨?_, ?_⟩
  · rintro ⟨⟩
    exact .mk ‹_› ‹_›
  · rintro ⟨hstar, hvalue⟩
    exact .doubleStar hstar hvalue

variable {more : Bool} {arguments : Arguments Expr}

theorem takes_keywords {nodes : List (Keyword Expr)}
    (h : Separated more Plain (nodes.map .keyword) ts us) :
    Takes table (keywords visit none nodes) ts us fun result =>
      result.2 = none ∧ Separated more Marked (result.1.map .keyword) ts us ∧
        result.1.length = nodes.length := by
  have heq : ∀ nodes : List (Keyword Expr), keywords visit none nodes = do
      return (← nodes.mapM (keywords.single visit), none) := by
    intro nodes
    induction nodes with
    | nil => simp [keywords]
    | cons node nodes ih => simp [keywords, starredHere, ih]
  rw [heq]
  refine Takes.map ((Separated.takes htable (takesItem_keyword hguided htable)
    (Separated.map_iff.mp h)).mono ?_)
  rintro results ⟨hresults, hlength⟩
  exact ⟨rfl, Separated.map_iff.mpr hresults, hlength⟩

omit hguided htable in
theorem exists_cons_of_star {star : Expr} (h : Separated more Plain [.star star] ts us) :
    ∃ token rest, ts = token :: rest ∧ token.isOperator "*" := by
  rcases Separated.single_iff.mp h with ⟨-, hvalue, -⟩ | ⟨ts, comma, rfl, hvalue, -⟩
  · cases hvalue with
    | star hstar => exact ⟨_, _, rfl, hstar⟩
  · cases hvalue with
    | star hstar => exact ⟨_, _, rfl, hstar⟩

omit hguided htable in
theorem exists_cons_of_keyword {node : Keyword Expr}
    (h : Separated more Plain [.keyword node] ts us) :
    ∃ token rest, ts = token :: rest ∧ token.isOperator "*" = false := by
  have hnot : ∀ {token : Token} {key : Text}, token.isName key = true →
      token.isOperator "*" = false := by
    intro token key htoken
    refine Bool.eq_false_iff.mpr fun hstar => ?_
    exact absurd (isKind_unique (isKind_of_isName htoken) (isKind_of_isOperator hstar)) (by decide)
  rcases Separated.single_iff.mp h with ⟨-, hvalue, -⟩ | ⟨ts, comma, rfl, hvalue, -⟩
  · cases hvalue with
    | keyword hname => exact ⟨_, _, rfl, hnot hname⟩
  · cases hvalue with
    | keyword hname => exact ⟨_, _, rfl, hnot hname⟩

theorem takes_keywordsAndStar {before after : List (Keyword Expr)} {star : Expr}
    (h : Separated more Plain (before.map .keyword ++ .star star :: after.map .keyword) ts us) :
    Takes table (keywords visit (some star) (before ++ after)) ts us fun result =>
      ∃ before' star' after', result = (before' ++ after', some star') ∧
        before'.length + after'.length = before.length + after.length ∧
        Separated more Marked (before'.map .keyword ++ .star star' :: after'.map .keyword) ts us := by
  induction before generalizing ts with
  | nil =>
      obtain ⟨ts', ts'', rfl, hstar, hafter⟩ := Separated.cons_iff.mp h
      have hstarred := takesItem_star hguided htable _ _ _ _ (Separated.map_iff.mp hstar)
      cases after with
      | nil =>
          obtain rfl := Separated.nil_iff.mp hafter
          rw [append_nil ts']
          refine Takes.map (Takes.map (hstarred.mono fun star' hstar' => ?_))
          refine ⟨[], star', [], rfl, rfl, ?_⟩
          simpa using Separated.map_iff.mpr hstar'
      | cons node nodes =>
          obtain ⟨token, rest, rfl, htoken⟩ := exists_cons_of_star hstar
          have hhere : Takes table (starredHere visit (some star)) (token :: rest) (ts'' ++ us)
              fun result => ∃ star', result = some star' ∧
                Separated (more || !((node :: nodes).map Argument.keyword).isEmpty)
                  (fun expr => Marked (.star expr)) [star'] (token :: rest) (ts'' ++ us) := by
            refine Takes.nextIs_of htoken ?_
            exact Takes.map (hstarred.mono fun star' hstar' => ⟨star', rfl, hstar'⟩)
          refine Takes.bind_of htable hhere ?_
          rintro _ ⟨star', rfl, hstar'⟩
          refine Takes.map ((Separated.takes htable (takesItem_keyword hguided htable)
            (Separated.map_iff.mp hafter)).mono ?_)
          rintro results ⟨hresults, hlength⟩
          refine ⟨[], star', results, rfl, by simpa using hlength, ?_⟩
          refine Separated.cons_iff.mpr ⟨_, ts'', rfl, ?_, Separated.map_iff.mpr hresults⟩
          rw [isEmpty_map, isEmpty_eq_of_length_eq hlength, ← isEmpty_map]
          exact Separated.map_iff.mpr hstar'
  | cons node before ih =>
      rw [map_cons, cons_append] at h
      obtain ⟨ts', ts'', rfl, hnode, hothers⟩ := Separated.cons_iff.mp h
      have hsingle := takesItem_keyword hguided htable _ _ _ _ (Separated.map_iff.mp hnode)
      obtain ⟨token, rest, rfl, htoken⟩ := exists_cons_of_keyword hnode
      have hhere : Takes table (starredHere visit (some star)) [] ((token :: rest ++ ts'') ++ us)
          (· = none) := by
        exact Takes.nextIs_not (by simpa [NotNext] using htoken) (Takes.pure rfl)
      refine Takes.bind_nothing htable hhere ?_
      rintro _ rfl
      refine Takes.bind_of htable hsingle fun node' hnode' => ?_
      refine Takes.map ((ih hothers).mono ?_)
      rintro _ ⟨before', star', after', rfl, hlength, hresults⟩
      refine ⟨node' :: before', star', after', rfl, ?_, ?_⟩
      · simp only [length_cons]
        omega
      · rw [map_cons, cons_append]
        refine Separated.cons_iff.mpr ⟨_, ts'', rfl, ?_, hresults⟩
        have hmore : ∀ (front : List Argument) (argument : Argument) (back : List Argument),
            (front ++ argument :: back).isEmpty = false := by simp
        rw [hmore] at hnode' ⊢
        exact Separated.map_iff.mpr hnode'

omit hguided htable in
inductive Middle : List (Keyword Expr) → Option Expr → List Argument → Prop where
  | plain {nodes : List (Keyword Expr)} : Middle nodes none (nodes.map .keyword)
  | starred {before after : List (Keyword Expr)} {star : Expr} :
      Middle (before ++ after) (some star)
        (before.map .keyword ++ .star star :: after.map .keyword)

omit hguided htable in
theorem arranged_iff {items : List Argument} :
    Arranged arguments items ↔ ∃ middle, Middle arguments.keywords arguments.star middle ∧
      items = arguments.positional.map .positional ++
        (middle ++ arguments.doubleStar.toList.map .doubleStar) := by
  constructor
  · rintro ⟨⟩
    · exact ⟨_, .plain, rfl⟩
    · exact ⟨_, .starred, by simp⟩
  · obtain ⟨positional, nodes, star, doubleStar⟩ := arguments
    rintro ⟨middle, hmiddle, rfl⟩
    cases hmiddle with
    | plain => exact .plain
    | @starred before after star =>
        simpa using @Arranged.starred positional before after star doubleStar

theorem Middle.takes {nodes : List (Keyword Expr)} {star : Option Expr} {items : List Argument}
    (hitems : Middle nodes star items) (h : Separated more Plain items ts us) :
    Takes table (keywords visit star nodes) ts us fun result =>
      ∃ items', Middle result.1 result.2 items' ∧ items'.length = items.length ∧
        Separated more Marked items' ts us := by
  cases hitems with
  | plain =>
      refine (takes_keywords hguided htable h).mono ?_
      rintro ⟨nodes', _⟩ ⟨rfl, hnodes', hlength⟩
      exact ⟨_, .plain, by simpa using hlength, hnodes'⟩
  | starred =>
      refine (takes_keywordsAndStar hguided htable h).mono ?_
      rintro _ ⟨before', star', after', rfl, hlength, hitems'⟩
      refine ⟨_, .starred, ?_, hitems'⟩
      simp only [length_append, length_map, length_cons]
      omega

omit hguided htable in
theorem Separated.takes_option {spelled : Spelling α} {spelled' : Spelling β} {f : α → Covering β}
    {value : Option α} (hf : TakesItem table spelled spelled' f)
    (h : Separated more spelled value.toList ts us) :
    Takes table (value.mapM f) ts us fun result =>
      Separated more spelled' result.toList ts us ∧
        result.toList.length = value.toList.length := by
  cases value with
  | none =>
      obtain rfl := nil_iff.mp h
      exact .pure ⟨nil_iff.mpr rfl, rfl⟩
  | some value => exact .map ((hf _ _ _ _ h).mono fun result hresult => ⟨hresult, rfl⟩)

theorem takesItem_positional :
    TakesItem table (fun expr => Plain (.positional expr)) (fun expr => Marked (.positional expr))
      fun item => do
        let item ← part visit item
        consumeIfNext ","
        return item := by
  refine takesItem_of htable (fun _ result => result) fun value ts us h => ?_
  cases h with
  | positional hvalue => exact (hguided.takes hvalue).mono fun result hresult => .positional hresult.1

omit hguided htable in
theorem CallSpelled.exists_cons {marked : Prop} {spelled : Place → Spelling Expr} {pair : TagPair}
    (h : CallSpelled marked spelled arguments pair ts us) :
    ∃ opening rest, ts = opening :: rest ∧ opening.isOperator "(" := by
  cases h with
  | mk _ hopening => exact ⟨_, _, rfl, hopening⟩

theorem CallSpelled.takes {pair : TagPair}
    (h : CallSpelled False (Spells False) arguments pair ts us) :
    Takes table (callArguments visit arguments) ts us fun result =>
      CallSpelled True (Spells True) result.1 result.2 ts us := by
  cases h with
  | @mk items opening closing ts _ hitems hopening hlisted hclosing =>
      obtain ⟨middle, hmiddle, rfl⟩ := arranged_iff.mp hitems
      have hall : Separated false Plain _ ts (closing :: us) := hlisted
      obtain ⟨ts₁, rest, rfl, hpositional, hrest⟩ := Separated.append_iff.mp hall
      obtain ⟨ts₂, ts₃, rfl, hkeywords, hdoubleStar⟩ := Separated.append_iff.mp hrest
      have htakesPositional := Separated.takes htable (takesItem_positional hguided htable)
        (Separated.map_iff.mp hpositional)
      have htakesMiddle := hmiddle.takes hguided htable hkeywords
      have htakesDoubleStar := Separated.takes_option (takesItem_doubleStar hguided htable)
        (Separated.map_iff.mp hdoubleStar)
      refine Takes.consume_bind htable hopening ?_
      simp only [append_assoc]
      refine Takes.bind_at htable htakesPositional (by simp) ?_
      rintro positional' ⟨hpositional', -⟩
      refine Takes.bind_at htable htakesMiddle (by simp) ?_
      rintro ⟨keywords', star'⟩ ⟨middle', hmiddle', hmiddleLength, hkeywords'⟩
      refine Takes.bind_of htable htakesDoubleStar ?_
      rintro doubleStar' ⟨hdoubleStar', hdoubleStarLength⟩
      refine Takes.consume_bind htable hclosing (Takes.pure ?_)
      have hempty : (middle' ++ doubleStar'.toList.map Argument.doubleStar).isEmpty =
          (middle ++ arguments.doubleStar.toList.map Argument.doubleStar).isEmpty :=
        isEmpty_eq_of_length_eq (by
          rw [length_append, length_append, length_map, length_map,
            hmiddleLength, hdoubleStarLength])
      have hrest' : Separated false Marked (middle' ++ doubleStar'.toList.map .doubleStar)
          (ts₂ ++ ts₃) (closing :: us) := by
        refine Separated.append_iff.mpr ⟨ts₂, ts₃, rfl, ?_, Separated.map_iff.mpr hdoubleStar'⟩
        rw [isEmpty_map] at hkeywords' ⊢
        rwa [isEmpty_eq_of_length_eq hdoubleStarLength]
      have hall' : Separated false Marked (positional'.map .positional ++
          (middle' ++ doubleStar'.toList.map .doubleStar)) (ts₁ ++ (ts₂ ++ ts₃)) (closing :: us) := by
        refine Separated.append_iff.mpr ⟨ts₁, ts₂ ++ ts₃, rfl, ?_, hrest'⟩
        rw [hempty]
        simpa using Separated.map_iff.mpr hpositional'
      have hcall : CallSpelled True (Spells True) ⟨positional', keywords', star', doubleStar'⟩
          (parenthesesOf (opening, closing)) (opening :: ((ts₁ ++ (ts₂ ++ ts₃)) ++ [closing])) us :=
        .mk (arranged_iff.mpr ⟨middle', hmiddle', rfl⟩) hopening hall' hclosing
      simp only [append_assoc] at hcall
      exact hcall

theorem FilterArguments.takes {pairs : List TagPair}
    (h : FilterArguments False (Spells False) arguments pairs ts us) :
    Takes table (optionalArguments visit arguments) ts us fun result =>
      FilterArguments True (Spells True) result.1 result.2 ts us := by
  cases h with
  | none hnext => exact .nextIs_not hnext (.pure (.none hnext))
  | call hcall =>
      obtain ⟨opening, rest, rfl, hopening⟩ := CallSpelled.exists_cons hcall
      refine .nextIs_of hopening (.bind_last htable
        (CallSpelled.takes hguided htable hcall) ?_)
      rintro ⟨arguments', pair'⟩ hcall'
      exact .pure (.call hcall')

theorem TestArguments.takes {pairs : List TagPair}
    (h : TestArguments False (Spells False) arguments pairs ts us) :
    Takes table (testArguments visit arguments) ts us fun result =>
      TestArguments True (Spells True) result.1 result.2 ts us := by
  cases h with
  | none hnext => exact .nextIs_not hnext (.pure (.none hnext))
  | bare hvalue hnext =>
      refine .nextIs_not hnext (.map ((hguided.takes hvalue).mono fun value' hvalue' => ?_))
      exact .bare hvalue'.1 hnext
  | call hcall =>
      obtain ⟨opening, rest, rfl, hopening⟩ := CallSpelled.exists_cons hcall
      refine .nextIs_of hopening (.bind_last htable
        (CallSpelled.takes hguided htable hcall) ?_)
      rintro ⟨arguments', pair'⟩ hcall'
      exact .pure (.call hcall')

end Arguments

/-! ### What stands between the parts -/

section Between

variable (htable : IsTable table) {ts us : List Token}

include htable

theorem Dotted.takes {words : List Text} (h : Dotted words ts) :
    Takes table (consumeDotted words) ts us fun _ => True := by
  induction h with
  | last htoken => exact .consumeName htable htoken
  | more htoken hpoint hwords ih =>
      cases hwords with
      | last hlast =>
          exact .name_bind htable htoken (.operator_bind htable hpoint ih)
      | more hnext hpoint' hwords =>
          exact .name_bind htable htoken (.operator_bind htable hpoint ih)

theorem Dotted.continues {words : List Text} (h : Dotted words ts) :
    Continues table (consumeDotted words) ts us fun _ => True := by
  cases h with
  | last htoken =>
      exact .consume_bind htable (isOperator_eq_false_of_isPlain (isPlain_of_isName htoken))
        htoken (.pure trivial)
  | @more word words token point ts htoken hpoint hwords =>
      have hrest : Takes table (do consumeOperator "."; consumeDotted words) (point :: ts) us
          fun _ => True := .operator_bind htable hpoint (Dotted.takes htable hwords)
      cases hwords with
      | last hlast => exact .name_bind htable htoken hrest
      | more hnext hpoint' hwords => exact .name_bind htable htoken hrest

theorem Compares.takes {op : CompareOp} (h : Compares op ts) :
    Takes table (compareOperator op) ts us fun _ => True := by
  cases h with
  | mem htoken => exact .consumeName htable htoken
  | notMem hfirst hsecond =>
      exact .name_bind htable hfirst (.consumeName htable hsecond)
  | symbol hmem hnot htoken =>
      cases op with
      | mem => exact absurd rfl hmem
      | notMem => exact absurd rfl hnot
      | _ => exact .consumeOperator htable htoken

theorem takes_strings {others : List Token} (hlength : others.length = ts.length)
    (h : ∀ token ∈ ts, token.isKind .string = true) :
    Takes table (others.forM fun _ => do let _ ← consume .string none) ts us fun _ => True := by
  induction others generalizing ts with
  | nil =>
      obtain rfl : ts = [] := length_eq_zero_iff.mp hlength.symm
      exact .pure trivial
  | cons other others ih =>
      obtain ⟨token, ts, rfl⟩ := exists_cons_of_length_eq_add_one hlength.symm
      have hfirst : Takes table (do let _ ← consume .string none) [token] (ts ++ us)
          fun _ => True :=
        .consume_bind htable (h token mem_cons_self) (.pure trivial)
      refine .bind_of htable hfirst fun _ _ => ?_
      exact ih (by simpa using hlength) fun token htoken => h token (mem_cons_of_mem _ htoken)

end Between

/-! ### The parts of an expression -/

section Content

variable {visit : Visitor} (hguided : Guided table visit) (htable : IsTable table)
  {place : Place} {expr : Expr} {ts ts' us : List Token}

/-- What is known of an expression whose parts have been annotated. -/
abbrev Parted (place : Place) (expr : Expr) (ts us : List Token) (result : Expr × List TagPair) :
    Prop :=
  Core True (Spells True) place result.1 result.2 ts us ∧ result.1.kind = expr.kind

include hguided

theorem Guided.continues (h : Spells False place expr ts us)
    (hnext : NotNext (·.isOperator ")") us) :
    Continues table (part visit expr) ts us fun value => Spells True place value ts us :=
  (continues_part (hguided.visits _ place expr ts us h (.inr rfl)) h.ne_nil hnext).mono
    fun _ hvalue => hvalue.1

include htable

theorem Guided.continues_bind {second : Expr → Covering β} {good : β → Prop}
    (h : Spells False place expr ts (ts' ++ us)) (hnext : NotNext (·.isOperator ")") (ts' ++ us))
    (hsecond : ∀ value, Spells True place value ts (ts' ++ us) →
      Takes table (second value) ts' us good) :
    Continues table (part visit expr >>= second) (ts ++ ts') us good :=
  .bind_of htable h.matched h.ne_nil (hguided.continues h hnext) hsecond

theorem Guided.takes_bind {second : Expr → Covering β} {good : β → Prop}
    (h : Spells False place expr ts (ts' ++ us))
    (hsecond : ∀ value, Spells True place value ts (ts' ++ us) →
      Takes table (second value) ts' us good) :
    Takes table (part visit expr >>= second) (ts ++ ts') us good :=
  .bind_of htable (hguided.takes h) fun value hvalue => hsecond value hvalue.1

omit htable in
theorem Guided.takes_map {f : Expr → β} {good : β → Prop} (h : Spells False place expr ts us)
    (hgood : ∀ value, Spells True place value ts us → good (f value)) :
    Takes table (do return f (← part visit expr)) ts us good :=
  .map ((hguided.takes h).mono fun value hvalue => hgood value hvalue.1)

omit htable in
theorem Guided.takes_optionalPart {value : Option Expr}
    (h : Possibly (Spells False place) value ts us) :
    Takes table (optionalPart visit value) ts us fun result =>
      Possibly (Spells True place) result ts us ∧ result.isSome = value.isSome := by
  cases h with
  | none => exact .pure ⟨.none, rfl⟩
  | some hvalue => exact hguided.takes_map hvalue fun _ hresult => ⟨.some hresult, rfl⟩

variable {token colon : Token} {operand : Expr} {layout : Layout} {name : Text}
  {arguments : Arguments Expr} {pairs : List TagPair} {start : Option Expr} {ts'' : List Token}

omit hguided in
theorem continues_literal {value : Constant} (hvalue : constantKind value ≠ .string)
    (htoken : token.isKind (constantKind value)) :
    Continues table (literal value) [token] us fun _ => True := by
  have hopening : token.isOperator "(" = false :=
    isOperator_eq_false_of_isPlain (isPlain_of_isKind htoken (by cases value <;> simp [constantKind]))
  cases value with
  | str => exact absurd rfl hvalue
  | _ => exact .consume_bind htable hopening htoken (.pure trivial)

omit hguided in
theorem continues_string {value : Text} (hfirst : token.isKind .string)
    (hothers : ∀ other ∈ ts, other.isKind .string = true) (hnext : NotNext (·.isKind .string) us) :
    Continues table (literal (.str value)) (token :: ts) us fun _ => True := by
  have hopening : token.isOperator "(" = false :=
    isOperator_eq_false_of_isPlain (isPlain_of_isKind hfirst (by decide))
  refine .consume_bind htable hopening hfirst ?_
  intro done groups extent walk hwalk hgroups
  refine .bind_getWalk ?_
  have hleading : Cursor.leadingSignificant (fun token => Cursor.fits token .string none)
      walk.cursor.rest = ts := by
    have hall : ∀ other ∈ ts, Cursor.fits other .string none = true := hothers
    rw [hwalk.leading, takeWhile_append_of_pos hall]
    cases us with
    | nil => simp
    | cons other us =>
        have hother : Cursor.fits other .string none = false := hnext other rfl
        simp [hother]
  rw [hleading]
  exact takes_strings htable rfl hothers done groups extent walk hwalk hgroups

theorem takes_parts {more : Bool} {items : List Expr}
    (h : Separated more (Spells False place) items ts us) :
    Takes table (parts visit items) ts us fun results =>
      Separated more (Spells True place) results ts us :=
  (Separated.takes htable (takesItem_part hguided htable place) h).mono fun _ hresults => hresults.1

/-- The items of a tuple. The first one may be in parentheses that have been opened before. -/
theorem Tupled.continues {spelled spelled' : Spelling Expr} {items : List Expr}
    (hspelled : ∀ expr ts us, spelled expr ts us → ∃ place, Spells False place expr ts us ∧
      ∀ expr', Spells True place expr' ts us → spelled' expr' ts us)
    (h : Tupled spelled items ts us) :
    Continues table (parts visit items) ts us fun results => Tupled spelled' results ts us := by
  cases h with
  | @mk first others comma ts ts' us hfirst hcomma hothers =>
      obtain ⟨place, hfirst, hplace⟩ := hspelled _ _ _ hfirst
      have hitem : TakesItem table spelled spelled' fun item => do
          let item ← part visit item
          consumeIfNext ","
          return item := by
        refine takesItem_of htable (fun _ result => result) fun expr ts us hexpr => ?_
        obtain ⟨place, hexpr, hplace⟩ := hspelled _ _ _ hexpr
        exact (hguided.takes hexpr).mono fun result hresult => hplace result hresult.1
      have hothers' : Separated false spelled others ts' us := hothers
      unfold parts
      rw [mapM_cons, bind_assoc]
      refine hguided.continues_bind htable hfirst (notNext_of_isOperator hcomma (by decide) _)
        fun first' hfirst' => ?_
      rw [bind_assoc]
      have hend : Takes table (do
          let others' ← others.mapM fun item => do
            let item ← part visit item
            consumeIfNext ","
            return item
          return first' :: others') ts' us
          fun results => Tupled spelled' results (ts ++ comma :: ts') us := by
        refine Takes.map ((Separated.takes htable hitem hothers').mono ?_)
        rintro others' ⟨hothers', -⟩
        exact .mk (hplace first' hfirst') hcomma hothers'
      have hcommas := Takes.bind_of htable (Takes.consumeIfNext_of htable hcomma) fun _ _ => hend
      simpa using hcommas

theorem takesItem_entry :
    TakesItem table (EntrySpelled False (Spells False)) (EntrySpelled True (Spells True))
      (entry visit) := by
  have heq : entry visit = fun node => do
      let result ← covering do
        let key ← part visit node.key
        consumeOperator ":"
        let value ← part visit node.value
        return (key, value)
      consumeIfNext ","
      return ⟨result.1.1, result.1.2, { node.layout with span := some result.2 }⟩ := rfl
  rw [heq]
  refine takesItem_of htable (fun (node : Entry Expr) (result : (Expr × Expr) × (Nat × Nat)) =>
    (⟨result.1.1, result.1.2, { node.layout with span := some result.2 }⟩ : Entry Expr))
    fun node ts us h => ?_
  cases h with
  | @mk key value layout colon ts ts' us hkey hcolon hvalue _ =>
      have hinner : Takes table (do
          let key ← part visit key
          consumeOperator ":"
          let value ← part visit value
          return (key, value)) (ts ++ colon :: ts') us fun result =>
            Spells True .value result.1 ts (colon :: (ts' ++ us)) ∧
              Spells True .value result.2 ts' us := by
        refine hguided.takes_bind htable hkey fun key' hkey' => ?_
        refine .operator_bind htable hcolon (hguided.takes_map hvalue fun value' hvalue' => ?_)
        exact ⟨hkey', hvalue'⟩
      refine (hinner.covering (by simp)).mono ?_
      rintro ⟨⟨key', value'⟩, span⟩ ⟨⟨hkey', hvalue'⟩, rfl⟩
      exact .mk hkey' hcolon hvalue' fun _ => rfl

theorem OperandSpelled.takes {node : Operand Expr} (h : OperandSpelled False (Spells False) node ts us) :
    Takes table (Alignment.operand visit node) ts us fun result =>
      OperandSpelled True (Spells True) result ts us := by
  cases h with
  | @mk op value layout ts ts' us hop hvalue _ =>
      have hinner : Takes table (do
          compareOperator op
          part visit value) (ts ++ ts') us fun value => Spells True .value value ts' us :=
        .bind_of htable (Compares.takes htable hop) fun _ _ =>
          (hguided.takes hvalue).mono fun _ hresult => hresult.1
      refine .map ((hinner.covering (by simp [hvalue.ne_nil])).mono ?_)
      rintro ⟨value', span⟩ ⟨hvalue', rfl⟩
      exact .mk hop hvalue' fun _ => rfl

theorem Behind.takes {value : Expr} {front : Token → Bool} {take : Covering Unit}
    (htake : ∀ token us, front token → Takes table take [token] us fun _ => True)
    (h : Behind front (Spells False .value) value ts us) :
    Takes table (do take; part visit value) ts us fun result =>
      Behind front (Spells True .value) result ts us := by
  cases h with
  | mk htoken hvalue =>
      exact .bind_of htable (htake _ _ htoken) fun _ _ =>
        (hguided.takes hvalue).mono fun _ hresult => .mk htoken hresult.1

theorem continues_unary {op : UnaryOp} (hop : unaryFits op token)
    (hoperand : Spells False .value operand ts us) :
    Continues table (content visit (.unary op operand false layout)) (token :: ts) us
      (Parted .value (.unary op operand false layout) (token :: ts) us) := by
  have hlast : Takes table (do return (Expr.unary op (← part visit operand) false layout, [])) ts us
      (Parted .value (.unary op operand false layout) (token :: ts) us) :=
    hguided.takes_map hoperand fun operand' hoperand' => ⟨.unary hop hoperand', rfl⟩
  cases op with
  | not => exact .name_bind htable hop hlast
  | neg => exact .operator_bind htable hop (by decide) hlast
  | pos => exact .operator_bind htable hop (by decide) hlast

theorem continues_blockFilter {bars : List Token}
    (hbars : bars = [] ∨ ∃ bar, bars = [bar] ∧ bar.isOperator "|" = true)
    (hname : Dotted (Text.splitAt '.' name) ts)
    (harguments : FilterArguments False (Spells False) arguments pairs ts' us) :
    Continues table (content visit (.filter none name arguments layout)) (bars ++ (ts ++ ts')) us
      (Parted .filter (.filter none name arguments layout) (bars ++ (ts ++ ts')) us) := by
  have hend : Takes table (do
      let result ← optionalArguments visit arguments
      return (Expr.filter none name result.1 layout, result.2)) ts' us
      (Parted .filter (.filter none name arguments layout) (bars ++ (ts ++ ts')) us) := by
    refine .bind_last htable (FilterArguments.takes hguided htable harguments) ?_
    rintro ⟨arguments', pairs'⟩ harguments'
    exact .pure ⟨.blockFilter hbars hname harguments', rfl⟩
  change Continues table (consumeIfNext "|" >>= fun _ => do
    consumeDotted (Text.splitAt '.' name)
    let result ← optionalArguments visit arguments
    return (Expr.filter none name result.1 layout, result.2)) _ _ _
  unfold consumeIfNext
  rw [bind_assoc]
  rcases hbars with rfl | ⟨bar, rfl, hbar⟩
  · obtain ⟨word, token, rest, hcons, hword⟩ := hname.exists_cons
    have htoken := isKind_of_isName hword
    have hopens : opens (ts ++ ts') = [] := by
      rw [hcons]
      exact opens_cons_of_not (isOperator_eq_false_of_isPlain (isPlain_of_isKind htoken (by decide)))
    have hnext : NotNext (·.isOperator "|") ((ts ++ ts') ++ us) := by
      rw [hcons]
      exact notNext_isOperator_of_isKind htoken (by decide) _
    rw [nil_append] at hend ⊢
    have hrest := Continues.bind_of htable hname.matched hname.ne_nil
      (Dotted.continues htable hname) fun _ _ => hend
    exact .nextIs_not hopens hnext hrest
  · rw [singleton_append] at hend ⊢
    refine .nextIs_of hbar (by decide) (.operator_bind htable hbar (by decide) ?_)
    exact .bind_of htable (Dotted.takes htable hname) fun _ _ => hend

theorem continues_start {second : Option Expr → Covering β} {good : β → Prop}
    (hstart : Possibly (Spells False .value) start ts (colon :: (ts' ++ us)))
    (hcolon : colon.isOperator ":")
    (h : ∀ start', Possibly (Spells True .value) start' ts (colon :: (ts' ++ us)) →
      Takes table (second start') ts' us good) :
    Continues table (do
      let start ← optionalPart visit start
      consumeOperator ":"
      second start) (ts ++ colon :: ts') us good := by
  cases hstart with
  | none =>
      have hrest : Continues table (do consumeOperator ":"; second none) (colon :: ts') us good :=
        .operator_bind htable hcolon (by decide) (h none .none)
      exact hrest
  | @some value _ _ hvalue =>
      have heq : (do
          let start ← optionalPart visit (some value)
          consumeOperator ":"
          second start) = (do
          let start ← part visit value
          consumeOperator ":"
          second (some start)) := by simp [optionalPart]
      rw [heq]
      refine hguided.continues_bind htable hvalue (notNext_of_isOperator hcolon (by decide) _)
        fun value' hvalue' => ?_
      exact .operator_bind htable hcolon (h (some value') (.some hvalue'))

theorem continues_slice {stop : Option Expr}
    (hstart : Possibly (Spells False .value) start ts (colon :: (ts' ++ us)))
    (hcolon : colon.isOperator ":") (hstop : Possibly (Spells False .value) stop ts' us)
    (hnext : NotNext (·.isOperator ":") us) :
    Continues table (content visit (.slice start stop none layout)) (ts ++ colon :: ts') us
      (Parted .index (.slice start stop none layout) (ts ++ colon :: ts') us) := by
  refine continues_start hguided htable hstart hcolon fun start' hstart' => ?_
  refine .bind_last htable (hguided.takes_optionalPart hstop) ?_
  rintro stop' ⟨hstop', -⟩
  refine .bind_last htable (.consumeIfNext_not hnext) fun _ _ => .pure ⟨?_, rfl⟩
  exact .slice hstart' hcolon hstop' hnext

theorem continues_steppedSlice {stop step : Option Expr} {second : Token}
    (hstart : Possibly (Spells False .value) start ts
      (colon :: (ts' ++ second :: (ts'' ++ us)))) (hcolon : colon.isOperator ":")
    (hstop : Possibly (Spells False .value) stop ts' (second :: (ts'' ++ us)))
    (hsecond : second.isOperator ":") (hstep : Possibly (Spells False .value) step ts'' us) :
    Continues table (content visit (.slice start stop step layout))
      (ts ++ colon :: (ts' ++ second :: ts'')) us
      (Parted .index (.slice start stop step layout) (ts ++ colon :: (ts' ++ second :: ts'')) us) := by
  refine continues_start hguided htable (by simpa using hstart) hcolon fun start' hstart' => ?_
  refine .bind_at htable (hguided.takes_optionalPart hstop) (by simp) ?_
  rintro stop' ⟨hstop', -⟩
  rw [← singleton_append]
  refine .bind_of htable (.consumeIfNext_of htable hsecond) fun _ _ => ?_
  refine .map ((hguided.takes_optionalPart hstep).mono ?_)
  rintro step' ⟨hstep', -⟩
  exact ⟨.steppedSlice (by simpa using hstart') hcolon hstop' hsecond hstep', rfl⟩

theorem continues_filter {bar : Token} (hplace : place.takesFilters)
    (hoperand : Spells False place operand ts (bar :: (ts' ++ (ts'' ++ us))))
    (hbar : bar.isOperator "|") (hname : Dotted (Text.splitAt '.' name) ts')
    (harguments : FilterArguments False (Spells False) arguments pairs ts'' us) :
    Continues table (content visit (.filter (some operand) name arguments layout))
      (ts ++ bar :: (ts' ++ ts'')) us
      (Parted place (.filter (some operand) name arguments layout) (ts ++ bar :: (ts' ++ ts'')) us) := by
  have heq : content visit (.filter (some operand) name arguments layout) = (do
      let operand ← part visit operand
      consumeOperator "|"
      consumeDotted (Text.splitAt '.' name)
      let result ← optionalArguments visit arguments
      return (.filter (some operand) name result.1 layout, result.2)) := by
    simp [content, optionalPart]
  rw [heq]
  refine hguided.continues_bind htable (by simpa using hoperand)
    (notNext_of_isOperator hbar (by decide) _) fun operand' hoperand' => ?_
  refine .operator_bind htable hbar ?_
  refine .bind_of htable (Dotted.takes htable hname) fun _ _ => ?_
  refine .bind_last htable (FilterArguments.takes hguided htable harguments) ?_
  rintro ⟨arguments', pairs'⟩ harguments'
  exact .pure ⟨.filter hplace (by simpa using hoperand') hbar hname harguments', rfl⟩

theorem continues_test {word : Token} {nots : List Token}
    (hoperand : Spells False .value operand ts (word :: (nots ++ (ts' ++ (ts'' ++ us)))))
    (hword : word.isName "is") (hnots : nots = [] ∧ NotNext (·.isName "not") ts' ∨
      ∃ token, nots = [token] ∧ token.isName "not" = true)
    (hname : Dotted (Text.splitAt '.' name) ts')
    (harguments : TestArguments False (Spells False) arguments pairs ts'' us) :
    Continues table (content visit (.test operand name arguments layout))
      (ts ++ word :: (nots ++ (ts' ++ ts''))) us
      (Parted .value (.test operand name arguments layout)
        (ts ++ word :: (nots ++ (ts' ++ ts''))) us) := by
  refine hguided.continues_bind htable (by simpa using hoperand)
    (notNext_isOperator_of_isKind (isKind_of_isName hword) (by decide) _)
    fun operand' hoperand' => ?_
  refine .name_bind htable hword ?_
  have hend : Takes table (do
      consumeDotted (Text.splitAt '.' name)
      let result ← testArguments visit arguments
      return (Expr.test operand' name result.1 layout, result.2)) (ts' ++ ts'') us
      (Parted .value (.test operand name arguments layout)
        (ts ++ word :: (nots ++ (ts' ++ ts''))) us) := by
    refine .bind_of htable (Dotted.takes htable hname) fun _ _ => ?_
    refine .bind_last htable (TestArguments.takes hguided htable harguments) ?_
    rintro ⟨arguments', pairs'⟩ harguments'
    exact .pure ⟨.test (by simpa using hoperand') hword hnots hname harguments', rfl⟩
  rcases hnots with ⟨rfl, hnot⟩ | ⟨token, rfl, hnot⟩
  · have hnext : NotNext (·.isName "not") (([] ++ (ts' ++ ts'')) ++ us) := by
      rw [nil_append, append_assoc]
      exact (notNext_append hname.ne_nil).mpr hnot
    exact .nextFits_not hnext hend
  · exact .nextFits_of hnot (.name_bind htable hnot hend)

end Content

end Visits

end JinjaLayout.Alignment
