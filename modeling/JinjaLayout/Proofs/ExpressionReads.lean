import Mathlib
import JinjaLayout.Proofs.ProductionReads

/-!
The productions for expressions read what they say: the tokens that a production takes spell the
expression that it gives.
-/

namespace JinjaLayout.Grammar

open Spelling List

/-- The productions one level deeper read expressions. -/
structure Inner.Sound (inner : Inner) : Prop where
  condition : Gives inner.condition (Spells False .value)
  disjunction : Gives inner.disjunction (Spells False .value)
  negation : Gives inner.negation (Spells False .value)
  signed : Gives inner.signed (Spells False .value)

/-! ### Lists -/

/-- The values read so far, before the first or behind the last of them. -/
def Collected {α : Type} (spelled : Spelling α) : Spelling (List α) :=
  fun values ts us => values = [] ∧ ts = [] ∨ Pending spelled values ts us

theorem Collected.listed {α : Type} {spelled : Spelling α} {values : List α} {ts us : List Token}
    (h : Collected spelled values ts us) (hnext : NotNext (·.isOperator ",") us) :
    Listed spelled values ts us := by
  rcases h with ⟨rfl, rfl⟩ | hpending
  · exact .nil
  · exact hpending.listed hnext

/-- What is read up to a token that is not a comma, and then the token. -/
def Closed {α : Type} (closer : Text) (spelled : Spelling α) : Spelling α :=
  fun value ts us => ∃ ts' closing, ts = ts' ++ [closing] ∧ closing.isOperator closer = true ∧
    spelled value ts' (closing :: us)

theorem gives_bracketed {α : Type} {item : Production α} {spelled : Spelling α}
    (hitem : Gives item spelled) {closer : Text} (hcloser : closer ≠ ",".toList) :
    Gives (bracketed item closer) (Closed closer (Listed spelled)) := by
  intro us
  refine .bind_reads (Listed spelled)
    (.repeating (Collected spelled) (.inl ⟨rfl, rfl⟩) ?_) ?_
  · intro values ts rest hus hvalues
    refine .atOperator (fun token rest' hrest htoken => .pure ?_) fun _ => ?_
    · subst hrest
      rw [append_nil]
      exact hvalues.listed (notNext_of_isOperator htoken hcloser rest')
    · rcases hvalues with ⟨rfl, rfl⟩ | hpending
      · refine .atOperator (fun _ _ _ _ => .pure .nil) fun _ => ?_
        exact .map_gives hitem fun value ts rest _ hvalue => .inr (.first hvalue)
      · cases values with
        | nil => simp [Pending] at hpending
        | cons first others =>
            refine .expectOperator fun comma rest' _ hrest hcomma _ => ?_
            subst hrest
            have hcommas := hpending.commas hcomma
            refine .atOperator (fun _ _ _ _ => .pure hcommas.toListed) fun _ => ?_
            refine .map_gives hitem fun value ts' rest'' hrest hvalue => .inr ?_
            subst hrest
            simpa using hcommas.pending hvalue
  · intro values ts rest hus hvalues
    refine .expectOperator fun closing rest' _ hrest hclosing _ => .pure ?_
    subst hrest
    exact ⟨ts, closing, rfl, hclosing, hvalues⟩

/-- What a loop over expressions with commas between them ends with. -/
inductive TupleRead (spelled : Spelling Expr) : Spelling (List Expr × Bool) where
  | none {us} : TupleRead spelled ([], false) [] us
  | single {item ts us} (h : spelled item ts us) : TupleRead spelled ([item], false) ts us
  | tuple {items ts us} (h : Tupled spelled items ts us) : TupleRead spelled (items, true) ts us

theorem gives_tuple_or_empty {item : Production Expr} (hitem : Gives item (Spells False .value))
    (stops : List Text) (mayBeEmpty : Bool) :
    Gives (tuple item stops mayBeEmpty) fun expr ts us => Spells False .value expr ts us ∨
      mayBeEmpty ∧ ts = [] ∧ ∃ layout, expr = .tuple [] .load layout := by
  intro us
  refine .currentLine fun line => ?_
  refine .bind_reads (TupleRead (Spells False .value))
    (.repeating (Collected (Spells False .value)) (.inl ⟨rfl, rfl⟩) ?_) ?_
  · intro items ts rest hus hitems
    rcases hitems with ⟨rfl, rfl⟩ | hpending
    · refine .test_any fun outcome => ?_
      cases outcome with
      | true => exact .pure .none
      | false =>
          refine .bind_gives hitem fun value ts rest' _ hvalue => ?_
          refine .atOperator (fun comma _ _ _ => .pure ?_) fun _ => .pure ?_
          · rw [append_nil]
            exact .inr (.first hvalue)
          · rw [append_nil]
            exact .single hvalue
    · cases items with
      | nil => simp [Pending] at hpending
      | cons first others =>
          refine .expectOperator fun comma rest' _ hrest hcomma _ => ?_
          subst hrest
          have hcommas := hpending.commas hcomma
          refine .test_any fun outcome => ?_
          cases outcome with
          | true => exact .pure (.tuple (hcommas.toTupled (cons_ne_nil _ _)))
          | false =>
              refine .bind_gives hitem fun value ts' rest'' hrest hvalue => ?_
              subst hrest
              refine .atOperator (fun _ _ _ _ => .pure (.inr ?_))
                fun hnext => .pure (.tuple ?_)
              · simpa using hcommas.pending hvalue
              · simpa using hcommas.tupled (cons_ne_nil _ _) (.last hvalue hnext)
  · rintro ⟨items, isTuple⟩ ts rest hus hread
    cases hread with
    | none =>
        cases mayBeEmpty with
        | true => exact .pure (.inr ⟨rfl, rfl, _, rfl⟩)
        | false => exact .current fun _ _ _ _ _ => .fail
    | single h =>
        refine .pure (.inl ?_)
        rwa [append_nil]
    | tuple h =>
        refine .pure (.inl ?_)
        rw [append_nil]
        exact .of_core (.tuple rfl h) h.ne_nil

theorem gives_tuple {item : Production Expr} (hitem : Gives item (Spells False .value))
    (stops : List Text) : Gives (tuple item stops false) (Spells False .value) :=
  fun us => (gives_tuple_or_empty hitem stops false us).mono fun _ _ _ _ h =>
    h.resolve_right fun hempty => Bool.false_ne_true hempty.1

section Operands

variable {inner : Inner} (hinner : inner.Sound)

include hinner

theorem gives_listDisplay : Gives (listDisplay inner) (Spells False .value) := by
  intro us
  refine .expectOperator fun opening rest _ _ hopening _ => ?_
  refine .map_gives (gives_bracketed hinner.condition (by decide)) ?_
  rintro items _ rest' - ⟨ts, closing, rfl, hclosing, hitems⟩
  exact .of_core (.list hopening hitems hclosing) (by simp)

theorem gives_entry : Gives (entry inner) (EntrySpelled False (Spells False)) := by
  intro us
  refine .currentLine fun line => ?_
  refine .bind_gives hinner.condition fun key ts rest _ hkey => ?_
  refine .expectOperator fun colon rest' _ hrest hcolon _ => ?_
  subst hrest
  refine .map_gives hinner.condition fun value ts' rest'' hrest hvalue => ?_
  subst hrest
  exact .mk hkey hcolon hvalue False.elim

theorem gives_dictDisplay : Gives (dictDisplay inner) (Spells False .value) := by
  intro us
  refine .expectOperator fun opening rest _ _ hopening _ => ?_
  refine .map_gives (gives_bracketed (gives_entry hinner) (by decide)) ?_
  rintro entries _ rest' - ⟨ts, closing, rfl, hclosing, hentries⟩
  exact .of_core (.dict hopening hentries hclosing) (by simp)

theorem gives_parenthesized : Gives (parenthesized inner) (Spells False .value) := by
  intro us
  refine .expectOperator fun opening rest _ _ hopening _ => ?_
  refine .bind_gives (gives_tuple_or_empty hinner.condition [] true) ?_
  intro expr ts rest' _ hexpr
  refine .expectOperator fun closing rest'' _ hrest hclosing _ => .pure ?_
  subst hrest
  rcases hexpr with hexpr | ⟨-, rfl, layout, rfl⟩
  · exact hexpr.paren hopening hclosing
  · exact .emptyParen hopening hclosing

omit hinner in
theorem gives_adjacentStrings (text : Text) :
    Gives (adjacentStrings text) fun _ ts us =>
      (∀ token ∈ ts, token.isKind .string = true) ∧ NotNext (·.isKind .string) us := by
  intro us
  refine .repeating (fun _ ts _ => ∀ token ∈ ts, token.isKind .string = true) (by simp) ?_
  intro text ts rest _ hts
  refine .atKind (fun token rest' hrest htoken => ?_) fun hnext => .pure ?_
  · subst hrest
    refine .next_of_kind htoken (by decide) fun _ _ => .pure ?_
    intro other hother
    rcases mem_append.mp hother with hother | hother
    · exact hts other hother
    · rwa [mem_singleton.mp hother]
  · rw [append_nil]
    exact ⟨hts, hnext⟩

omit hinner in
theorem constantKind_of_namedConstant? {word : Text} {value : Constant}
    (h : namedConstant? word = some value) : constantKind value = .name := by
  unfold namedConstant? at h
  split at h
  · cases h
    rfl
  · split at h
    · cases h
      rfl
    · split at h
      · cases h
        rfl
      · simp at h

theorem gives_primary : Gives (primary inner) (Spells False .value) := by
  intro us
  refine .current fun token rest lexeme hus hlexeme => ?_
  subst hus
  have hkindOf : ∀ kind, lexeme.kind = kind → token.isKind kind := by
    intro kind hkind
    rw [isKind_of_lexeme hlexeme, hkind]
    simp
  dsimp only
  split
  · rename_i hkind
    have htoken := hkindOf _ hkind
    refine .next_of_kind htoken (by decide) fun _ _ => ?_
    split
    · rename_i value hvalue
      refine .pure ?_
      have hname := constantKind_of_namedConstant? hvalue
      exact .of_core (.const (by simp [hname]) (by rwa [hname])) (by simp)
    · exact .pure (.of_core
        (.name rfl (fun h => absurd rfl h) (isName_value hlexeme htoken)) (by simp))
  · rename_i hkind
    refine .next_of_kind (hkindOf _ hkind) (by decide) fun _ _ => ?_
    refine .bind_gives (gives_adjacentStrings _) fun text ts rest' _ hts => .pure ?_
    rw [append_nil]
    exact .of_core (.string (hkindOf _ hkind) hts.1 hts.2) (by simp)
  · rename_i hkind
    refine .next_of_kind (hkindOf _ hkind) (by decide) fun _ _ => ?_
    unfold integerConstant
    split
    · exact .pure (.of_core (.const (by simp [constantKind]) (hkindOf _ hkind)) (by simp))
    · exact .bind .fail
  · rename_i hkind
    refine .next_of_kind (hkindOf _ hkind) (by decide) fun _ _ => ?_
    unfold floatConstant
    split
    · exact .pure (.of_core (.const (by simp [constantKind]) (hkindOf _ hkind)) (by simp))
    · exact .bind .fail
  · split
    · exact gives_parenthesized hinner _
    · split
      · exact gives_listDisplay hinner _
      · split
        · exact gives_dictDisplay hinner _
        · exact .fail
  · exact .fail

end Operands

/-! ### What follows an operand -/

theorem gives_whenever_skipName {α : Type} {production : Production α} {spelled : Spelling α}
    (h : Gives production spelled) (word : Text) :
    Gives (whenever (skipName word) production)
      (Possibly (Behind (·.isName word) spelled)) := by
  intro us
  refine .skipName (fun token rest _ htoken => ?_) fun _ => .pure .none
  exact .map_gives h fun value ts rest' _ hvalue => .some (.mk htoken hvalue)

section Trailers

variable {inner : Inner} (hinner : inner.Sound)

include hinner

theorem gives_sliceStop (symbols : List Text) :
    Gives (whenever (do return !(← atAnyOperator symbols)) inner.condition)
      (Possibly (Spells False .value)) := by
  intro us
  refine .bind (.bind (.current fun _ _ lexeme _ _ => .pure (.pure ?_)))
  cases symbols.any lexeme.isOperator with
  | true => exact .pure .none
  | false => exact .map_gives hinner.condition fun value ts rest _ hvalue => .some hvalue

/-- The second colon of a slice and its step, either of which may be missing. -/
inductive StepSpelled : Spelling (Option Expr) where
  | none {us} (hnext : NotNext (·.isOperator ":") us) : StepSpelled none [] us
  | colon {step token ts us} (htoken : token.isOperator ":")
      (hstep : Possibly (Spells False .value) step ts us) : StepSpelled step (token :: ts) us

theorem gives_sliceStep (symbols : List Text) :
    Gives (whenever (do
      if ← skipOperator ":" then return !(← atAnyOperator symbols)
      else return false) inner.condition) StepSpelled := by
  intro us
  refine .bind (.skipOperator (fun token rest _ htoken => ?_) fun hnext => ?_)
  · refine .bind (.current fun _ _ lexeme _ _ => .pure (.pure ?_))
    cases symbols.any lexeme.isOperator with
    | true => exact .pure (.colon htoken .none)
    | false =>
        exact .map_gives hinner.condition fun value ts rest _ hvalue =>
          .colon htoken (.some hvalue)
  · exact .pure (.pure (.none hnext))

theorem reads_slice {line : Nat} {start : Option Expr} {colon : Token} {ts us : List Token}
    (hcolon : colon.isOperator ":")
    (hstart : Possibly (Spells False .value) start ts (colon :: us)) :
    Reads (slice inner line start) us fun expr ts' rest =>
      Spells False .index expr (ts ++ colon :: ts') rest := by
  refine .bind_gives (gives_sliceStop hinner _) fun stop ts' rest hus hstop => ?_
  subst hus
  refine .map_gives (gives_sliceStep hinner _) fun step ts'' rest' hrest hstep => ?_
  subst hrest
  cases hstep with
  | none hnext =>
      rw [append_nil]
      exact .of_core (.slice hstart hcolon hstop hnext) (by simp)
  | colon hsecond hstep =>
      exact .of_core (.steppedSlice hstart hcolon hstop hsecond hstep) (by simp)

theorem gives_subscript : Gives (subscript inner) (InBrackets (Spells False)) := by
  intro us
  refine .currentLine fun line => ?_
  refine .skipOperator (fun colon rest _ hcolon => ?_) fun _ => ?_
  · refine (reads_slice hinner hcolon .none).mono fun expr ts rest' _ hexpr => ?_
    exact ⟨.index, .inr rfl, hexpr⟩
  · refine .bind_gives hinner.condition fun expr ts rest _ hexpr => ?_
    refine .skipOperator (fun colon rest' hrest hcolon => ?_) fun _ => .pure ?_
    · subst hrest
      refine (reads_slice hinner hcolon (.some hexpr)).mono fun expr ts rest'' _ hslice => ?_
      exact ⟨.index, .inr rfl, hslice⟩
    · rw [append_nil]
      exact ⟨.value, .inl rfl, hexpr⟩

omit hinner in
theorem reads_member {operand : Expr} {line : Nat} {point : Token} {ts us : List Token}
    (hoperand : Spells False .value operand ts (point :: us))
    (hpoint : point.isOperator ".") :
    Reads (member operand line) us fun expr ts' rest =>
      Spells False .value expr (ts ++ point :: ts') rest := by
  refine .of_cons fun token rest hus => ?_
  subst hus
  cases heof : token.isKind .eof with
  | true =>
      refine .next_of_eof heof fun lexeme hkind => ?_
      rw [hkind]
      exact .fail
  | false =>
      refine .next heof fun lexeme hlexeme => ?_
      split
      · rename_i hkind
        have htoken : token.isKind .name := by simp [isKind_of_lexeme hlexeme, hkind]
        exact .pure
          (.of_core (.attr hoperand hpoint (isName_value hlexeme htoken)) (by simp))
      · rename_i hkind
        unfold integerConstant
        split
        · refine .pure (.of_core (.dotted (by exact hoperand) hpoint ?_) (by simp))
          refine .of_core (.const (by simp [constantKind]) ?_) (by simp)
          rw [isKind_of_lexeme hlexeme, hkind]
          rfl
        · exact .bind .fail
      · exact .fail

theorem reads_subscripts {operand : Expr} {line : Nat} {opening : Token} {ts us : List Token}
    (hoperand : Spells False .value operand ts (opening :: us))
    (hopening : opening.isOperator "[") :
    Reads (subscripts inner operand line) us fun expr ts' rest =>
      Spells False .value expr (ts ++ opening :: ts') rest := by
  refine .bind_reads (Collected (InBrackets (Spells False)))
    (.repeating (Collected (InBrackets (Spells False))) (.inl ⟨rfl, rfl⟩) ?_) ?_
  · intro items ts rest _ hitems
    refine .atOperator (fun _ _ _ _ => .pure ?_) fun _ => ?_
    · rw [append_nil]
      exact hitems
    · rcases hitems with ⟨rfl, rfl⟩ | hpending
      · exact .map_gives (gives_subscript hinner) fun value ts rest _ hvalue =>
          .inr (.first hvalue)
      · cases items with
        | nil => simp [Pending] at hpending
        | cons first others =>
            refine .expectOperator fun comma rest' _ hrest hcomma _ => ?_
            subst hrest
            refine .map_gives (gives_subscript hinner) fun value ts' rest'' hrest hvalue => ?_
            subst hrest
            have hnext := (hpending.commas hcomma).pending hvalue
            exact .inr (by simpa using hnext)
  · intro items ts' rest hus hitems
    subst hus
    refine .expectOperator fun closing rest' _ hrest hclosing _ => ?_
    subst hrest
    have hlisted := hitems.listed (notNext_of_isOperator hclosing (by decide) rest')
    rcases items with _ | ⟨index, _ | ⟨second, others⟩⟩
    · obtain rfl : ts' = [] := by
        cases hlisted
        rfl
      exact .pure (.of_core (.emptyItem hoperand hopening hclosing False.elim) (by simp))
    · refine .pure (.of_core (.item hoperand hopening ?_ hclosing) (by simp))
      rcases hitems with ⟨hnil, -⟩ | hpending
      · simp at hnil
      · exact hpending.single
    · refine .pure (.of_core (.item hoperand hopening ?_ hclosing) (by simp))
      have htupled := hlisted.tupled
      exact ⟨.index, .inr rfl, .of_core (.indexTuple htupled) htupled.ne_nil⟩

end Trailers

/-! ### Arguments -/

section Arguments

variable {inner : Inner} (hinner : inner.Sound)

include hinner

theorem gives_argument {arguments : Arguments Expr} {items : List Argument}
    (hitems : Arranged arguments items) (line : Nat) :
    Gives (argument inner line arguments) fun result ts us => ∃ item,
      Arranged result (items ++ [item]) ∧ ArgumentSpelled False (Spells False) item ts us := by
  obtain ⟨positional, keywords, star, doubleStar⟩ := arguments
  intro us
  refine .skipOperator (fun token rest _ htoken => ?_) fun _ => ?_
  · cases star with
    | some star => exact .fail
    | none =>
        cases doubleStar with
        | some doubleStar => exact .fail
        | none =>
            exact .map_gives hinner.condition fun value ts rest' _ hvalue =>
              ⟨_, hitems.add_star value, .star htoken hvalue⟩
  refine .skipOperator (fun token rest _ htoken => ?_) fun _ => ?_
  · cases doubleStar with
    | some doubleStar => exact .fail
    | none =>
        exact .map_gives hinner.condition fun value ts rest' _ hvalue =>
          ⟨_, hitems.add_doubleStar value, .doubleStar htoken hvalue⟩
  have hpositional : Reads (if star.isSome || doubleStar.isSome || !keywords.isEmpty then
      fail line .invalidCall
    else return { positional := positional ++ [← inner.condition], keywords, star, doubleStar }) us
      fun result ts us => ∃ item, Arranged result (items ++ [item]) ∧
        ArgumentSpelled False (Spells False) item ts us := by
    cases star with
    | some star => exact .fail
    | none =>
        cases doubleStar with
        | some doubleStar => exact .fail
        | none =>
            cases keywords with
            | cons keyword keywords => exact .fail
            | nil =>
                exact .map_gives hinner.condition fun value ts rest' _ hvalue =>
                  ⟨_, hitems.add_positional rfl value, .positional hvalue⟩
  refine .atKind (fun token rest hus htoken => ?_) fun _ => ?_
  · subst hus
    refine .following (isKind_eq_false htoken (by decide)) ?_
    rintro equals rest' lexeme rfl hlexeme
    cases hequals : lexeme.isOperator "=" with
    | false => exact hpositional
    | true =>
        have hequalsToken : equals.isOperator "=" = true :=
          (isOperator_of_lexeme hlexeme _).trans hequals
        cases doubleStar with
        | some doubleStar => exact .fail
        | none =>
            refine .next_of_kind htoken (by decide) fun key hkey => ?_
            refine .next_of_kind (isKind_of_isOperator hequalsToken) (by decide) fun _ _ => ?_
            refine .bind_gives hinner.condition fun value ts rest'' _ hvalue => .pure ?_
            rw [append_nil]
            exact ⟨_, hitems.add_keyword _,
              .keyword (isName_value hkey htoken) hequalsToken hvalue False.elim⟩
  · exact .following_any fun _ => hpositional

theorem gives_callArguments :
    Gives (callArguments inner) fun arguments ts us => ∃ pair,
      CallSpelled False (Spells False) arguments pair ts us := by
  intro us
  refine .expectOperator fun opening rest _ _ hopening _ => ?_
  refine .bind_reads
    (fun arguments ts us => ∃ items, Arranged arguments items ∧
      Listed (ArgumentSpelled False (Spells False)) items ts us)
    (.repeating (fun state ts us => ∃ items, Arranged state.1 items ∧
      state.2 = !items.isEmpty ∧ Collected (ArgumentSpelled False (Spells False)) items ts us)
      ⟨[], @Arranged.plain [] [] none, rfl, .inl ⟨rfl, rfl⟩⟩ ?_) ?_
  · rintro ⟨arguments, started⟩ ts rest _ ⟨items, harranged, hstarted, hitems⟩
    refine .atOperator (fun token rest' hrest htoken => .pure ?_) fun _ => ?_
    · subst hrest
      rw [append_nil]
      exact ⟨items, harranged, hitems.listed (notNext_of_isOperator htoken (by decide) rest')⟩
    rcases hitems with ⟨rfl, rfl⟩ | hpending
    · obtain rfl : started = false := hstarted
      refine .atOperator (fun _ _ _ _ => .pure ⟨[], harranged, .nil⟩) fun _ => ?_
      refine .map_gives (gives_argument hinner harranged _) ?_
      rintro result ts rest' - ⟨item, hresult, hitem⟩
      exact ⟨[item], hresult, rfl, .inr (.first hitem)⟩
    · cases items with
      | nil => simp [Pending] at hpending
      | cons first others =>
          obtain rfl : started = true := hstarted
          refine .expectOperator fun comma rest' _ hrest hcomma _ => ?_
          subst hrest
          have hcommas := hpending.commas hcomma
          refine .atOperator (fun _ _ _ _ => .pure ⟨_, harranged, hcommas.toListed⟩)
            fun _ => ?_
          refine .map_gives (gives_argument hinner harranged _) ?_
          rintro result ts' rest'' rfl ⟨item, hresult, hitem⟩
          refine ⟨_, hresult, by simp, .inr ?_⟩
          simpa using hcommas.pending hitem
  · rintro arguments ts rest' - ⟨items, harranged, hlisted⟩
    refine .expectOperator fun closing rest'' _ hrest hclosing _ => .pure ?_
    subst hrest
    exact ⟨_, .mk harranged hopening hlisted hclosing⟩

theorem gives_optionalArguments :
    Gives (optionalArguments inner) fun arguments ts us => ∃ pairs,
      FilterArguments False (Spells False) arguments pairs ts us := by
  intro us
  refine .atOperator (fun _ _ _ _ => ?_) fun hnext => .pure ⟨_, .none hnext⟩
  exact (gives_callArguments hinner us).mono fun arguments ts rest _ h =>
    ⟨_, .call h.choose_spec⟩

theorem reads_call {operand : Expr} {ts us : List Token}
    (hoperand : Spells False .value operand ts us) :
    Reads (call inner operand) us fun expr ts' rest =>
      Spells False .value expr (ts ++ ts') rest := by
  refine .currentLine fun line => ?_
  refine .map_gives (gives_callArguments hinner) ?_
  rintro arguments ts' rest rfl ⟨pair, harguments⟩
  exact .of_core (.call hoperand harguments) (by simp [hoperand.ne_nil])

theorem reads_trailers {operand : Expr} {ts us : List Token}
    (hoperand : Spells False .value operand ts us) :
    Reads (trailers inner operand) us fun expr ts' rest =>
      Spells False .value expr (ts ++ ts') rest := by
  refine .repeating (fun expr ts' rest => Spells False .value expr (ts ++ ts') rest)
    (by simpa using hoperand) ?_
  intro expr ts' rest _ hexpr
  refine .current fun token rest' lexeme hrest hlexeme => ?_
  subst hrest
  rw [← isOperator_of_lexeme hlexeme, ← isOperator_of_lexeme hlexeme, ← isOperator_of_lexeme hlexeme]
  split
  · rename_i hpoint
    refine .next_of_kind (isKind_of_isOperator hpoint) (by decide) fun _ _ => ?_
    refine .bind ((reads_member hexpr hpoint).mono fun result ts'' rest'' _ hresult =>
      .pure ?_)
    simpa using hresult
  split
  · rename_i hopening
    refine .next_of_kind (isKind_of_isOperator hopening) (by decide) fun _ _ => ?_
    refine .bind ((reads_subscripts hinner hexpr hopening).mono
      fun result ts'' rest'' _ hresult => .pure ?_)
    simpa using hresult
  split
  · refine .bind ((reads_call hinner hexpr).mono fun result ts'' rest'' _ hresult =>
      .pure ?_)
    simpa using hresult
  · refine .pure ?_
    simpa using hexpr

end Arguments

/-! ### Filters and tests -/

theorem gives_dottedName :
    Gives dottedName fun name ts _ => Dotted (Text.splitAt '.' name) ts := by
  intro us
  refine .expectName fun token rest lexeme _ htoken hword => ?_
  refine .repeating (fun name ts _ => Dotted (Text.splitAt '.' name) (token :: ts)) ?_ ?_
  · rw [splitAt_of_not_mem hword]
    exact .last htoken
  · intro name ts rest' _ hname
    refine .skipOperator (fun point rest'' _ hpoint => ?_) fun _ => .pure ?_
    · refine .expectName fun next rest''' lexeme' _ hnext hword' => .pure ?_
      have hconcat := hname.concat hpoint hnext
      rw [← splitAt_append name hword'] at hconcat
      simpa using hconcat
    · rwa [append_nil]

section Filters

variable {inner : Inner} (hinner : inner.Sound)

include hinner

variable {operand : Expr} {ts us : List Token}

theorem reads_filterLink {place : Place} (hplace : place.takesFilters) {bar : Token}
    (hoperand : Spells False place operand ts (bar :: us)) (hbar : bar.isOperator "|") :
    Reads (filterLink inner (some operand)) us fun expr ts' rest =>
      Spells False place expr (ts ++ bar :: ts') rest := by
  refine .currentLine fun line => ?_
  refine .bind_gives gives_dottedName fun name ts' rest hus hname => ?_
  subst hus
  refine .map_gives (gives_optionalArguments hinner) ?_
  rintro arguments ts'' rest' rfl ⟨pairs, harguments⟩
  exact .of_core (.filter hplace hoperand hbar hname harguments) (by simp)

theorem gives_blockFilter {bars : List Token}
    (hbars : bars = [] ∨ ∃ bar, bars = [bar] ∧ bar.isOperator "|" = true) :
    Gives (filterLink inner none) fun expr ts us => Spells False .filter expr (bars ++ ts) us := by
  intro us
  refine .currentLine fun line => ?_
  refine .bind_gives gives_dottedName fun name ts rest _ hname => ?_
  refine .map_gives (gives_optionalArguments hinner) ?_
  rintro arguments ts' rest' - ⟨pairs, harguments⟩
  exact .of_core (.blockFilter hbars hname harguments) (by simp [hname.ne_nil])

theorem reads_filterChain (hoperand : Spells False .filter operand ts us) :
    Reads (filterChain inner operand) us fun expr ts' rest =>
      Spells False .filter expr (ts ++ ts') rest := by
  refine .repeating (fun expr ts' rest => Spells False .filter expr (ts ++ ts') rest)
    (by simpa using hoperand) ?_
  intro expr ts' rest _ hexpr
  refine .skipOperator (fun bar rest' hrest hbar => ?_) fun _ => .pure ?_
  · subst hrest
    refine .bind ((reads_filterLink hinner rfl hexpr hbar).mono
      fun result ts'' rest'' _ hresult => .pure ?_)
    simpa using hresult
  · simpa using hexpr

theorem gives_blockFilters {bars : List Token}
    (hbars : bars = [] ∨ ∃ bar, bars = [bar] ∧ bar.isOperator "|" = true) :
    Gives (filterLink inner none >>= filterChain inner) fun expr ts us =>
      Spells False .filter expr (bars ++ ts) us := by
  intro us
  refine .bind_gives (gives_blockFilter hinner hbars) fun filter ts rest _ hfilter => ?_
  refine (reads_filterChain hinner hfilter).mono fun expr ts' rest' _ hexpr => ?_
  simpa using hexpr

theorem gives_testArguments :
    Gives (testArguments inner) fun arguments ts us => ∃ pairs,
      TestArguments False (Spells False) arguments pairs ts us := by
  intro us
  refine .current fun token rest lexeme hus hlexeme => ?_
  split
  · exact (gives_callArguments hinner us).mono fun arguments ts rest _ h =>
      ⟨_, .call h.choose_spec⟩
  rename_i hparen
  have hnext : NotNext (·.isOperator "(") us := by
    rw [← isOperator_of_lexeme hlexeme, Bool.not_eq_true] at hparen
    simpa [NotNext, hus] using hparen
  split
  · split
    · exact .fail
    · refine .bind_gives (gives_primary hinner) fun operand ts rest' hus' hoperand => ?_
      subst hus'
      refine .bind ((reads_trailers hinner hoperand).mono
        fun value ts' rest'' hrest hvalue => .pure ?_)
      subst hrest
      refine ⟨_, .bare (by simpa using hvalue) ?_⟩
      simpa using hnext
  · exact .pure ⟨_, .none hnext⟩

theorem reads_test (hoperand : Spells False .value operand ts us) :
    Reads (test inner operand) us fun expr ts' rest =>
      Spells False .value expr (ts ++ ts') rest := by
  refine .expectWord fun word rest lexeme hus hword _ => ?_
  subst hus
  have hname : ∀ (negated : Bool) (nots rest' : List Token),
      (nots = [] ∧ NotNext (·.isName "not") rest' ∨
        ∃ token, nots = [token] ∧ token.isName "not" = true) →
      rest = nots ++ rest' →
      Reads (do
        let name ← dottedName
        let expr := Expr.test operand name (← testArguments inner) (.onLine lexeme.line)
        return if negated then .unary .not expr true (.onLine lexeme.line) else expr) rest'
        fun expr ts' rest => Spells False .value expr (ts ++ word :: (nots ++ ts')) rest := by
    intro negated nots rest' hnots hrest
    subst hrest
    refine .bind_gives gives_dottedName fun name ts' rest'' hrest hdotted => ?_
    subst hrest
    refine .bind_gives (gives_testArguments hinner) ?_
    rintro arguments ts'' rest''' rfl ⟨pairs, harguments⟩
    refine .pure ?_
    rw [append_nil]
    have htest : Spells False .value (Expr.test operand name arguments (.onLine lexeme.line))
        (ts ++ word :: (nots ++ (ts' ++ ts''))) rest''' := by
      refine .of_core (.test hoperand hword ?_ hdotted harguments) (by simp)
      exact hnots.imp_left fun h => ⟨h.1, (notNext_append hdotted.ne_nil).mp h.2⟩
    cases negated with
    | true => exact .fold (.inline htest rfl False.elim)
    | false => exact htest
  refine .skipName (fun token rest' hrest htoken => ?_) fun hnext => ?_
  · exact hname true [token] rest' (.inr ⟨token, rfl, htoken⟩) hrest
  · exact hname false [] rest (.inl ⟨rfl, hnext⟩) rfl

theorem reads_filtersAndTests (hoperand : Spells False .value operand ts us) :
    Reads (filtersAndTests inner operand) us fun expr ts' rest =>
      Spells False .value expr (ts ++ ts') rest := by
  refine .repeating (fun expr ts' rest => Spells False .value expr (ts ++ ts') rest)
    (by simpa using hoperand) ?_
  intro expr ts' rest _ hexpr
  refine .skipOperator (fun bar rest' hrest hbar => ?_) fun _ => ?_
  · subst hrest
    refine .bind ((reads_filterLink hinner rfl hexpr hbar).mono
      fun result ts'' rest'' _ hresult => .pure ?_)
    simpa using hresult
  refine .atName (fun _ _ _ _ => ?_) fun _ => ?_
  · refine .bind ((reads_test hinner hexpr).mono fun result ts'' rest'' _ hresult =>
      .pure ?_)
    simpa using hresult
  refine .atOperator (fun _ _ _ _ => ?_) fun _ => .pure ?_
  · refine .bind ((reads_call hinner hexpr).mono fun result ts'' rest'' _ hresult =>
      .pure ?_)
    simpa using hresult
  · simpa using hexpr

end Filters

/-! ### Operators -/

theorem gives_sign :
    Gives sign fun result ts _ => match result with
      | some op => ∃ token, ts = [token] ∧ unaryFits op token = true
      | none => ts = [] := by
  intro us
  refine .skipOperator (fun token rest _ htoken => .pure ⟨token, rfl, htoken⟩) fun _ => ?_
  exact .skipOperator (fun token rest _ htoken => .pure ⟨token, rfl, htoken⟩)
    fun _ => .pure rfl

theorem gives_operatorAmong (operators : List BinaryOp) :
    Gives (operatorAmong operators) fun result ts _ => match result with
      | some op => ∃ token, ts = [token] ∧ binaryFits op token = true
      | none => ts = [] := by
  intro us
  refine .current fun token rest lexeme hus hlexeme => ?_
  subst hus
  split
  · rename_i op hop
    have hfits : binaryFits op token := by
      have hfound := find?_some hop
      rwa [← isName_of_lexeme hlexeme, ← isOperator_of_lexeme hlexeme] at hfound
    have hkind : token.isKind .eof = false := by
      unfold binaryFits at hfits
      split at hfits
      · exact isKind_eq_false (isKind_of_isName hfits) (by decide)
      · exact isKind_eq_false (isKind_of_isOperator hfits) (by decide)
    exact .next hkind fun _ _ => .pure ⟨token, rfl, hfits⟩
  · exact .pure rfl

theorem gives_compareOperator :
    Gives compareOperator fun result ts _ => match result with
      | some op => Compares op ts
      | none => ts = [] := by
  intro us
  refine .current fun token rest lexeme hus hlexeme => ?_
  split
  · subst hus
    rename_i hkind
    have htoken : token.isKind .operator := by
      rw [isKind_of_lexeme hlexeme, hkind]
      rfl
    split
    · rename_i op hop
      refine .next_of_kind htoken (by decide) fun _ _ => .pure ?_
      have hmem := mem_of_find?_eq_some hop
      have hsymbol := find?_some hop
      refine .symbol ?_ ?_ ?_
      · rintro rfl
        simp at hmem
      · rintro rfl
        simp at hmem
      · have hvalue : op.symbol = lexeme.value := by simpa using hsymbol
        rw [isOperator_of_lexeme hlexeme, hvalue]
        simp [Lexeme.isOperator, hkind]
    · exact .pure rfl
  · refine .skipName (fun token rest _ htoken => .pure (.mem htoken)) fun _ => ?_
    refine .atNames (fun first second rest hus hfirst hsecond => ?_) (.pure rfl)
    subst hus
    refine .next_of_kind (isKind_of_isName hfirst) (by decide) fun _ _ => ?_
    refine .next_of_kind (isKind_of_isName hsecond) (by decide) fun _ _ => .pure ?_
    exact .notMem hfirst hsecond

theorem gives_chain (operators : List BinaryOp) {operand : Production Expr}
    (hoperand : Gives operand (Spells False .value)) :
    Gives (chain operators operand) (Spells False .value) := by
  intro us
  refine .currentLine fun line => ?_
  refine .bind_gives hoperand fun first ts rest _ hfirst => ?_
  refine .repeating (fun expr ts' rest' => Spells False .value expr (ts ++ ts') rest')
    (by simpa using hfirst) ?_
  intro left ts' rest' _ hleft
  refine .bind_gives (gives_operatorAmong operators) fun result ts'' rest'' hrest hresult => ?_
  subst hrest
  cases result with
  | none =>
      obtain rfl : ts'' = [] := hresult
      refine .pure ?_
      simpa using hleft
  | some op =>
      obtain ⟨token, rfl, hop⟩ := hresult
      refine .map_gives hoperand fun right ts'' rest''' hrest hright => ?_
      subst hrest
      have hbinary : Spells False .value (.binary op left right (.onLine line))
          ((ts ++ ts') ++ token :: ts'') rest''' :=
        .of_core (.binary (by exact hleft) hop hright) (by simp)
      simpa using hbinary

section Levels

variable {inner : Inner} (hinner : inner.Sound)

include hinner

theorem gives_signed : Gives (signed inner) (Spells False .value) := by
  intro us
  refine .currentLine fun line => ?_
  refine .bind_gives gives_sign fun result ts rest _ hresult => ?_
  cases result with
  | some op =>
      obtain ⟨token, rfl, hop⟩ := hresult
      refine .bind_gives hinner.signed fun operand ts rest' _ hoperand => ?_
      refine (reads_trailers hinner (.of_core (.unary hop hoperand) (by simp))).mono ?_
      exact fun expr ts' rest'' _ hexpr => hexpr
  | none =>
      obtain rfl : ts = [] := hresult
      refine .bind_gives (gives_primary hinner) fun operand ts rest' _ hoperand => ?_
      exact reads_trailers hinner hoperand

theorem gives_filtered : Gives (filtered inner) (Spells False .value) := by
  intro us
  refine .bind_gives (gives_signed hinner) fun operand ts rest _ hoperand => ?_
  exact reads_filtersAndTests hinner hoperand

theorem gives_product : Gives (product inner) (Spells False .value) :=
  gives_chain _ (gives_chain _ (gives_filtered hinner))

theorem gives_concatenation : Gives (concatenation inner) (Spells False .value) := by
  intro us
  refine .currentLine fun line => ?_
  refine .bind_gives (gives_product hinner) fun first ts rest hus hfirst => ?_
  refine .bind_reads (Chained (Behind (·.isOperator "~") (Spells False .value)))
    (.repeating (Chained (Behind (·.isOperator "~") (Spells False .value))) .nil ?_) ?_
  · intro others ts rest _ hothers
    refine .skipOperator (fun token rest' hrest htoken => ?_) fun _ => .pure ?_
    · subst hrest
      refine .map_gives (gives_product hinner) fun value ts' rest'' hrest hvalue => ?_
      subst hrest
      exact Chained.concat (by simpa using hothers) (.mk htoken hvalue)
    · rw [append_nil]
      exact hothers
  · rintro others ts' rest' hrest hothers
    subst hrest
    refine .pure ?_
    rw [append_nil]
    cases others with
    | nil =>
        cases hothers
        rw [append_nil]
        exact hfirst
    | cons second others => exact .of_core (.concat hfirst hothers) (by simp [hfirst.ne_nil])

theorem gives_sum : Gives (sum inner) (Spells False .value) :=
  gives_chain _ (gives_concatenation hinner)

theorem gives_comparison : Gives (comparison inner) (Spells False .value) := by
  intro us
  refine .currentLine fun line => ?_
  refine .bind_gives (gives_sum hinner) fun first ts rest hus hfirst => ?_
  refine .bind_reads (Chained (OperandSpelled False (Spells False)))
    (.repeating (Chained (OperandSpelled False (Spells False))) .nil ?_) ?_
  · intro others ts rest _ hothers
    refine .currentLine fun operandLine => ?_
    refine .bind_gives gives_compareOperator fun result ts' rest' hrest hresult => ?_
    subst hrest
    cases result with
    | none =>
        obtain rfl : ts' = [] := hresult
        refine .pure ?_
        simpa using hothers
    | some op =>
        refine .map_gives (gives_sum hinner) fun value ts'' rest'' hrest hvalue => ?_
        subst hrest
        exact Chained.concat (by simpa using hothers) (.mk hresult hvalue False.elim)
  · rintro others ts' rest' hrest hothers
    subst hrest
    refine .pure ?_
    rw [append_nil]
    cases others with
    | nil =>
        cases hothers
        rw [append_nil]
        exact hfirst
    | cons second others => exact .of_core (.compare hfirst hothers) (by simp [hfirst.ne_nil])

theorem gives_negation : Gives (negation inner) (Spells False .value) := by
  intro us
  refine .currentLine fun line => ?_
  refine .skipName (fun token rest _ htoken => ?_) fun _ => gives_comparison hinner us
  refine .map_gives hinner.negation fun operand ts rest' _ hoperand => ?_
  have hop : unaryFits .not token := htoken
  exact .of_core (.unary hop hoperand) (by simp)

theorem gives_disjunction : Gives (disjunction inner) (Spells False .value) :=
  gives_chain _ (gives_chain _ (gives_negation hinner))

theorem gives_condition : Gives (condition inner) (Spells False .value) := by
  intro us
  refine .currentLine fun line => ?_
  refine .bind_gives (gives_disjunction hinner) fun first ts rest _ hfirst => ?_
  refine .repeating (fun expr ts' rest' => Spells False .value expr (ts ++ ts') rest')
    (by simpa using hfirst) ?_
  intro whenTrue ts' rest' _ htrue
  refine .skipName (fun word rest'' hrest hword => ?_) fun _ => .pure ?_
  · subst hrest
    refine .bind_gives (gives_disjunction hinner) fun test ts'' rest''' hrest htest => ?_
    subst hrest
    refine .map_gives (gives_whenever_skipName hinner.condition _) ?_
    intro whenFalse ts''' rest'''' hrest hfalse
    subst hrest
    have hconditional : Spells False .value (.conditional test whenTrue whenFalse (.onLine line))
        ((ts ++ ts') ++ word :: (ts'' ++ ts''')) rest'''' :=
      .of_core (.conditional htrue hword htest hfalse) (by simp)
    simpa using hconditional
  · simpa using htrue

end Levels

theorem sound_nested (levels : Nat) : (nested levels).Sound := by
  induction levels with
  | zero =>
      have hrefuse : ∀ us : List Token,
          Reads (do fail (← currentLine) .nestingExceeded) us (Spells False .value) :=
        fun us => .currentLine fun _ => .fail
      exact ⟨hrefuse, hrefuse, hrefuse, hrefuse⟩
  | succ levels ih =>
      exact ⟨gives_condition ih, gives_disjunction ih, gives_negation ih, gives_signed ih⟩

end JinjaLayout.Grammar
