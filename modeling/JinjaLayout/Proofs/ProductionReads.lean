import Mathlib
import JinjaLayout.Grammar.Statement
import JinjaLayout.Proofs.Spelling

/-!
What productions read when they succeed, in tokens. A production reads a value if the tokens it took
from the stream spell the value; there is one rule for each of the steps that productions are made
of.
-/

namespace JinjaLayout.Grammar

open Spelling List

/-! ### Tokens and their lexemes -/

section Lexemes

variable {token : Token} {lexeme : Lexeme} (h : token.lexeme = some lexeme)

include h

theorem isOperator_of_lexeme (symbol : Text) : token.isOperator symbol = lexeme.isOperator symbol := by
  simp only [Token.isOperator, Cursor.fits, h, Lexeme.isOperator, Option.isNone_some, Bool.false_or]
  rw [Option.some_beq_some, Bool.beq_comm (a := symbol)]

theorem isName_of_lexeme (word : Text) : token.isName word = lexeme.isName word := by
  simp only [Token.isName, Cursor.fits, h, Lexeme.isName, Option.isNone_some, Bool.false_or]
  rw [Option.some_beq_some, Bool.beq_comm (a := word)]

theorem isKind_of_lexeme (kind : TokenKind) : token.isKind kind = (lexeme.kind == kind) := by
  simp [Token.isKind, Cursor.fits, h]

end Lexemes

variable {token : Token} {symbol word : Text} {kind : TokenKind}

theorem isKind_of_fits {value : Option Text} (h : Cursor.fits token kind value) :
    token.isKind kind := by
  unfold Cursor.fits at h
  unfold Token.isKind Cursor.fits
  cases hlexeme : token.lexeme with
  | none => simp [hlexeme] at h
  | some lexeme =>
      simp only [hlexeme, Bool.and_eq_true] at h
      simp [h.1]

theorem isKind_of_isOperator (h : token.isOperator symbol) : token.isKind .operator = true :=
  isKind_of_fits h

theorem isName_value {lexeme : Lexeme} (hlexeme : token.lexeme = some lexeme)
    (h : token.isKind .name) : token.isName lexeme.value := by
  rw [isKind_of_lexeme hlexeme] at h
  rw [isName_of_lexeme hlexeme]
  simpa [Lexeme.isName] using h

theorem value_of_isName {lexeme : Lexeme} (hlexeme : token.lexeme = some lexeme)
    (h : token.isName word) : lexeme.value = word := by
  rw [isName_of_lexeme hlexeme] at h
  simpa [Lexeme.isName] using (Bool.and_eq_true_iff.mp h).2

theorem isKind_of_isName (h : token.isName word) : token.isKind .name = true :=
  isKind_of_fits h

theorem isKind_unique {kind' : TokenKind} (h : token.isKind kind)
    (h' : token.isKind kind') : kind = kind' := by
  unfold Token.isKind Cursor.fits at h h'
  cases hlexeme : token.lexeme with
  | none => simp [hlexeme] at h
  | some lexeme =>
      simp only [hlexeme, Option.isNone_none, Bool.true_or, Bool.and_true, beq_iff_eq] at h h'
      exact h.symm.trans h'

theorem isKind_eq_false {kind' : TokenKind} (h : token.isKind kind) (hne : kind ≠ kind') :
    token.isKind kind' = false :=
  Bool.eq_false_iff.mpr fun h' => hne (isKind_unique h h')

theorem fits_unique {value value' : Text} (h : Cursor.fits token kind (some value))
    (h' : Cursor.fits token kind (some value')) : value = value' := by
  unfold Cursor.fits at h h'
  cases hlexeme : token.lexeme with
  | none => simp [hlexeme] at h
  | some lexeme =>
      simp only [hlexeme, Option.isNone_some, Bool.false_or, Bool.and_eq_true, beq_iff_eq,
        Option.some.injEq] at h h'
      exact h.2.trans h'.2.symm

theorem isOperator_unique {symbol' : Text} (h : token.isOperator symbol)
    (h' : token.isOperator symbol') :
    symbol = symbol' :=
  fits_unique h h'

theorem isName_unique {word' : Text} (h : token.isName word) (h' : token.isName word') :
    word = word' :=
  fits_unique h h'

theorem notNext_of_isOperator {symbol' : Text} (h : token.isOperator symbol)
    (hne : symbol ≠ symbol') (us : List Token) :
    NotNext (·.isOperator symbol') (token :: us) := by
  have hnot : token.isOperator symbol' = false :=
    Bool.eq_false_iff.mpr fun h' => hne (isOperator_unique h h')
  simpa [NotNext] using hnot

theorem notNext_isOperator_of_isKind (h : token.isKind kind) (hne : kind ≠ .operator)
    (us : List Token) :
    NotNext (·.isOperator symbol) (token :: us) := by
  have hnot : token.isOperator symbol = false :=
    Bool.eq_false_iff.mpr fun h' => hne (isKind_unique h (isKind_of_isOperator h'))
  simpa [NotNext] using hnot

structure Carries (stream : Stream) (us : List Token) : Prop where
  lexemes_eq : us.map Token.lexeme = stream.lexemes.map some
  ends : ∃ front last, us = front ++ [last] ∧ (∀ token ∈ front, token.isKind .eof = false) ∧
    last.isKind .eof = true
  names : ∀ token ∈ us, ∀ word, token.isName word → '.' ∉ word

namespace Carries

variable {stream : Stream} {us : List Token}

theorem exists_cons (h : Carries stream us) :
    ∃ token rest, us = token :: rest ∧ token.lexeme = some stream.head := by
  cases us with
  | nil => simpa [Stream.lexemes] using h.lexemes_eq
  | cons token rest => exact ⟨token, rest, rfl, (cons.inj h.lexemes_eq).1⟩

variable {token : Token}

theorem head (h : Carries stream (token :: us)) :
    token.lexeme = some stream.head :=
  (cons.inj h.lexemes_eq).1

theorem advance (h : Carries stream (token :: us)) (hkind : token.isKind .eof = false) :
    Carries stream.advance us := by
  have htail : us.map Token.lexeme = stream.tail.map some := (cons.inj h.lexemes_eq).2
  have hhead : stream.head.kind ≠ .eof := by
    rw [isKind_of_lexeme h.head] at hkind
    simpa using hkind
  obtain ⟨front, last, hus, hfront, hlast⟩ := h.ends
  obtain ⟨front, rfl⟩ : ∃ front', front = token :: front' := by
    cases front with
    | nil =>
        rw [nil_append, cons.injEq] at hus
        rw [hus.1] at hkind
        simp [hlast] at hkind
    | cons first front => exact ⟨front, by rw [(cons.inj hus).1]⟩
  obtain rfl : us = front ++ [last] := (cons.inj hus).2
  unfold Stream.advance
  rw [if_neg hhead]
  cases htailEq : stream.tail with
  | nil => simp [htailEq] at htail
  | cons next tail =>
      rw [htailEq] at htail
      exact ⟨htail, ⟨front, last, rfl, fun token hmem => hfront token (mem_cons_of_mem _ hmem),
        hlast⟩, fun token hmem => h.names token (mem_cons_of_mem _ hmem)⟩

theorem following (h : Carries stream (token :: us)) (hkind : token.isKind .eof = false) :
    ∃ second rest, us = second :: rest ∧ second.lexeme = some stream.following := by
  obtain ⟨second, rest, rfl, -⟩ := (h.advance hkind).exists_cons
  refine ⟨second, rest, rfl, ?_⟩
  have htail : (second :: rest).map Token.lexeme = stream.tail.map some :=
    (cons.inj h.lexemes_eq).2
  unfold Stream.following
  cases htailEq : stream.tail with
  | nil => simp [htailEq] at htail
  | cons next tail =>
      rw [htailEq] at htail
      exact (cons.inj htail).1

end Carries

/-! ### What is read -/

def Reads {α : Type} (production : Production α) (us : List Token) (good : Spelling α) : Prop :=
  ∀ stream, Carries stream us → ∀ value next, production stream = .ok (value, next) →
    ∃ ts rest, us = ts ++ rest ∧ Carries next rest ∧ good value ts rest

/-- Wherever the production succeeds, the tokens that it took spell its value. -/
def Gives {α : Type} (production : Production α) (good : Spelling α) : Prop :=
  ∀ us, Reads production us good

namespace Reads

variable {α β : Type} {us : List Token}

theorem mono {production : Production α} {good good' : Spelling α} (h : Reads production us good)
    (himp : ∀ value ts rest, us = ts ++ rest → good value ts rest → good' value ts rest) :
    Reads production us good' := by
  intro stream hcarries value next hrun
  obtain ⟨ts, rest, hus, hnext, hgood⟩ := h stream hcarries value next hrun
  exact ⟨ts, rest, hus, hnext, himp value ts rest hus hgood⟩

theorem via {production : Production α} (spelled : Spelling α) {good : Spelling α}
    (h : Reads production us spelled)
    (himp : ∀ value ts rest, us = ts ++ rest → spelled value ts rest → good value ts rest) :
    Reads production us good :=
  h.mono himp

protected theorem pure {value : α} {good : Spelling α} (h : good value [] us) :
    Reads (Pure.pure value) us good := by
  intro stream hcarries value' next hrun
  cases hrun
  exact ⟨[], us, rfl, hcarries, h⟩

theorem error {error : SyntaxError} {good : Spelling α} :
    Reads (throw error : Production α) us good := by
  intro stream _ value next hrun
  cases hrun

theorem fail {line : Nat} {fault : SyntaxFault} {good : Spelling α} :
    Reads (Grammar.fail line fault : Production α) us good :=
  error

theorem bind {first : Production α} {second : α → Production β} {good : Spelling β}
    (h : Reads first us fun value ts rest =>
      Reads (second value) rest fun result ts' rest' => good result (ts ++ ts') rest') :
    Reads (first >>= second) us good := by
  intro stream hcarries result next hrun
  change (first stream >>= fun step => second step.1 step.2) = _ at hrun
  cases hfirst : first stream with
  | error error =>
      rw [hfirst] at hrun
      cases hrun
  | ok step =>
      rw [hfirst] at hrun
      obtain ⟨ts, rest, rfl, hstep, hrest⟩ := h stream hcarries step.1 step.2 hfirst
      obtain ⟨ts', rest', rfl, hnext, hgood⟩ := hrest step.2 hstep result next hrun
      exact ⟨ts ++ ts', rest', by simp, hnext, hgood⟩

theorem bind_reads {first : Production α} {second : α → Production β} (spelled : Spelling α)
    {good : Spelling β} (hfirst : Reads first us spelled)
    (hsecond : ∀ value ts rest, us = ts ++ rest → spelled value ts rest →
      Reads (second value) rest fun result ts' rest' => good result (ts ++ ts') rest') :
    Reads (first >>= second) us good :=
  bind (hfirst.mono hsecond)

theorem bind_gives {first : Production α} {second : α → Production β} {spelled : Spelling α}
    {good : Spelling β} (hfirst : Gives first spelled)
    (hsecond : ∀ value ts rest, us = ts ++ rest → spelled value ts rest →
      Reads (second value) rest fun result ts' rest' => good result (ts ++ ts') rest') :
    Reads (first >>= second) us good :=
  bind_reads spelled (hfirst us) hsecond

theorem map_gives {production : Production α} {f : α → β} {spelled : Spelling α}
    {good : Spelling β} (h : Gives production spelled)
    (himp : ∀ value ts rest, us = ts ++ rest → spelled value ts rest → good (f value) ts rest) :
    Reads (do return f (← production)) us good := by
  refine bind_gives h fun value ts rest hus hspelled => Reads.pure ?_
  rw [append_nil]
  exact himp value ts rest hus hspelled

theorem current {second : Lexeme → Production β} {good : Spelling β}
    (h : ∀ token rest lexeme, us = token :: rest → token.lexeme = some lexeme →
      Reads (second lexeme) us good) : Reads (Grammar.current >>= second) us good := by
  intro stream hcarries
  obtain ⟨token, rest, hus, hlexeme⟩ := hcarries.exists_cons
  exact h token rest stream.head hus hlexeme stream hcarries

theorem currentLine {second : Nat → Production β} {good : Spelling β}
    (h : ∀ line, Reads (second line) us good) : Reads (Grammar.currentLine >>= second) us good :=
  fun stream hcarries => h stream.head.line stream hcarries

variable {token : Token} {rest : List Token}

theorem next {second : Lexeme → Production β} {good : Spelling β}
    (hkind : token.isKind .eof = false) (h : ∀ lexeme, token.lexeme = some lexeme →
      Reads (second lexeme) rest fun result ts rest' => good result (token :: ts) rest') :
    Reads (Grammar.next >>= second) (token :: rest) good := by
  intro stream hcarries result next hrun
  change second stream.head stream.advance = _ at hrun
  obtain ⟨ts, rest', rfl, hnext, hgood⟩ :=
    h stream.head hcarries.head stream.advance (hcarries.advance hkind) result next hrun
  exact ⟨token :: ts, rest', rfl, hnext, hgood⟩

theorem next_of_kind {kind : TokenKind} {second : Lexeme → Production β} {good : Spelling β}
    (hkind : token.isKind kind) (hne : kind ≠ .eof)
    (h : ∀ lexeme, token.lexeme = some lexeme →
      Reads (second lexeme) rest fun result ts rest' => good result (token :: ts) rest') :
    Reads (Grammar.next >>= second) (token :: rest) good :=
  next (isKind_eq_false hkind hne) h

theorem following {second : Lexeme → Production β} {good : Spelling β}
    (hkind : token.isKind .eof = false)
    (h : ∀ after rest' lexeme, rest = after :: rest' → after.lexeme = some lexeme →
      Reads (second lexeme) (token :: rest) good) :
    Reads (Grammar.following >>= second) (token :: rest) good := by
  intro stream hcarries
  obtain ⟨after, rest', hrest, hlexeme⟩ := hcarries.following hkind
  exact h after rest' stream.following hrest hlexeme stream hcarries

theorem following_any {second : Lexeme → Production β} {good : Spelling β}
    (h : ∀ lexeme, Reads (second lexeme) us good) : Reads (Grammar.following >>= second) us good :=
  fun stream hcarries => h stream.following stream hcarries

theorem of_cons {production : Production α} {good : Spelling α}
    (h : ∀ token rest, us = token :: rest → Reads production us good) :
    Reads production us good := by
  intro stream hcarries
  obtain ⟨token, rest, hus, -⟩ := hcarries.exists_cons
  exact h token rest hus stream hcarries

theorem next_of_eof {second : Lexeme → Production β} {good : Spelling β}
    (hkind : token.isKind .eof)
    (h : ∀ lexeme, lexeme.kind = .eof → Reads (second lexeme) (token :: rest) good) :
    Reads (Grammar.next >>= second) (token :: rest) good := by
  intro stream hcarries
  have heof : stream.head.kind = .eof := by
    rw [isKind_of_lexeme hcarries.head] at hkind
    simpa using hkind
  have hstay : stream.advance = stream := by rw [Stream.advance, if_pos heof]
  have hstep : (Grammar.next >>= second) stream = second stream.head stream := by
    change second stream.head stream.advance = _
    rw [hstay]
  rw [hstep]
  exact h stream.head heof stream hcarries

section Steps

variable {good : Spelling β} {second : Bool → Production β}

theorem test_any {look : Lexeme → Bool} (h : ∀ outcome, Reads (second outcome) us good) :
    Reads ((do return look (← Grammar.current)) >>= second) us good :=
  bind (current fun _ _ _ _ _ => Reads.pure (h _))

theorem test {look : Production Bool} {those : Token → Bool}
    (hlook : ∀ stream token rest, Carries stream (token :: rest) →
      look stream = .ok (those token, stream))
    (hhit : ∀ token rest, us = token :: rest → those token → Reads (second true) us good)
    (hmiss : NotNext those us → Reads (second false) us good) :
    Reads (look >>= second) us good := by
  intro stream hcarries
  obtain ⟨token, rest, rfl, -⟩ := hcarries.exists_cons
  have hstep : (look >>= second) stream = second (those token) stream := by
    change (look stream >>= fun step => second step.1 step.2) = _
    rw [hlook stream token rest hcarries]
    rfl
  rw [hstep]
  cases hthose : those token with
  | true => exact hhit token rest rfl hthose stream hcarries
  | false => exact hmiss (by simpa [NotNext] using hthose) stream hcarries

theorem atOperator {symbol : Text}
    (hhit : ∀ token rest, us = token :: rest → token.isOperator symbol = true →
      Reads (second true) us good)
    (hmiss : NotNext (·.isOperator symbol) us → Reads (second false) us good) :
    Reads (Grammar.atOperator symbol >>= second) us good := by
  refine test (fun stream token rest hcarries => ?_) hhit hmiss
  rw [isOperator_of_lexeme hcarries.head]
  rfl

variable {word : Text}

theorem atName (hhit : ∀ token rest, us = token :: rest → token.isName word = true →
      Reads (second true) us good)
    (hmiss : NotNext (·.isName word) us → Reads (second false) us good) :
    Reads (Grammar.atName word >>= second) us good := by
  refine test (fun stream token rest hcarries => ?_) hhit hmiss
  rw [isName_of_lexeme hcarries.head]
  rfl

theorem atKind {kind : TokenKind}
    (hhit : ∀ token rest, us = token :: rest → token.isKind kind = true →
      Reads (second true) us good)
    (hmiss : NotNext (·.isKind kind) us → Reads (second false) us good) :
    Reads (Grammar.atKind kind >>= second) us good := by
  refine test (fun stream token rest hcarries => ?_) hhit hmiss
  rw [isKind_of_lexeme hcarries.head]
  rfl

theorem skipOperator {symbol : Text}
    (hhit : ∀ token rest, us = token :: rest → token.isOperator symbol = true →
      Reads (second true) rest fun result ts rest' => good result (token :: ts) rest')
    (hmiss : NotNext (·.isOperator symbol) us → Reads (second false) us good) :
    Reads (Grammar.skipOperator symbol >>= second) us good := by
  refine bind (atOperator (fun token rest hus htoken => ?_) fun hnext => Reads.pure (hmiss hnext))
  subst hus
  refine next_of_kind (isKind_of_isOperator htoken) (by decide) fun _ _ => Reads.pure ?_
  exact hhit token rest rfl htoken

theorem skipName (hhit : ∀ token rest, us = token :: rest → token.isName word = true →
      Reads (second true) rest fun result ts rest' => good result (token :: ts) rest')
    (hmiss : NotNext (·.isName word) us → Reads (second false) us good) :
    Reads (Grammar.skipName word >>= second) us good := by
  refine bind (atName (fun token rest hus htoken => ?_) fun hnext => Reads.pure (hmiss hnext))
  subst hus
  refine next_of_kind (isKind_of_isName htoken) (by decide) fun _ _ => Reads.pure ?_
  exact hhit token rest rfl htoken

theorem atNames {first : Text}
    (hhit : ∀ token after rest, us = token :: after :: rest → token.isName first = true →
      after.isName word → Reads (second true) us good) (hmiss : Reads (second false) us good) :
    Reads (Grammar.atNames first word >>= second) us good := by
  refine bind ?_
  refine current fun token rest lexeme hus hlexeme => ?_
  subst hus
  cases htoken : lexeme.isName first with
  | false =>
      intro stream hcarries value next hrun
      change Except.ok (false && stream.following.isName word, stream) = _ at hrun
      cases hrun
      exact ⟨[], _, rfl, hcarries, hmiss⟩
  | true =>
      have hname : token.isName first := (isName_of_lexeme hlexeme first).trans htoken
      have hkind := isKind_eq_false (isKind_of_isName hname) (by decide : TokenKind.name ≠ .eof)
      refine following hkind fun after rest' lexeme' hrest hlexeme' => ?_
      subst hrest
      refine Reads.pure ?_
      cases hafter : lexeme'.isName word with
      | false => exact hmiss
      | true =>
          exact hhit token after rest' rfl hname ((isName_of_lexeme hlexeme' word).trans hafter)

end Steps

theorem mismatch {expected : String} {good : Spelling α} :
    Reads (Grammar.mismatch expected : Production α) us good := by
  refine current fun _ _ lexeme _ _ => ?_
  split
  · exact fail
  · exact fail

section Expectations

variable {good : Spelling β} {second : Lexeme → Production β}

theorem expect (those : Token → Bool) {accept : Lexeme → Bool} {expected : String}
    (haccept : ∀ token lexeme, token.lexeme = some lexeme → accept lexeme = those token)
    (heof : ∀ token, those token → token.isKind .eof = false)
    (h : ∀ token rest lexeme, us = token :: rest → those token = true →
      token.lexeme = some lexeme →
      Reads (second lexeme) rest fun result ts rest' => good result (token :: ts) rest') :
    Reads (Grammar.expect accept expected >>= second) us good := by
  refine bind (current fun token rest lexeme hus hlexeme => ?_)
  subst hus
  rw [haccept token lexeme hlexeme]
  cases hthose : those token with
  | false => exact mismatch
  | true =>
      have hread : Reads (Grammar.next >>= Pure.pure) (token :: rest) fun value ts rest' =>
          Reads (second value) rest' fun result ts' rest'' => good result (ts ++ ts') rest'' :=
        next (heof token hthose) fun lexeme hlexeme =>
          Reads.pure (h token rest lexeme rfl hthose hlexeme)
      rwa [bind_pure] at hread

theorem expectOperator {symbol : Text}
    (h : ∀ token rest lexeme, us = token :: rest → token.isOperator symbol = true →
      token.lexeme = some lexeme →
      Reads (second lexeme) rest fun result ts rest' => good result (token :: ts) rest') :
    Reads (Grammar.expectOperator symbol >>= second) us good :=
  expect (·.isOperator symbol) (fun _ _ hlexeme => (isOperator_of_lexeme hlexeme symbol).symm)
    (fun _ htoken => isKind_eq_false (isKind_of_isOperator htoken) (by decide)) h

theorem expectWord {word : Text}
    (h : ∀ token rest lexeme, us = token :: rest → token.isName word = true →
      token.lexeme = some lexeme →
      Reads (second lexeme) rest fun result ts rest' => good result (token :: ts) rest') :
    Reads (Grammar.expectWord word >>= second) us good :=
  expect (·.isName word) (fun _ _ hlexeme => (isName_of_lexeme hlexeme word).symm)
    (fun _ htoken => isKind_eq_false (isKind_of_isName htoken) (by decide)) h

theorem expectKind {kind : TokenKind} (hne : kind ≠ .eof)
    (h : ∀ token rest lexeme, us = token :: rest → token.isKind kind = true →
      token.lexeme = some lexeme →
      Reads (second lexeme) rest fun result ts rest' => good result (token :: ts) rest') :
    Reads (Grammar.expectKind kind >>= second) us good :=
  expect (·.isKind kind) (fun _ _ hlexeme => (isKind_of_lexeme hlexeme kind).symm)
    (fun _ htoken => isKind_eq_false htoken hne) h

theorem expectName
    (h : ∀ token rest lexeme, us = token :: rest → token.isName lexeme.value = true →
      '.' ∉ lexeme.value →
      Reads (second lexeme) rest fun result ts rest' => good result (token :: ts) rest') :
    Reads (Grammar.expectName >>= second) us good := by
  intro stream hcarries
  refine expect (·.isKind .name)
    (fun _ _ hlexeme => (isKind_of_lexeme hlexeme .name).symm)
    (fun _ htoken => isKind_eq_false htoken (by decide))
    (fun token rest lexeme hus htoken hlexeme => ?_) stream hcarries
  have hname := isName_value hlexeme htoken
  exact h token rest lexeme hus hname (hcarries.names token (by simp [hus]) _ hname)

end Expectations

theorem repeating {turn : α → Production (α ⊕ β)} {start : α} {good : Spelling β}
    (inv : Spelling α) (hstart : inv start [] us)
    (hturn : ∀ state ts rest, us = ts ++ rest → inv state ts rest →
      Reads (turn state) rest fun result ts' rest' =>
        Sum.elim (fun state => inv state (ts ++ ts') rest')
          (fun value => good value (ts ++ ts') rest') result) :
    Reads (Grammar.repeating turn start) us good := by
  have hiterate : ∀ (bound : List Lexeme) (state : α) (ts rest : List Token), us = ts ++ rest →
      inv state ts rest →
      Reads (iterate turn bound state) rest fun value ts' rest' => good value (ts ++ ts') rest' := by
    intro bound
    induction bound with
    | nil => exact fun state ts rest _ _ => currentLine fun _ => fail
    | cons lexeme bound ih =>
        intro state ts rest hus hinv
        refine bind ((hturn state ts rest hus hinv).mono fun result ts' rest' hrest hresult => ?_)
        cases result with
        | inl state' =>
            have hnext := ih state' (ts ++ ts') rest' (by rw [hus, hrest, append_assoc]) hresult
            simpa only [append_assoc] using hnext
        | inr value =>
            refine Reads.pure ?_
            rw [append_nil]
            exact hresult
  intro stream hcarries value next hrun
  exact hiterate stream.lexemes start [] us rfl hstart stream hcarries value next hrun

end Reads

end JinjaLayout.Grammar
