import Mathlib
import JinjaLayout.Proofs.ExpressionReads
import JinjaLayout.Proofs.StatementSpelling

/-!
The productions for statements read what they say. The begin delimiter of a tag is read before its
statement and the end delimiter behind it, so a production for a statement reads what stands between
the first and the last token.
-/

namespace JinjaLayout.Grammar

open Spelling List

/-! ### Bodies -/

section Bodies

variable (table : List Token)

/-- What is read for a statement between its first and its last token. -/
def TagRead : Spelling Stmt :=
  fun stmt ts us => ∀ opening closing rest, us = closing :: rest →
    opening.isKind .blockBegin → closing.isKind .blockEnd = true →
      StmtSpells table False stmt (opening :: (ts ++ [closing])) rest

/-- All the productions one level deeper read what they say. -/
structure Inner.SoundAll (inner : Inner) : Prop extends inner.Sound where
  statement : Gives inner.statement (TagRead table)

def IsColon (colons : List Token) : Prop :=
  colons = [] ∨ ∃ colon, colons = [colon] ∧ colon.isOperator ":" = true

/-- What is read for statements: up to the end of the template or behind the begin delimiter of an
end tag. -/
inductive BodyRead (ends : List Text) : Spelling (List Stmt) where
  | eof {stmts ts last us} (hstmts : Chained (StmtSpells table False) stmts ts (last :: us))
      (hlast : last.isKind .eof) : BodyRead ends stmts ts (last :: us)
  | stop {stmts ts opening word stop us}
      (hstmts : Chained (StmtSpells table False) stmts ts (opening :: word :: us))
      (hopening : opening.isKind .blockBegin) (hstop : stop ∈ ends)
      (hword : word.isName stop) : BodyRead ends stmts (ts ++ [opening]) (word :: us)

/-- What is read from the end of a tag to behind the begin delimiter of an end tag. -/
inductive UntilRead (ends : List Text) : Spelling (List Stmt) where
  | mk {stmts colons closing ts opening word stop us} (hcolons : IsColon colons)
      (hclosing : closing.isKind .blockEnd)
      (hstmts : Chained (StmtSpells table False) stmts ts (opening :: word :: us))
      (hopening : opening.isKind .blockBegin) (hstop : stop ∈ ends)
      (hword : word.isName stop) :
      UntilRead ends stmts (colons ++ closing :: (ts ++ [opening])) (word :: us)

/-- What is read from the end of a tag to behind the word of an end tag. -/
inductive ThroughRead (stop : Text) : Spelling (List Stmt) where
  | mk {stmts colons closing ts opening word us} (hcolons : IsColon colons)
      (hclosing : closing.isKind .blockEnd)
      (hstmts : Chained (StmtSpells table False) stmts ts (opening :: word :: us))
      (hopening : opening.isKind .blockBegin) (hword : word.isName stop) :
      ThroughRead stop stmts (colons ++ closing :: (ts ++ [opening, word])) us

/-- The statements read so far and the parts of the next output. -/
inductive Gathered : Spelling Body where
  | mk {done pending line ts ts' us} {parts : List (Expr × Option TagPair)}
      (hdone : Chained (StmtSpells table False) done ts (ts' ++ us))
      (hparts : Chained (NodeSpelled table False) parts ts' us)
      (hpending : pending = parts.map Prod.fst) :
      Gathered ⟨done, pending, line⟩ (ts ++ ts') us

variable {table}

theorem Gathered.flush {body : Body} {ts us : List Token} (h : Gathered table body ts us) :
    Chained (StmtSpells table False) body.flush ts us := by
  obtain @⟨done, pending, line, ts, ts', us, parts, hdone, hparts, rfl⟩ := h
  cases parts with
  | nil =>
      cases hparts
      simpa [Body.flush] using hdone
  | cons part parts =>
      have houtput : StmtSpells table False
          (.output ((part :: parts).map Prod.fst) (.onLine line)) ts' us :=
        .fold (.output (by simp) hparts False.elim)
      exact hdone.concat houtput

theorem Gathered.push {body : Body} {part : Expr × Option TagPair} {line : Nat}
    {ts ts' us : List Token} (h : Gathered table body ts (ts' ++ us))
    (hpart : NodeSpelled table False part ts' us) :
    Gathered table (body.push line part.1) (ts ++ ts') us := by
  generalize hrest : ts' ++ us = rest at h
  obtain @⟨done, pending, bodyLine, ts, ts'', us', parts, hdone, hparts, rfl⟩ := h
  subst hrest
  rw [append_assoc]
  refine .mk ?_ (hparts.concat hpart) (by simp)
  simpa using hdone

theorem gives_body {inner : Inner} (hinner : inner.SoundAll table) (ends : List Text) :
    Gives (body inner ends) (BodyRead table ends) := by
  intro us
  refine .repeating (Gathered table) (Gathered.mk .nil .nil rfl) ?_
  intro body ts rest hus hbody
  refine .current fun token rest' lexeme hrest hlexeme => ?_
  subst hrest
  have hkindOf : ∀ kind, lexeme.kind = kind → token.isKind kind := by
    intro kind hkind
    rw [isKind_of_lexeme hlexeme, hkind]
    simp
  split
  · rename_i hkind
    refine .next_of_kind (hkindOf _ hkind) (by decide) fun _ _ => .pure ?_
    have hnode : NodeSpelled table False (.data lexeme.value (.onLine lexeme.line), none) [token]
        rest' := .data (hkindOf _ hkind) (by simp [hlexeme]) False.elim
    exact Gathered.push hbody hnode
  · rename_i hkind
    refine .next_of_kind (hkindOf _ hkind) (by decide) fun _ _ => ?_
    refine .bind_gives (gives_tuple hinner.condition []) fun expr ts' rest'' hrest hexpr => ?_
    subst hrest
    refine .expectKind (by decide) fun closing rest''' _ hrest hclosing _ => .pure ?_
    subst hrest
    have hnode : NodeSpelled table False (expr, some default) (token :: (ts' ++ [closing])) rest''' :=
      .expr (hkindOf _ hkind) hexpr hclosing False.elim
    exact Gathered.push (by simpa using hbody) hnode
  · rename_i hkind
    have htoken := hkindOf _ hkind
    refine .next_of_kind htoken (by decide) fun _ _ => ?_
    refine .current fun word rest'' wordLexeme hrest hword => ?_
    subst hrest
    split
    · rename_i hany
      obtain ⟨stop, hstop, hname⟩ := any_eq_true.mp hany
      rw [← isName_of_lexeme hword] at hname
      exact .pure (.stop hbody.flush htoken hstop hname)
    · refine .bind_gives hinner.statement fun stmt ts' rest''' hrest hstmt => ?_
      rw [hrest] at hbody
      refine .expectKind (by decide) fun closing rest'''' _ hrest' hclosing _ => .pure ?_
      subst hrest'
      have hflush : Chained (StmtSpells table False) body.flush ts
          ((token :: (ts' ++ [closing])) ++ rest'''') := by simpa using hbody.flush
      have hdone := hflush.concat (hstmt token closing _ rfl htoken hclosing)
      have hgathered : Gathered table ⟨body.flush ++ [stmt], [], 0⟩
          ((ts ++ token :: (ts' ++ [closing])) ++ []) rest'''' := .mk (by exact hdone) .nil rfl
      simpa using hgathered
  · rename_i hkind
    refine .pure ?_
    rw [append_nil]
    exact .eof hbody.flush (hkindOf _ hkind)
  · exact .fail

theorem gives_bodyUntil {inner : Inner} (hinner : inner.SoundAll table) (ends : List Text) :
    Gives (bodyUntil inner ends) (UntilRead table ends) := by
  intro us
  have hbody : ∀ colons closing rest, IsColon colons → closing.isKind .blockEnd = true →
      Reads (do
        let stmts ← body inner ends
        if ← atKind .eof then fail (← currentLine) (.unclosedBody (ends.map Text.asString))
        else return stmts) rest fun stmts ts rest' =>
          UntilRead table ends stmts (colons ++ closing :: ts) rest' := by
    intro colons closing rest hcolons hclosing
    refine .bind_gives (gives_body hinner ends) fun stmts ts rest' _ hstmts => ?_
    refine .atKind (fun _ _ _ _ => .currentLine fun _ => .fail) fun hnext => ?_
    refine .pure ?_
    rw [append_nil]
    cases hstmts with
    | eof _ hlast => simp [NotNext, hlast] at hnext
    | stop hstmts hopening hstop hword => exact .mk hcolons hclosing hstmts hopening hstop hword
  refine .skipOperator (fun colon rest _ hcolon => ?_) fun _ => ?_
  · refine .expectKind (by decide) fun closing rest' _ _ hclosing _ => ?_
    exact hbody [colon] closing rest' (.inr ⟨colon, rfl, hcolon⟩) hclosing
  · refine .expectKind (by decide) fun closing rest' _ _ hclosing _ => ?_
    exact hbody [] closing rest' (.inl rfl) hclosing

theorem gives_bodyThrough {inner : Inner} (hinner : inner.SoundAll table) (stop : Text) :
    Gives (bodyThrough inner stop) (ThroughRead table stop) := by
  intro us
  refine .bind_gives (gives_bodyUntil hinner [stop]) fun stmts ts rest _ hstmts => ?_
  obtain ⟨hcolons, hclosing, hstmts, hopening, hstop, hword⟩ := hstmts
  rw [mem_singleton.mp hstop] at hword
  refine .next_of_kind (isKind_of_isName hword) (by decide) fun _ _ => .pure ?_
  simpa using ThroughRead.mk hcolons hclosing hstmts hopening hword

theorem ThroughRead.enclosed {keyword stop : Text} {inside last : Phrase} {stmts : List Stmt}
    {opening word closing : Token} {ts ts' ts'' us : List Token}
    (h : ThroughRead table stop stmts ts' (ts'' ++ closing :: us))
    (hopening : opening.isKind .blockBegin) (hword : word.isName keyword)
    (hinside : inside ts (ts' ++ (ts'' ++ closing :: us)))
    (hlast : last ts'' (closing :: us)) (hclosing : closing.isKind .blockEnd) :
    EnclosedSpelled table False (StmtSpells table False) keyword stop inside last stmts
      [default, default] (opening :: word :: (ts ++ (ts' ++ (ts'' ++ [closing])))) us := by
  generalize hrest : ts'' ++ closing :: us = rest at h
  obtain @⟨_, colons, first, body, second, stopWord, _, hcolons, hfirst, hstmts, hsecond, hstop⟩ := h
  subst hrest
  have hopened : TagSpelled table False keyword inside default
      (opening :: word :: (ts ++ (colons ++ [first])))
      (body ++ ((second :: stopWord :: (ts'' ++ ([] ++ [closing]))) ++ us)) :=
    .mk hopening hword (by simpa using hinside) hcolons hfirst False.elim
  have hclosed : TagSpelled table False stop last default
      (second :: stopWord :: (ts'' ++ ([] ++ [closing]))) us :=
    .mk hsecond hstop (by simpa using hlast) (.inl rfl) hclosing False.elim
  have hstmts' : Chained (StmtSpells table False) stmts body
      ((second :: stopWord :: (ts'' ++ ([] ++ [closing]))) ++ us) := by simpa using hstmts
  simpa using EnclosedSpelled.mk hopened hstmts' hclosed

theorem tagSpelled_single {keyword : Text} {inside : Phrase} {opening word closing : Token}
    {ts us : List Token} (hopening : opening.isKind .blockBegin)
    (hword : word.isName keyword) (hinside : inside ts (closing :: us))
    (hclosing : closing.isKind .blockEnd) :
    TagSpelled table False keyword inside default (opening :: word :: (ts ++ [closing])) us :=
  .mk hopening hword hinside (.inl rfl) hclosing False.elim

end Bodies

/-! ### What stands in tags -/

section Tags

variable {table : List Token} {inner : Inner} (hinner : inner.SoundAll table)

include hinner

theorem gives_target (stops : List Text) :
    Gives (target inner stops) fun expr ts us =>
      Spells False (.target .store) expr ts us ∧ expr.isAssignable := by
  intro us
  refine .currentLine fun line => ?_
  refine .bind_gives (gives_tuple (gives_primary hinner.toSound) stops) ?_
  intro expr ts rest _ hexpr
  unfold assignable
  split
  · rename_i hassignable
    refine .pure ?_
    rw [append_nil]
    exact ⟨hexpr.withContext .store rfl hassignable, hassignable⟩
  · exact .fail

theorem gives_setTarget : Gives (setTarget inner) (SetTarget False) := by
  intro us
  have htarget : Reads (target inner []) us (SetTarget False) :=
    (gives_target hinner [] us).mono fun _ _ _ _ h => ⟨_, .inl rfl, h.1⟩
  refine .of_cons fun token rest hus => ?_
  subst hus
  cases heof : token.isKind .eof with
  | true =>
      refine .following_any fun lexeme => ?_
      split
      · refine .expectName fun name rest' _ hrest hname _ => ?_
        obtain rfl : token = name := (cons.inj hrest).1
        exact absurd heof (by simp [isKind_eq_false (isKind_of_isName hname)])
      · exact htarget
  | false =>
      refine .following heof fun point rest' lexeme hrest hlexeme => ?_
      subst hrest
      split
      · rename_i hpoint
        rw [← isOperator_of_lexeme hlexeme] at hpoint
        refine .expectName fun name rest'' _ hrest hname _ => ?_
        obtain ⟨rfl, rfl⟩ := cons.inj hrest
        refine .next_of_kind (isKind_of_isOperator hpoint) (by decide) fun _ _ => ?_
        refine .expectName fun key rest'' _ hrest hkey _ => .pure ?_
        exact ⟨_, .inr rfl, Spells.of_core (.member hname hpoint hkey) (by simp)⟩
      · exact htarget

omit hinner in
theorem gives_parameter : Gives parameter (Spells False (.target .param)) := by
  intro us
  refine .expectName fun token rest lexeme _ htoken _ => ?_
  unfold assignable
  split
  · rename_i hassignable
    refine .pure (Spells.of_core (.name rfl (fun _ => ?_) htoken) (by simp))
    simpa [Expr.isAssignable] using hassignable
  · exact .bind .fail

/-- The parameters read so far and the defaults of the last ones. -/
inductive SignatureRead : Spelling (List Expr × List Expr) where
  | mk {plain : List Expr} {withs : List (Expr × Expr)} {ts us}
      (h : Collected (ParameterSpelled False)
        (plain.map (·, none) ++ withs.map fun parameter => (parameter.1, some parameter.2)) ts us) :
      SignatureRead (plain ++ withs.map Prod.fst, withs.map Prod.snd) ts us

theorem gives_signature :
    Gives (signature inner) fun result ts us =>
      SignatureSpelled False result.1 result.2 ts us := by
  intro us
  refine .expectOperator fun opening rest _ _ hopening _ => ?_
  refine .bind_reads SignatureRead (.repeating SignatureRead
    (@SignatureRead.mk [] [] [] rest (.inl ⟨rfl, rfl⟩)) ?_) ?_
  · rintro ⟨parameters, defaults⟩ ts rest' _ hread
    refine .atOperator (fun _ _ _ _ => .pure ?_) fun _ => ?_
    · rw [append_nil]
      exact hread
    obtain @⟨plain, withs, ts, us, hcollected⟩ := hread
    have hnext : ∀ ts' rest'', Commas (ParameterSpelled False)
        (plain.map (·, none) ++ withs.map fun parameter => (parameter.1, some parameter.2)) ts'
        rest'' →
        Reads (do
          let name ← parameter
          if ← skipOperator "=" then
            return Sum.inl (plain ++ withs.map Prod.fst ++ [name],
              withs.map Prod.snd ++ [← inner.condition])
          else if (withs.map Prod.snd).isEmpty then
            return Sum.inl (plain ++ withs.map Prod.fst ++ [name], withs.map Prod.snd)
          else fail (← currentLine) .requiredAfterDefault) rest''
          fun result ts'' us' => Sum.elim
            (fun state => SignatureRead state (ts' ++ ts'') us')
            (fun state => SignatureRead state (ts' ++ ts'') us') result := by
      intro ts' rest'' hcommas
      refine .bind_gives gives_parameter fun name ts'' rest''' hrest hname => ?_
      subst hrest
      refine .skipOperator (fun equals rest'''' hrest hequals => ?_) fun _ => ?_
      · subst hrest
        refine .map_gives hinner.condition fun value ts''' us' hrest hvalue => ?_
        subst hrest
        have hparameter : ParameterSpelled False (name, some value) (ts'' ++ equals :: ts''') us' :=
          ⟨ts'', equals :: ts''', rfl, hname, .some (.mk hequals hvalue)⟩
        have hpending := Commas.pending (by simpa using hcommas) hparameter
        have hread := @SignatureRead.mk plain (withs ++ [(name, value)]) _ us'
          (.inr (by simpa using hpending))
        simpa using hread
      · cases withs with
        | nil =>
            refine .pure ?_
            rw [append_nil]
            have hparameter : ParameterSpelled False (name, none) ts'' rest''' :=
              ⟨ts'', [], by simp, hname, .none⟩
            have hpending := Commas.pending hcommas hparameter
            have hread := @SignatureRead.mk (plain ++ [name]) [] _ rest'''
              (.inr (by simpa using hpending))
            simpa using hread
        | cons first others => exact .currentLine fun _ => .fail
    rcases hcollected with ⟨hnil, rfl⟩ | hpending
    · obtain ⟨rfl, rfl⟩ : plain = [] ∧ withs = [] := by simpa using hnil
      exact hnext [] _ .nil
    · cases hparameters : plain ++ withs.map Prod.fst with
      | nil =>
          obtain ⟨rfl, rfl⟩ : plain = [] ∧ withs = [] := by simpa using hparameters
          simp [Pending] at hpending
      | cons first others =>
          refine .expectOperator fun comma rest'' _ hrest hcomma _ => ?_
          subst hrest
          rw [← hparameters]
          simpa using hnext _ rest'' (hpending.commas hcomma)
  · rintro ⟨parameters, defaults⟩ ts rest' _ hread
    obtain @⟨plain, withs, ts, us, hcollected⟩ := hread
    refine .expectOperator fun closing rest'' _ hrest hclosing _ => .pure ?_
    subst hrest
    exact .mk hopening (hcollected.listed (notNext_of_isOperator hclosing (by decide) rest''))
      hclosing

omit hinner in
theorem gives_contextChoice : Gives contextChoice fun choice => Words (contextWords choice) := by
  intro us
  have htwo : ∀ (first second : Token) (rest : List Token) (word : Text),
      first.isName word → second.isName "context" = true →
      Reads (do
        let word := (← next).value
        let _ ← next
        return some (word == "with".toList)) (first :: second :: rest) fun choice ts us =>
          (word = "with".toList → Words (contextWords choice) ts us) ∧
          (word = "without".toList → Words (contextWords choice) ts us) := by
    intro first second rest word hfirst hsecond
    refine .next_of_kind (isKind_of_isName hfirst) (by decide) fun lexeme hlexeme => ?_
    refine .next_of_kind (isKind_of_isName hsecond) (by decide) fun _ _ => .pure ?_
    rw [value_of_isName hlexeme hfirst]
    constructor
    · rintro rfl
      exact .cons hfirst (.cons hsecond .nil)
    · rintro rfl
      exact .cons hfirst (.cons hsecond .nil)
  refine .atNames (fun first second rest hus hfirst hsecond => ?_) ?_
  · subst hus
    have hread := (htwo first second rest _ hfirst hsecond).mono
      fun choice ts us _ h => h.1 rfl
    refine .atNames (fun _ _ _ _ _ _ => ?_) ?_
    · exact hread
    · exact hread
  · refine .atNames (fun first second rest hus hfirst hsecond => ?_) ?_
    · subst hus
      exact (htwo first second rest _ hfirst hsecond).mono fun choice ts us _ h => h.2 rfl
    · exact .pure .nil

omit hinner in
theorem next_word {β : Type} {word : Token} {keyword : Text} {us : List Token}
    {second : Lexeme → Production β} {good : Spelling β} (hword : word.isName keyword)
    (h : ∀ lexeme, Reads (second lexeme) us fun result ts rest => good result (word :: ts) rest) :
    Reads (next >>= second) (word :: us) good :=
  .next_of_kind (isKind_of_isName hword) (by decide) fun lexeme _ => h lexeme

variable {word : Token} {us : List Token}

theorem reads_extend (hword : word.isName "extends") :
    Reads (extend inner) (word :: us) (TagRead table) := by
  refine next_word hword fun lexeme => ?_
  refine .map_gives hinner.condition fun template ts rest _ htemplate => ?_
  rintro opening closing rest' rfl hopening hclosing
  exact .fold (.extend (tagSpelled_single hopening hword htemplate hclosing) False.elim)

theorem reads_insertion (hword : word.isName "include") :
    Reads (insertion inner) (word :: us) (TagRead table) := by
  refine next_word hword fun lexeme => ?_
  refine .bind_gives hinner.condition fun template ts rest _ htemplate => ?_
  have hchoice : ∀ ignoreMissing ts' rest',
      Words (if ignoreMissing then ["ignore".toList, "missing".toList] else []) ts' rest' →
      rest = ts' ++ rest' →
      Reads (do return .insert template ignoreMissing (← contextChoice) (.onLine lexeme.line)) rest'
        fun stmt ts'' rest'' => TagRead table stmt (word :: (ts ++ (ts' ++ ts''))) rest'' := by
    intro ignoreMissing ts' rest' hmissing hrest
    subst hrest
    refine .map_gives gives_contextChoice fun choice ts'' rest'' hrest hwords => ?_
    subst hrest
    rintro opening closing rest''' rfl hopening hclosing
    refine .fold (.insert (tagSpelled_single hopening hword ?_ hclosing) False.elim)
    exact ⟨ts, ts' ++ ts'', rfl, by simpa using htemplate, rel_append hmissing hwords⟩
  refine .atNames (fun first second rest' hrest hfirst hsecond => ?_) ?_
  · subst hrest
    refine .next_of_kind (isKind_of_isName hfirst) (by decide) fun _ _ => ?_
    refine .next_of_kind (isKind_of_isName hsecond) (by decide) fun _ _ => ?_
    exact hchoice true [first, second] rest' (.cons hfirst (.cons hsecond .nil)) rfl
  · exact hchoice false [] rest .nil rfl

theorem reads_importAs (hword : word.isName "import") :
    Reads (importAs inner) (word :: us) (TagRead table) := by
  refine next_word hword fun lexeme => ?_
  refine .bind_gives hinner.condition fun template ts rest _ htemplate => ?_
  refine .expectWord fun as rest' _ hrest has _ => ?_
  subst hrest
  refine .expectName fun name rest'' nameLexeme hrest hname _ => ?_
  subst hrest
  refine .map_gives gives_contextChoice fun choice ts' rest''' hrest hwords => ?_
  subst hrest
  rintro opening closing rest'''' rfl hopening hclosing
  refine .fold (.importAs (tagSpelled_single hopening hword ?_ hclosing) False.elim)
  exact ⟨ts, as :: name :: ts', rfl, htemplate, .cons has (.cons hname hwords)⟩

omit hinner in
theorem reads_importedName (hword : word.isKind .name) :
    Reads importedName (word :: us) ImportSpelled := by
  refine .next_of_kind hword (by decide) fun lexeme hlexeme => ?_
  have hname := isName_value hlexeme hword
  split
  · exact .fail
  · refine .bind (.skipName (fun as rest _ has => ?_) fun _ => ?_)
    · refine .expectName fun name rest' nameLexeme _ hnew _ => .pure (.pure ?_)
      exact .cons hname (.cons has (.cons hnew .nil))
    · exact .pure (.pure (.cons hname .nil))

omit hinner in
theorem reads_importTurn (template : Expr) (line : Nat) {names : List ImportedName}
    {ts' rest'' : List Token} (hcommas : Commas ImportSpelled names ts' rest'') :
    Reads (do
      if !(← atKind .name) then mismatch "'name'"
      else match ← contextChoice with
        | some choice =>
            return .inr (Stmt.importNames template names (some choice) (.onLine line))
        | none =>
            let names := names ++ [← importedName]
            match ← contextChoice with
            | some choice =>
                return .inr (Stmt.importNames template names (some choice) (.onLine line))
            | none =>
                if ← atOperator "," then return .inl names
                else return .inr (Stmt.importNames template names none (.onLine line)))
      rest'' fun result ts'' us' => Sum.elim
        (fun names => Collected ImportSpelled names (ts' ++ ts'') us')
        (fun stmt => ∃ names choice,
          stmt = .importNames template names choice (.onLine line) ∧
            Then (Listed ImportSpelled names) (Words (contextWords choice)) (ts' ++ ts'') us')
        result := by
  refine .atKind (fun name rest''' hrest hname => ?_) fun _ => .mismatch
  subst hrest
  refine .bind_gives gives_contextChoice fun choice ts'' us' hrest hchoice => ?_
  cases choice with
  | some choice =>
      rw [hrest] at hcommas
      refine .pure ⟨names, some choice, rfl, ts', ts'', by simp, ?_, hchoice⟩
      exact hcommas.toListed
  | none =>
      cases hchoice
      obtain rfl : name :: rest''' = us' := hrest
      refine .bind_reads _ (reads_importedName hname) fun value ts'' us' hrest hvalue => ?_
      rw [hrest] at hcommas
      have hpending := hcommas.pending hvalue
      refine .bind_gives gives_contextChoice fun choice ts''' us'' hrest' hchoice => ?_
      subst hrest'
      cases choice with
      | some choice =>
          refine .pure ⟨_, some choice, rfl, ts' ++ ts'', ts''', by simp, ?_, hchoice⟩
          refine hpending.listed ((notNext_append ?_).mpr ?_)
          · cases choice <;> cases hchoice <;> simp
          · cases choice <;> cases hchoice <;>
              exact notNext_isOperator_of_isKind (isKind_of_isName ‹_›) (by decide) _
      | none =>
          cases hchoice
          refine .atOperator (fun _ _ _ _ => .pure (.inr ?_)) fun hnext => ?_
          · simpa using hpending
          · refine .pure ⟨_, none, rfl, ts' ++ ts'', [], by simp, ?_, .nil⟩
            exact hpending.listed hnext

theorem reads_importNames (hword : word.isName "from") :
    Reads (importNames inner) (word :: us) (TagRead table) := by
  refine next_word hword fun lexeme => ?_
  refine .bind_gives hinner.condition fun template ts rest _ htemplate => ?_
  refine .expectWord fun import_ rest' _ hrest himport _ => ?_
  subst hrest
  refine .via (fun stmt ts' us' => ∃ names choice,
    stmt = .importNames template names choice (.onLine lexeme.line) ∧
      Then (Listed ImportSpelled names) (Words (contextWords choice)) ts' us')
    (.repeating (Collected ImportSpelled) (.inl ⟨rfl, rfl⟩) ?_) ?_
  · intro names ts' rest'' _ hnames
    rcases hnames with ⟨rfl, rfl⟩ | hpending
    · exact reads_importTurn template lexeme.line .nil
    · cases names with
      | nil => simp [Pending] at hpending
      | cons first others =>
          refine .expectOperator fun comma rest''' _ hrest hcomma _ => ?_
          subst hrest
          have hread := reads_importTurn template lexeme.line (hpending.commas hcomma)
          simp only [append_assoc, cons_append, nil_append] at hread
          exact hread
  · rintro stmt ts' rest'' rfl ⟨names, choice, rfl, hnames⟩ opening closing rest''' rfl hopening hclosing
    refine .fold (.importNames (tagSpelled_single hopening hword ?_ hclosing) False.elim)
    exact ⟨ts, import_ :: ts', rfl, htemplate, [import_], ts', rfl, .cons himport .nil, hnames⟩

theorem reads_printing (hword : word.isName "print") :
    Reads (printing inner) (word :: us) (TagRead table) := by
  refine next_word hword fun lexeme => ?_
  refine .bind_reads (Listed (Spells False .value))
    (.repeating (Collected (Spells False .value)) (.inl ⟨rfl, rfl⟩) ?_) ?_
  · intro nodes ts rest _ hnodes
    refine .atKind (fun closing rest' hrest hclosing => .pure ?_) fun _ => ?_
    · subst hrest
      rw [append_nil]
      exact hnodes.listed (notNext_isOperator_of_isKind hclosing (by decide) rest')
    rcases hnodes with ⟨rfl, rfl⟩ | hpending
    · exact .map_gives hinner.condition fun value ts rest' _ hvalue => .inr (.first hvalue)
    · cases nodes with
      | nil => simp [Pending] at hpending
      | cons first others =>
          refine .expectOperator fun comma rest' _ hrest hcomma _ => ?_
          subst hrest
          refine .map_gives hinner.condition fun value ts' rest'' hrest hvalue => .inr ?_
          subst hrest
          simpa using (hpending.commas hcomma).pending hvalue
  · intro nodes ts rest _ hnodes
    refine .pure ?_
    rw [append_nil]
    rintro opening closing rest' rfl hopening hclosing
    exact .fold (.print (tagSpelled_single hopening hword hnodes hclosing) False.elim)

theorem reads_perform (hword : word.isName "do") :
    Reads (tagged inner .perform) (word :: us) (TagRead table) := by
  refine next_word hword fun lexeme => ?_
  refine .map_gives (gives_tuple hinner.condition []) fun node ts rest _ hnode => ?_
  rintro opening closing rest' rfl hopening hclosing
  exact .fold (.perform (tagSpelled_single hopening hword hnode hclosing) False.elim)

omit hinner in
theorem reads_skip (hword : word.isName "continue") :
    Reads (tagged inner .skip) (word :: us) (TagRead table) := by
  refine next_word hword fun lexeme => .pure ?_
  rintro opening closing rest rfl hopening hclosing
  exact .fold (.skip (tagSpelled_single hopening hword rfl hclosing) False.elim)

omit hinner in
theorem reads_leave (hword : word.isName "break") :
    Reads (tagged inner .leave) (word :: us) (TagRead table) := by
  refine next_word hword fun lexeme => .pure ?_
  rintro opening closing rest rfl hopening hclosing
  exact .fold (.leave (tagSpelled_single hopening hword rfl hclosing) False.elim)

/-! ### Tags around statements -/

omit hinner in
theorem gives_skipName (name : Text) :
    Gives (skipName name) fun hit => Words (wordIf hit name) := by
  intro us
  refine .atName (fun token rest hus htoken => ?_) fun _ => .pure .nil
  subst hus
  exact next_word htoken fun _ => .pure (.cons htoken .nil)

/-- What a tag with statements behind it reads: what stands in it, the statements and the word of
the end tag. -/
theorem reads_enclosed {keyword stop : Text} {inside : Phrase} (stmt : List Stmt → Stmt)
    {ts us : List Token} (hword : word.isName keyword) (hinside : inside ts us)
    (hlayer : ∀ stmts pairs ts us, EnclosedSpelled table False (StmtSpells table False) keyword stop
      inside Nothing stmts pairs ts us → StmtSpells table False (stmt stmts) ts us) :
    Reads (do return stmt (← bodyThrough inner stop)) us fun result ts' rest =>
      TagRead table result (word :: (ts ++ ts')) rest := by
  refine .map_gives (gives_bodyThrough hinner stop) fun stmts ts' rest hus hstmts => ?_
  subst hus
  rintro opening closing rest' rfl hopening hclosing
  have hnothing : Nothing [] (closing :: rest') := rfl
  simpa using hlayer _ _ _ _ (hstmts.enclosed hopening hword hinside hnothing hclosing)

theorem reads_binding (hword : word.isName "with") :
    Reads (binding inner) (word :: us) (TagRead table) := by
  refine .expectWord fun word' rest lexeme hus _ _ => ?_
  obtain ⟨rfl, rfl⟩ := cons.inj hus
  refine .bind_reads (fun state ts rest => ∃ bindings : List (Expr × Expr),
      state = (bindings.map Prod.fst, bindings.map Prod.snd) ∧
        Listed (BoundSpelled False) bindings ts rest)
    (.repeating (fun state ts rest => ∃ bindings : List (Expr × Expr),
      state = (bindings.map Prod.fst, bindings.map Prod.snd) ∧
        Collected (BoundSpelled False) bindings ts rest) ⟨[], rfl, .inl ⟨rfl, rfl⟩⟩ ?_) ?_
  · rintro _ ts rest - ⟨bindings, rfl, hbindings⟩
    refine .atKind (fun closing rest' hrest hclosing => .pure ?_) fun _ => ?_
    · subst hrest
      rw [append_nil]
      exact ⟨bindings, rfl, hbindings.listed (notNext_isOperator_of_isKind hclosing (by decide) rest')⟩
    have hturn : ∀ ts rest, Commas (BoundSpelled False) bindings ts rest →
        Reads (do
          let name ← target inner []
          let _ ← expectOperator "="
          return Sum.inl (bindings.map Prod.fst ++ [name.withContext .param],
            bindings.map Prod.snd ++ [← inner.condition])) rest fun result ts' rest' =>
          Sum.elim (fun state => ∃ bindings : List (Expr × Expr),
              state = (bindings.map Prod.fst, bindings.map Prod.snd) ∧
                Collected (BoundSpelled False) bindings (ts ++ ts') rest')
            (fun state => ∃ bindings : List (Expr × Expr),
              state = (bindings.map Prod.fst, bindings.map Prod.snd) ∧
                Listed (BoundSpelled False) bindings (ts ++ ts') rest') result := by
      intro ts rest hcommas
      refine .bind_gives (gives_target hinner []) fun name ts' rest' hrest hname => ?_
      subst hrest
      refine .expectOperator fun equals rest'' _ hrest hequals _ => ?_
      subst hrest
      refine .map_gives hinner.condition fun value ts'' rest''' hrest hvalue => ?_
      subst hrest
      refine ⟨bindings ++ [(name.withContext .param, value)], by simp, .inr ?_⟩
      have htarget := hname.1.withContext .param rfl
        ((isAssignable_withContext .param name).trans hname.2)
      have hbound : BoundSpelled False (name.withContext .param, value) (ts' ++ equals :: ts'')
          rest''' :=
        ⟨ts', equals :: ts'', rfl, htarget, [equals], ts'', rfl, ⟨equals, rfl, hequals⟩, hvalue⟩
      exact Commas.pending (by simpa using hcommas) hbound
    rcases hbindings with ⟨rfl, rfl⟩ | hpending
    · exact hturn [] rest .nil
    · cases bindings with
      | nil => simp [Pending] at hpending
      | cons first others =>
          refine .expectOperator fun comma rest' _ hrest hcomma _ => ?_
          subst hrest
          have hread := hturn _ rest' (hpending.commas hcomma)
          simp only [append_assoc, cons_append, nil_append] at hread
          exact hread
  · rintro _ ts rest' - ⟨bindings, rfl, hbindings⟩
    exact reads_enclosed hinner _ hword hbindings fun stmts pairs ts us h =>
      .fold (.bind h False.elim)

theorem reads_autoescape (hword : word.isName "autoescape") :
    Reads (autoescape inner) (word :: us) (TagRead table) := by
  refine next_word hword fun lexeme => ?_
  refine .bind_gives hinner.condition fun value ts rest _ hvalue => ?_
  refine reads_enclosed hinner (fun stmts => .scope [.autoescape [⟨"autoescape", value,
    .onLine lexeme.line⟩] stmts (.onLine lexeme.line)] (.onLine lexeme.line)) hword hvalue
    fun stmts pairs ts us h => ?_
  exact .fold (.scope (.fold (.autoescape h False.elim False.elim)) False.elim)

theorem reads_block (hword : word.isName "block") :
    Reads (block inner) (word :: us) (TagRead table) := by
  refine next_word hword fun lexeme => ?_
  refine .expectName fun name rest nameLexeme _ hname _ => ?_
  refine .bind_gives (gives_skipName _) fun isScoped ts rest' _ hscoped => ?_
  refine .bind_gives (gives_skipName _) fun isRequired ts' rest'' _ hrequired => ?_
  refine .atOperator (fun _ _ _ _ => .currentLine fun _ => .fail) fun _ => ?_
  refine .bind_gives (gives_bodyThrough hinner _) fun stmts ts'' rest''' _ hstmts => ?_
  refine .map_gives (gives_skipName _) fun endNamed last rest'''' hrest hend => ?_
  subst hrest
  rintro opening closing rest5 rfl hopening hclosing
  have hinside : Words (nameLexeme.value :: (wordIf isScoped "scoped" ++ wordIf isRequired "required"))
      (name :: (ts ++ ts')) (ts'' ++ (last ++ closing :: rest5)) :=
    .cons hname (rel_append hscoped hrequired)
  have henclosed := hstmts.enclosed hopening hword hinside hend hclosing
  simpa using StmtSpells.fold (.block henclosed False.elim)

theorem reads_filterBlock (hword : word.isName "filter") :
    Reads (filterBlock inner) (word :: us) (TagRead table) := by
  refine next_word hword fun lexeme => ?_
  refine .bind_gives (gives_blockFilter hinner.toSound (.inl rfl)) fun first ts rest _ hfirst => ?_
  refine .bind_reads _ (reads_filterChain hinner.toSound hfirst) fun filter ts' rest' _ hfilter => ?_
  have hread := reads_enclosed hinner (fun stmts => .filterBlock filter stmts (.onLine lexeme.line)) hword hfilter fun stmts pairs ts us h =>
    .fold (.filterBlock h False.elim)
  simpa using hread

theorem reads_macroBlock (hword : word.isName "macro") :
    Reads (macroBlock inner) (word :: us) (TagRead table) := by
  refine next_word hword fun lexeme => ?_
  refine .expectName fun name rest nameLexeme hus hname _ => ?_
  refine .bind_gives (gives_signature hinner) ?_
  rintro ⟨parameters, defaults⟩ ts rest' _ hsignature
  have hinside : Then (Words [nameLexeme.value]) (SignatureSpelled False parameters defaults)
      (name :: ts) rest' := ⟨[name], ts, rfl, .cons hname .nil, hsignature⟩
  exact reads_enclosed hinner _ hword hinside fun stmts pairs ts us h =>
    .fold (.macroBlock h False.elim)

theorem reads_callBlock (hword : word.isName "call") :
    Reads (callBlock inner) (word :: us) (TagRead table) := by
  refine next_word hword fun lexeme => ?_
  have hcallee : ∀ parameters defaults ts rest, us = ts ++ rest →
      SignatureSpelled False parameters defaults ts rest ∨
        parameters = [] ∧ defaults = [] ∧ ts = [] ∧ NotNext (·.isOperator "(") rest →
      Reads (do
        let call ← inner.condition
        if call.isCall then
          return .callBlock call parameters defaults (← bodyThrough inner "endcall")
            (.onLine lexeme.line)
        else fail lexeme.line .callExpected) rest fun result ts' rest' =>
          TagRead table result (word :: (ts ++ ts')) rest' := by
    intro parameters defaults ts rest _ hsignature
    refine .bind_gives hinner.condition fun call ts' rest' hrest hcall => ?_
    subst hrest
    split
    · rename_i hisCall
      have hinside : Then (fun ts us => SignatureSpelled False parameters defaults ts us ∨
            parameters = [] ∧ defaults = [] ∧ ts = [] ∧ NotNext (·.isOperator "(") us)
          (Spells False .value call) (ts ++ ts') rest' := ⟨ts, ts', rfl, hsignature, hcall⟩
      have hread := reads_enclosed hinner
        (fun stmts => .callBlock call parameters defaults stmts (.onLine lexeme.line))
        hword hinside fun stmts pairs ts us h => .fold (.callBlock hisCall h False.elim)
      simpa using hread
    · exact .fail
  refine .atOperator (fun opening rest hus hopening => ?_) fun hnext => ?_
  · refine .bind_gives (gives_signature hinner) ?_
    rintro ⟨parameters, defaults⟩ ts rest' hrest hsignature
    exact hcallee parameters defaults ts rest' hrest (.inl hsignature)
  · exact .bind (.pure (hcallee [] [] [] us rfl (.inr ⟨rfl, rfl, rfl, hnext⟩)))

theorem reads_assignment (hword : word.isName "set") :
    Reads (assignment inner) (word :: us) (TagRead table) := by
  refine next_word hword fun lexeme => ?_
  refine .bind_gives (gives_setTarget hinner) fun target ts rest _ htarget => ?_
  refine .skipOperator (fun equals rest' hrest hequals => ?_) fun _ => ?_
  · subst hrest
    refine .map_gives (gives_tuple hinner.condition []) fun value ts' rest'' hrest hvalue => ?_
    subst hrest
    rintro opening closing rest''' rfl hopening hclosing
    refine .fold (.assign (tagSpelled_single hopening hword ?_ hclosing) False.elim)
    exact ⟨ts, equals :: ts', rfl, htarget, [equals], ts', rfl, ⟨equals, rfl, hequals⟩, hvalue⟩
  · have hfilter : Gives
        (whenever (skipOperator "|") (filterLink inner none >>= filterChain inner))
        (Possibly (Spells False .filter)) := by
      intro us'
      refine .skipOperator (fun bar rest' _ hbar => ?_) fun _ => .pure .none
      exact .map_gives (gives_blockFilters hinner.toSound (.inr ⟨bar, rfl, hbar⟩))
        fun filter ts' rest'' _ hfilter => .some hfilter
    refine .bind_gives hfilter fun filter ts' rest' hrest hfilter => ?_
    subst hrest
    have hinside : Then (SetTarget False target) (Possibly (Spells False .filter) filter) (ts ++ ts')
        rest' := ⟨ts, ts', rfl, htarget, hfilter⟩
    have hread := reads_enclosed hinner
      (fun stmts => .capture target filter stmts (.onLine lexeme.line)) hword hinside
      fun stmts pairs ts us h => .fold (.capture h False.elim)
    simpa using hread

/-! ### Tags with parts between them -/

omit hinner in
def EndRead (table : List Token) (stop : Text) (orElse : List Stmt) : Phrase :=
  fun ts us => ∃ others last ts' ts'', ts = ts' ++ ts'' ∧
    ElseSpelled table False (StmtSpells table False) orElse others ts' (ts'' ++ us) ∧
    TagSpelled table False stop Nothing last ts'' us

omit hinner in
theorem EndRead.single {stop : Text} {opening closing : Token} {us : List Token}
    (hopening : opening.isKind .blockBegin) (hword : word.isName stop)
    (hclosing : closing.isKind .blockEnd) :
    EndRead table stop [] [opening, word, closing] us := by
  have hnothing : Nothing [] (closing :: us) := rfl
  exact ⟨[], default, [], _, rfl, .none, tagSpelled_single hopening hword hnothing hclosing⟩

omit hinner in
theorem EndRead.through {stop : Text} {orElse : List Stmt} {opening closing : Token}
    {ts us : List Token} (h : ThroughRead table stop orElse ts (closing :: us))
    (hopening : opening.isKind .blockBegin) (hword : word.isName "else")
    (hclosing : closing.isKind .blockEnd) :
    EndRead table stop orElse (opening :: word :: (ts ++ [closing])) us := by
  have hnothing : Nothing [] (ts ++ ([] ++ closing :: us)) := rfl
  have hlast : Nothing [] (closing :: us) := rfl
  have henclosed := ThroughRead.enclosed (by exact h) hopening hword hnothing hlast hclosing
  generalize hts : opening :: word :: ([] ++ (ts ++ ([] ++ [closing]))) = all at henclosed
  cases henclosed with
  | mk hfirst hstmts hsecond =>
      refine ⟨_, _, _, _, ?_, .some hfirst hstmts, hsecond⟩
      simpa using hts

theorem reads_loop (hword : word.isName "for") :
    Reads (loop inner) (word :: us) (TagRead table) := by
  refine .expectWord fun word' rest lexeme hus _ _ => ?_
  obtain ⟨rfl, rfl⟩ := cons.inj hus
  refine .bind_gives (gives_target hinner _) fun target ts₁ rest₁ _ htarget => ?_
  refine .expectWord fun in_ rest₂ _ hrest₂ hin _ => ?_
  refine .bind_gives (gives_tuple hinner.disjunction _) fun iterable ts₃ rest₃ hrest₃ hiterable => ?_
  refine .bind_gives (gives_whenever_skipName hinner.condition _)
    fun test ts₄ rest₄ hrest₄ htest => ?_
  refine .bind_gives (gives_skipName _) fun nested ts₅ rest₅ hrest₅ hnested => ?_
  subst hrest₂ hrest₃ hrest₄ hrest₅
  have hinside : Then (Spells False (.target .store) target)
      (Then (Words ["in".toList]) (Then (Spells False .value iterable)
        (Then (Possibly (Behind (·.isName "if") (Spells False .value)) test)
          (Words (wordIf nested "recursive")))))
      (ts₁ ++ in_ :: (ts₃ ++ (ts₄ ++ ts₅))) rest₅ :=
    ⟨ts₁, _, rfl, by simpa using htarget.1, [in_], _, rfl, .cons hin .nil, ts₃, _, rfl,
      by simpa using hiterable, ts₄, ts₅, rfl, htest, hnested⟩
  refine .bind_gives (gives_bodyUntil hinner _) fun stmts ts₆ rest₆ hrest₆ hstmts => ?_
  subst hrest₆
  obtain @⟨_, colons, first, body, second, stopWord, stop, us', hcolons, hfirst, hstmts, hsecond,
    hstop, hstopWord⟩ := hstmts
  -- what is read once the end of the statement is known
  have hloop : ∀ orElse ts rest opening closing, us' = ts ++ closing :: rest →
      opening.isKind .blockBegin = true →
      EndRead table "endfor" orElse (second :: stopWord :: (ts ++ [closing])) rest →
      StmtSpells table False
        (.loop target iterable stmts orElse test nested (.onLine lexeme.line))
        (opening :: ((word :: (ts₁ ++ in_ :: (ts₃ ++ (ts₄ ++ (ts₅ ++ (colons ++
          first :: (body ++ [second]) ++ stopWord :: ts)))))) ++ [closing])) rest := by
    intro orElse ts rest opening closing hus' hopening hend
    subst hus'
    obtain ⟨others, last, ts', ts'', hts, hothers, hlast⟩ := hend
    have hrest : second :: stopWord :: (ts ++ closing :: rest) = ts' ++ (ts'' ++ rest) := by
      simpa using congrArg (· ++ rest) hts
    have hopened : TagSpelled table False "for" _ default
        (opening :: word :: ((ts₁ ++ in_ :: (ts₃ ++ (ts₄ ++ ts₅))) ++ (colons ++ [first])))
        (body ++ (ts' ++ (ts'' ++ rest))) :=
      .mk hopening hword (by rw [← hrest]; simpa using hinside) hcolons hfirst False.elim
    rw [hrest] at hstmts
    have hall : StmtSpells table False
        (.loop target iterable stmts orElse test nested (.onLine lexeme.line))
        ((opening :: word :: ((ts₁ ++ in_ :: (ts₃ ++ (ts₄ ++ ts₅))) ++ (colons ++ [first]))) ++
          (body ++ (ts' ++ ts''))) rest :=
      .fold (.loop hopened hstmts hothers hlast False.elim)
    rw [← hts] at hall
    simpa using hall
  refine .next_of_kind (isKind_of_isName hstopWord) (by decide) fun stopLexeme hstopLexeme => ?_
  rw [value_of_isName hstopLexeme hstopWord]
  split
  · rename_i hstopEq
    subst hstopEq
    refine .bind (.pure (.pure ?_))
    rintro opening closing rest rfl hopening hclosing
    exact hloop [] [] rest opening closing rfl hopening (.single hsecond hstopWord hclosing)
  · rename_i hstopNe
    obtain rfl : stop = "else".toList := by
      rcases mem_cons.mp hstop with hstopEq | hstopEq
      · exact absurd hstopEq hstopNe
      · exact mem_singleton.mp hstopEq
    refine .map_gives (gives_bodyThrough hinner _) fun orElse ts rest hrest horElse => ?_
    rintro opening closing rest' rfl hopening hclosing
    exact hloop orElse ts rest' opening closing hrest hopening
      (.through horElse hsecond hstopWord hclosing)

inductive GuardedRead (table : List Token) : Spelling (Expr × List Stmt) where
  | mk {test stmts ts ts' us} (htest : Spells False .value test ts (ts' ++ us))
      (hstmts : UntilRead table branchEnds stmts ts' us) :
      GuardedRead table (test, stmts) (ts ++ ts') us

theorem gives_guarded : Gives (guarded inner) (GuardedRead table) := by
  intro us
  refine .bind_gives (gives_tuple hinner.disjunction []) fun test ts rest _ htest => ?_
  refine .map_gives (gives_bodyUntil hinner _) fun stmts ts' rest' hrest hstmts => ?_
  subst hrest
  exact .mk htest hstmts

inductive BranchesRead (table : List Token) (test : Expr) (stmts : List Stmt) :
    Spelling (List Branch) where
  | mk {parts : List (Branch × TagPair)} {colons closing opening word stop ts ts' ts'' us}
      (htest : Spells False .value test ts
        (colons ++ closing :: (ts' ++ (ts'' ++ opening :: word :: us))))
      (hcolons : IsColon colons) (hclosing : closing.isKind .blockEnd)
      (hstmts : Chained (StmtSpells table False) stmts ts' (ts'' ++ opening :: word :: us))
      (hparts : Chained (BranchSpelled table False (StmtSpells table False)) parts ts''
        (opening :: word :: us))
      (hopening : opening.isKind .blockBegin) (hstop : stop ∈ branchEnds)
      (hword : word.isName stop) :
      BranchesRead table test stmts (parts.map Prod.fst)
        (ts ++ (colons ++ closing :: (ts' ++ (ts'' ++ [opening])))) (word :: us)

omit hinner in
theorem GuardedRead.first {test : Expr} {stmts : List Stmt} {ts us : List Token}
    (h : GuardedRead table (test, stmts) ts us) : BranchesRead table test stmts [] ts us := by
  obtain @⟨_, _, ts, ts', us, htest, hstmts⟩ := h
  obtain @⟨_, colons, closing, ts', opening, word, stop, us, hcolons, hclosing, hstmts, hopening,
    hstop, hword⟩ := hstmts
  have hread : BranchesRead table test stmts (([] : List (Branch × TagPair)).map Prod.fst)
      (ts ++ (colons ++ closing :: (ts' ++ ([] ++ [opening])))) (word :: us) :=
    .mk (by simpa using htest) hcolons hclosing hstmts .nil hopening hstop hword
  simpa using hread

omit hinner in
theorem BranchesRead.concat {test test' : Expr} {stmts stmts' : List Stmt} {others : List Branch}
    {line : Nat} {ts ts' us : List Token}
    (h : BranchesRead table test stmts others ts (word :: (ts' ++ us)))
    (hword : word.isName "elif") (hguarded : GuardedRead table (test', stmts') ts' us) :
    BranchesRead table test stmts (others ++ [.mk test' stmts' [] [] (.onLine line)])
      (ts ++ word :: ts') us := by
  generalize hrest : ts' ++ us = rest at h
  obtain @⟨parts, colons, closing, opening, _, _, ts₁, ts₂, ts₃, _, htest, hcolons, hclosing, hstmts,
    hparts, hopening, -, -⟩ := h
  obtain @⟨_, _, ts₄, ts₅, us, htest', hstmts'⟩ := hguarded
  obtain @⟨_, colons', closing', ts₅, opening', word', stop, us, hcolons', hclosing', hstmts',
    hopening', hstop, hword'⟩ := hstmts'
  subst hrest
  have htag : TagSpelled table False "elif" (Spells False .value test') default
      (opening :: word :: (ts₄ ++ (colons' ++ [closing']))) (ts₅ ++ opening' :: word' :: us) :=
    .mk hopening hword (by simpa using htest') hcolons' hclosing' False.elim
  have hpart : BranchSpelled table False (StmtSpells table False)
      (.mk test' stmts' [] [] (.onLine line), default)
      ((opening :: word :: (ts₄ ++ (colons' ++ [closing']))) ++ ts₅) (opening' :: word' :: us) :=
    .mk htag hstmts' False.elim
  have hread : BranchesRead table test stmts
      ((parts ++ [(Branch.mk test' stmts' [] [] (.onLine line), default)]).map Prod.fst)
      (ts₁ ++ (colons ++ closing :: (ts₂ ++ ((ts₃ ++
        ((opening :: word :: (ts₄ ++ (colons' ++ [closing']))) ++ ts₅)) ++ [opening']))))
      (word' :: us) :=
    .mk (by simpa using htest) hcolons hclosing (by simpa using hstmts)
      (Chained.concat (by simpa using hparts) hpart) hopening' hstop hword'
  simpa using hread

omit hinner in
theorem BranchesRead.spells {test : Expr} {stmts orElse : List Stmt} {others : List Branch}
    (layout : Layout) {keyword opening closing : Token} {ts ts' us : List Token}
    (h : BranchesRead table test stmts others ts (word :: (ts' ++ closing :: us)))
    (hkeyword : keyword.isName "if") (hopening : opening.isKind .blockBegin)
    (hend : ∀ opening', opening'.isKind .blockBegin = true →
      EndRead table "endif" orElse (opening' :: word :: (ts' ++ [closing])) us) :
    StmtSpells table False (.branch (.mk test stmts others orElse layout))
      (opening :: ((keyword :: (ts ++ word :: ts')) ++ [closing])) us := by
  generalize hrest : ts' ++ closing :: us = rest at h
  obtain @⟨parts, colons, first, opening', _, _, ts₁, ts₂, ts₃, _, htest, hcolons, hfirst, hstmts,
    hparts, hopening', -, -⟩ := h
  subst hrest
  obtain ⟨others, last, ts₄, ts₅, hts, hothers, hlast⟩ := hend opening' hopening'
  have hrest : opening' :: word :: (ts' ++ closing :: us) = ts₄ ++ (ts₅ ++ us) := by
    simpa using congrArg (· ++ us) hts
  rw [hrest] at htest hstmts hparts
  have hopened : TagSpelled table False "if" (Spells False .value test) default
      (opening :: keyword :: (ts₁ ++ (colons ++ [first])))
      (ts₂ ++ (ts₃ ++ (ts₄ ++ (ts₅ ++ us)))) :=
    .mk hopening hkeyword htest hcolons hfirst False.elim
  have hall : StmtSpells table False
      (.branch (.mk test stmts (parts.map Prod.fst) orElse layout))
      ((opening :: keyword :: (ts₁ ++ (colons ++ [first]))) ++ (ts₂ ++ (ts₃ ++ (ts₄ ++ ts₅)))) us :=
    .fold (.branch hopened hstmts hparts hothers hlast False.elim)
  rw [← hts] at hall
  simpa using hall

theorem reads_branch (hword : word.isName "if") :
    Reads (branch inner) (word :: us) (TagRead table) := by
  refine .expectWord fun word' rest lexeme hus _ _ => ?_
  obtain ⟨rfl, rfl⟩ := cons.inj hus
  refine .bind_gives (gives_guarded hinner) ?_
  rintro ⟨test, stmts⟩ ts rest _ hguarded
  refine .repeating (fun others ts' rest' => BranchesRead table test stmts others (ts ++ ts') rest')
    (by simpa using hguarded.first) ?_
  intro others ts' rest' _ hothers
  generalize hall : ts ++ ts' = all at hothers
  have hsplit : ∃ stopWord stop us', rest' = stopWord :: us' ∧ stop ∈ branchEnds ∧
      stopWord.isName stop := by
    cases hothers with
    | mk _ _ _ _ _ _ hstop hword => exact ⟨_, _, _, rfl, hstop, hword⟩
  obtain ⟨stopWord, stop, us', rfl, hstop, hstopWord⟩ := hsplit
  subst hall
  refine .next_of_kind (isKind_of_isName hstopWord) (by decide) fun stopLexeme hstopLexeme => ?_
  rw [← isName_of_lexeme hstopLexeme, ← isName_of_lexeme hstopLexeme]
  split
  · rename_i helif
    refine .bind_gives (gives_guarded hinner) ?_
    rintro ⟨test', stmts'⟩ ts'' us'' hrest hguarded'
    subst hrest
    refine .pure ?_
    simpa using hothers.concat helif hguarded'
  split
  · rename_i helse
    refine .map_gives (gives_bodyThrough hinner _) fun orElse ts'' us'' hrest horElse => ?_
    subst hrest
    rintro opening closing rest'' rfl hopening hclosing
    have hspells := hothers.spells (.onLine lexeme.line) hword hopening fun opening' hopening' =>
      EndRead.through horElse hopening' helse hclosing
    simpa using hspells
  · rename_i helif helse
    have hendif : stopWord.isName "endif" := by
      rcases hstop with _ | ⟨_, _ | ⟨_, hstop⟩⟩
      · exact absurd hstopWord helif
      · exact absurd hstopWord helse
      · rwa [mem_singleton.mp hstop] at hstopWord
    refine .pure ?_
    rintro opening closing rest'' rfl hopening hclosing
    have hend : ∀ opening', opening'.isKind .blockBegin = true →
        EndRead table "endif" [] (opening' :: stopWord :: ([] ++ [closing])) rest'' :=
      fun opening' hopening' => .single hopening' hendif hclosing
    simpa using hothers.spells (.onLine lexeme.line) hword hopening hend

/-! ### Statements and templates -/

theorem reads_tagged {tag : Tag} (hword : word.isName tag.word) :
    Reads (tagged inner tag) (word :: us) (TagRead table) := by
  cases tag with
  | loop => exact reads_loop hinner hword
  | branch => exact reads_branch hinner hword
  | block => exact reads_block hinner hword
  | extend => exact reads_extend hinner hword
  | print => exact reads_printing hinner hword
  | macroBlock => exact reads_macroBlock hinner hword
  | insert => exact reads_insertion hinner hword
  | importNames => exact reads_importNames hinner hword
  | importAs => exact reads_importAs hinner hword
  | set => exact reads_assignment hinner hword
  | bind => exact reads_binding hinner hword
  | autoescape => exact reads_autoescape hinner hword
  | callBlock => exact reads_callBlock hinner hword
  | filterBlock => exact reads_filterBlock hinner hword
  | perform => exact reads_perform hinner hword
  | skip => exact reads_skip hword
  | leave => exact reads_leave hword

theorem gives_statement : Gives (statement inner) (TagRead table) := by
  intro us
  refine .current fun token rest lexeme hus hlexeme => ?_
  subst hus
  split
  · rename_i hkind
    have hname : token.isName lexeme.value :=
      isName_value hlexeme (by simp [isKind_of_lexeme hlexeme, hkind])
    split
    · rename_i tag htag
      have hword : tag.word = lexeme.value := by simpa using find?_some htag
      exact reads_tagged hinner (hword ▸ hname)
    · exact .fail
  · exact .fail

end Tags

theorem soundAll_nested (table : List Token) (levels : Nat) : (nested levels).SoundAll table := by
  refine ⟨sound_nested levels, ?_⟩
  induction levels with
  | zero => exact fun us => .currentLine fun _ => .fail
  | succ levels ih => exact gives_statement ⟨sound_nested levels, ih⟩

theorem spells_of_template {table us : List Token} {lexemes : List Lexeme} {template : Template}
    (hcarries : Carries (.ofLexemes lexemes) us) (h : Grammar.template lexemes = .ok template) :
    ∃ ts last, us = ts ++ [last] ∧ last.isKind .eof = true ∧
      Chained (StmtSpells table False) template.body ts [last] := by
  unfold Grammar.template at h
  cases hbody : (body (nested nestingLimit) []).run (.ofLexemes lexemes) with
  | error error => simp [hbody, Except.map] at h
  | ok result =>
      obtain ⟨stmts, stream⟩ := result
      obtain ⟨ts, rest, hus, hrest, hread⟩ :=
        gives_body (soundAll_nested table _) [] us _ hcarries _ _ hbody
      obtain rfl : (⟨stmts, .onLine 1⟩ : Template) = template := by
        simpa [hbody, Except.map] using h
      cases hread with
      | eof hstmts hlast =>
          obtain ⟨front, final, hends, hfront, -⟩ := hrest.ends
          cases front with
          | nil =>
              obtain ⟨rfl, rfl⟩ := cons.inj hends
              exact ⟨ts, _, hus, hlast, hstmts⟩
          | cons first front =>
              obtain ⟨rfl, -⟩ := cons.inj hends
              simp [hlast] at hfront
      | stop _ _ hstop _ => simp at hstop

end JinjaLayout.Grammar
