import Mathlib
import JinjaLayout.Proofs.StatementReads
import JinjaLayout.Proofs.StatementWalks
import JinjaLayout.Template

/-!
The walk through a whole template. Main statement: where the grammar has read a template, annotation
walks through the same tokens to the end of the template, unless the template nests too deep.
-/

namespace JinjaLayout

open Spelling List

/-- The tokens of the table spell the template, up to the token at its end. In a marked template the
layout of the root holds what follows the last statement. -/
structure Spelling.TemplateSpells (table : List Token) (marked : Prop) (template : Template)
    (ts : List Token) (last : Token) : Prop where
  split : significant table = ts ++ [last]
  ends : last.isKind .eof = true
  body : Chained (StmtSpells table marked) template.body ts [last]
  layout : marked → template.layout.span = some (0, table.length) ∧ template.layout.pairs = [] ∧
    template.layout.trailing = textFrom table (behind table ts) last.index ++ last.text

/-! ### What the grammar reads of a table -/

theorem TokenKind.ne_eof_of_step {region next : Region} {kind : TokenKind}
    (h : region.step kind = some next) : kind ≠ .eof := by
  rintro rfl
  cases region with
  | tag tagEnd => cases tagEnd <;> simp [Region.step, TokenKind.isWord, Scan.TagEnd.kind] at h
  | _ => simp [Region.step] at h

theorem TokenKind.ne_eof_of_after {region next : Region} {kinds : List TokenKind}
    (h : region.after kinds = some next) : ∀ kind ∈ kinds, kind ≠ .eof := by
  induction kinds generalizing region with
  | nil => simp
  | cons kind kinds ih =>
      rw [Region.after_cons] at h
      obtain ⟨middle, hstep, hrest⟩ := Option.bind_eq_some_iff.mp h
      intro other hother
      rcases mem_cons.mp hother with rfl | hother
      · exact ne_eof_of_step hstep
      · exact ih hrest other hother

namespace IsTable

variable {tokens : List Token}

theorem exists_significant (h : IsTable tokens) :
    ∃ initial middle last, tokens = initial :: (middle ++ [last]) ∧ initial.isSignificant = false ∧
      significant tokens = significant middle ++ [last] ∧ last.kind = .eof ∧
      ∀ token ∈ middle, token.kind ≠ .eof := by
  obtain ⟨initial, middle, last, htokens, hinitial, hlast, hregion⟩ := h.exists_middle
  obtain ⟨hinitialNot, hall⟩ := h.significant_of_middle htokens hinitial hlast
  refine ⟨initial, middle, last, htokens, hinitialNot, hall, hlast, fun token htoken => ?_⟩
  exact TokenKind.ne_eof_of_after hregion _ (mem_map_of_mem htoken)

theorem index_last (h : IsTable tokens) {ts : List Token} {last : Token}
    (hsplit : significant tokens = ts ++ [last]) : last.index + 1 = tokens.length := by
  obtain ⟨initial, middle, final, htokens, -, hends, -, -⟩ := h.exists_significant
  obtain rfl : last = final := by simpa using (append_inj' (hsplit.symm.trans hends) rfl).2
  have hlength : tokens.length = middle.length + 2 := by simp [htokens]
  have hlast : tokens[middle.length + 1]? = some last := by simp [htokens]
  obtain ⟨hlt, hget⟩ := List.getElem?_eq_some_iff.mp hlast
  rw [← hget, h.index_eq _ hlt, hlength]

theorem isKind_eq_false_of_ne (h : IsTable tokens) {token : Token} (htoken : token ∈ tokens)
    (hkind : token.kind ≠ .eof) : token.isKind .eof = false := by
  cases hlexeme : token.lexeme with
  | none => simp [Token.isKind, Cursor.fits, hlexeme]
  | some lexeme =>
      rw [Grammar.isKind_of_lexeme hlexeme, (h.faithful token htoken).kind_eq lexeme hlexeme]
      revert hkind
      cases token.kind <;> simp [TokenKind.lexical]

end IsTable

theorem map_lexeme_significant (tokens : List Token) :
    (significant tokens).map Token.lexeme = (tokens.filterMap Token.lexeme).map some := by
  induction tokens with
  | nil => rfl
  | cons token tokens ih =>
      cases hlexeme : token.lexeme with
      | none =>
          rw [filterMap_cons_none hlexeme, ← ih, significant,
            filter_cons_of_neg (by simp [Token.isSignificant, hlexeme]), significant]
      | some lexeme =>
          rw [filterMap_cons_some hlexeme, map_cons, ← ih, significant,
            filter_cons_of_pos (by simp [Token.isSignificant, hlexeme]), map_cons, hlexeme,
            significant]

theorem Grammar.Stream.closed_of_getLast? {last final : Lexeme} {rest : List Lexeme}
    (h : (last :: rest).getLast? = some final) (hfinal : final.kind = .eof) :
    closed last rest = rest := by
  induction rest generalizing last with
  | nil =>
      obtain rfl : last = final := by simpa using h
      rw [closed, if_pos hfinal]
  | cons next rest ih =>
      rw [getLast?_cons_cons] at h
      rw [closed, ih h]

theorem Literal.not_mem_of_isName {text : Text} (h : isName text) : '.' ∉ text := by
  have hdot : Text.continuesName '.' = false := by decide +kernel
  cases text with
  | nil => simp
  | cons c rest =>
      simp only [isName, Bool.and_eq_true, all_eq_true] at h
      rintro (_ | ⟨_, hmem⟩)
      · simp [Text.continuesName_of_startsName h.1] at hdot
      · simp [h.2 _ hmem] at hdot

/-- What the grammar reads as a name is a name. -/
theorem IsTable.isName_of_isName {table : List Token} (h : IsTable table) {token : Token}
    (htoken : token ∈ significant table) {word : Text} (hword : token.isName word) :
    Literal.isName word := by
  have hmem := mem_of_mem_significant htoken
  obtain ⟨lexeme, hlexeme⟩ := Option.isSome_iff_exists.mp (mem_filter.mp htoken).2
  have hname : token.kind = .name := by
    have hread := Grammar.isKind_of_isName hword
    rw [Grammar.isKind_of_lexeme hlexeme, (h.faithful token hmem).kind_eq lexeme hlexeme] at hread
    revert hread
    cases token.kind <;> simp [TokenKind.lexical]
  rw [← Grammar.value_of_isName hlexeme hword,
    (h.faithful token hmem).value_eq lexeme hlexeme (.inl hname)]
  exact h.names token hmem hname

theorem TokenTable.carries {table : TokenTable} (h : IsTable table.tokens) :
    Grammar.Carries (.ofLexemes table.lexemes) (significant table.tokens) := by
  obtain ⟨initial, middle, last, htokens, -, hsplit, hlast, hmiddle⟩ := h.exists_significant
  have hread : last ∈ significant table.tokens := by simp [hsplit]
  obtain ⟨lexeme, hlexeme⟩ := Option.isSome_iff_exists.mp (mem_filter.mp hread).2
  have hkind : lexeme.kind = .eof := by
    rw [(h.faithful last (by simp [htokens])).kind_eq lexeme hlexeme, hlast]
    rfl
  have hlexemes : table.lexemes.map some = (significant middle).map Token.lexeme ++ [some lexeme] := by
    rw [TokenTable.lexemes, ← map_lexeme_significant, hsplit, map_append, map_singleton,
      hlexeme]
  refine ⟨?_, ⟨significant middle, last, hsplit, ?_, ?_⟩, ?_⟩
  · rw [map_lexeme_significant, ← TokenTable.lexemes]
    cases hlist : table.lexemes with
    | nil => simp [hlist] at hlexemes
    | cons first rest =>
        have hfinal : (first :: rest).getLast? = some lexeme := by
          have hends := congrArg getLast? hlexemes
          rw [hlist, getLast?_map] at hends
          simpa using hends
        rw [Grammar.Stream.ofLexemes, Grammar.Stream.lexemes,
          Grammar.Stream.closed_of_getLast? hfinal hkind]
  · intro token htoken
    have hmem : token ∈ middle := IsTable.mem_of_mem_significant htoken
    exact h.isKind_eq_false_of_ne (by simp [htokens, hmem]) (hmiddle token hmem)
  · rw [Grammar.isKind_of_lexeme hlexeme, hkind]
    rfl
  · exact fun token htoken word hword => Literal.not_mem_of_isName (h.isName_of_isName htoken hword)

namespace Alignment

theorem guidedAll {table : List Token} (htable : IsTable table) (levels : Nat) :
    GuidedAll table ⟨fun expr => do return (← expression levels expr).1, statement levels⟩ := by
  induction levels with
  | zero => exact ⟨(guided_expression htable 0).passes, fun _ _ _ _ => Walks.tooDeep⟩
  | succ levels ih =>
      exact ⟨(guided_expression htable (levels + 1)).passes,
        fun h => crosses_statementContent ih htable h.unfold⟩

theorem walks_template {table ts : List Token} {last : Token} {node : Template}
    (htable : IsTable table) (h : TemplateSpells table False node ts last) :
    Walks (template node) { cursor := { tokens := table } } fun result next =>
      TemplateSpells table True result ts last ∧ Inside table (ts ++ [last]) [] [] next := by
  have hstart : Outside table [] (ts ++ [last]) { cursor := { tokens := table } } := by
    obtain ⟨initial, middle, final, htokens, hinitial, -⟩ := htable.exists_significant
    refine ⟨rfl, rfl, rfl, ?_, ?_⟩
    · simp [behind, htokens, significant, hinitial]
    · rw [← h.split]
      simp [behind, htokens, significant, hinitial]
  refine Walks.bind_of (crosses_body (guidedAll htable nestingLimit) h.body [] _ hstart) ?_
  rintro stmts next ⟨⟨hstmts, -⟩, hnext⟩
  refine Walks.bind (walks_seek htable hnext h.ends fun walk hwalk => ?_)
  refine .inr ⟨_, walk, rfl, ⟨⟨h.split, h.ends, hstmts, fun _ => ⟨?_, rfl, rfl⟩⟩, hwalk⟩⟩
  rw [hwalk.tokens_eq]

end Alignment

namespace Template

variable {env : Environment} {name : Option String} {source : Text}

variable {table : TokenTable} {template : Template}

theorem tokens_eq_ok_iff :
    tokens env name source = .ok table ↔ TokenTable.build env name source = .ok table := by
  unfold tokens
  cases TokenTable.build env name source <;> simp [Except.mapError]

theorem ofLexemes_eq_ok_iff {lexemes : List Lexeme} :
    ofLexemes name lexemes = .ok template ↔ Grammar.template lexemes = .ok template := by
  unfold ofLexemes
  cases Grammar.template lexemes <;> simp [Except.mapError]

theorem build_rename (h : TokenTable.build env name source = .ok table) (name' : Option String) :
    TokenTable.build env name' source = .ok { table with name := name' } := by
  unfold TokenTable.build at h ⊢
  cases hscan : scan env (Text.normalizeNewlines source) with
  | error error => simp [hscan] at h
  | ok pieces =>
      simp only [hscan] at h ⊢
      obtain ⟨located, hlocated, rfl⟩ := map_eq_ok_iff.mp h
      rw [hlocated]
      rfl

theorem annotate_of_tokens (h : tokens env none source = .ok table) :
    annotate env source template =
      (annotateWith table template).map fun result => (result, table) := by
  unfold annotate
  rw [h]
  change (annotateWith table template >>= fun result => pure (result, table)) = _
  cases annotateWith table template <;> rfl

theorem exists_tokens_of_parse (h : parse env name source = .ok template) :
    ∃ table, tokens env none source = .ok table ∧ IsTable table.tokens ∧
      ∃ ts last, Spelling.TemplateSpells table.tokens False template ts last := by
  unfold parse at h
  cases htokens : tokens env name source with
  | error error => simp [htokens, bind, Except.bind] at h
  | ok table =>
      have hbuild := tokens_eq_ok_iff.mp htokens
      have hlexemes : ofLexemes name table.lexemes = .ok template := by
        simpa [htokens, bind, Except.bind] using h
      have htable := isTable_of_build hbuild
      obtain ⟨ts, last, hsplit, hlast, hbody⟩ :=
        Grammar.spells_of_template (TokenTable.carries htable) (ofLexemes_eq_ok_iff.mp hlexemes)
      exact ⟨_, tokens_eq_ok_iff.mpr (build_rename hbuild none), htable, ts, last, hsplit, hlast,
        hbody, False.elim⟩

/-- Annotation follows the grammar: what was parsed from a source is annotated with the source unless
it nests too deep, and the walk then takes the tokens that were parsed, in their order, up to the end
of the template. -/
theorem annotate_follows_parse (env : Environment) (name : Option String) (source : Text)
    (template : Template) (h : parse env name source = .ok template) :
    annotate env source template = .error .tooDeep ∨
      ∃ table result walk ts last,
        tokens env none source = .ok table ∧ annotate env source template = .ok (result, table) ∧
        (Alignment.template template).run { cursor := { tokens := table.tokens } } =
          .ok (result, walk) ∧
        walk.cursor.index = table.tokens.length ∧ walk.grouping = [] ∧
        Spelling.TemplateSpells table.tokens False template ts last ∧
        Spelling.TemplateSpells table.tokens True result ts last := by
  obtain ⟨table, htokens, htable, ts, last, hspells⟩ := exists_tokens_of_parse h
  rw [annotate_of_tokens htokens]
  rcases Alignment.walks_template htable hspells with hdeep | ⟨result, walk, hrun, hresult, hwalk⟩
  · left
    have hwith : annotateWith table template = .error .tooDeep := by
      unfold annotateWith Alignment.annotate
      rw [StateT.run'_eq, StateT.run, hdeep]
      rfl
    rw [hwith]
    rfl
  · right
    have hwith : annotateWith table template = .ok result := by
      unfold annotateWith Alignment.annotate
      rw [StateT.run'_eq, StateT.run, hrun]
      rfl
    refine ⟨table, result, walk, ts, last, htokens, by rw [hwith]; rfl, hrun, ?_, hwalk.grouping_eq,
      hspells, hresult⟩
    rw [hwalk.index_eq, ← htable.index_last hspells.split]
    simp [spanOf]

/-- Parentheses that group, an argument in brackets, an empty `else`, and a comment. -/
theorem annotate_follows_parse_of_call :
    ∃ template, parse {} none "{% if (f([x],)) %}{# #}a{% else %}{% endif %}".toList = .ok template ∧
      ∃ table result walk ts last,
        tokens {} none "{% if (f([x],)) %}{# #}a{% else %}{% endif %}".toList = .ok table ∧
        annotate {} "{% if (f([x],)) %}{# #}a{% else %}{% endif %}".toList template =
          .ok (result, table) ∧
        (Alignment.template template).run { cursor := { tokens := table.tokens } } =
          .ok (result, walk) ∧
        walk.cursor.index = table.tokens.length ∧ walk.grouping = [] ∧
        Spelling.TemplateSpells table.tokens False template ts last ∧
        Spelling.TemplateSpells table.tokens True result ts last := by
  have hshallow : ((parse {} none "{% if (f([x],)) %}{# #}a{% else %}{% endif %}".toList).bind
      (annotate {} "{% if (f([x],)) %}{# #}a{% else %}{% endif %}".toList)).toBool = true := by
    decide +kernel
  cases hparse : parse {} none "{% if (f([x],)) %}{# #}a{% else %}{% endif %}".toList with
  | error error =>
      rw [hparse] at hshallow
      exact absurd hshallow Bool.false_ne_true
  | ok template =>
      refine ⟨template, rfl, (annotate_follows_parse {} none _ _ hparse).resolve_left ?_⟩
      intro hdeep
      rw [hparse, Except.bind, hdeep] at hshallow
      exact Bool.false_ne_true hshallow

end Template

end JinjaLayout
