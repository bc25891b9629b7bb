import Mathlib
import JinjaLayout.Proofs.KeptText
import JinjaLayout.Proofs.SpacingFixedPoint

/-!
Text that was not read from a source is written in a raw block if a tag would start in it. Main
statement: what is written for a text is read again as that text, unless the end of a raw block
stands in it.
-/

namespace JinjaLayout

open Scan List

/-! ### Templates without tags -/

def Expr.plainText? : Expr → Option Text
  | .data text _ => some text
  | _ => none

def Stmt.plainText? : Stmt → Option Text
  | .output nodes _ => (nodes.mapM Expr.plainText?).map List.flatten
  | _ => none

namespace Template

def plainText? (template : Template) : Option Text :=
  (template.body.mapM Stmt.plainText?).map List.flatten

/-- A template that was not read from a source and holds only the text. -/
def ofText (text : Text) : Template :=
  ⟨[.output [.data text {}] {}], {}⟩

end Template

/-! ### The end of a raw block -/

def HasRawEnd (text : Text) : Prop :=
  ∃ before tag after chomp, text = before ++ (tag ++ after) ∧ WordTag "endraw" tag chomp

namespace Scan

variable {env : Environment}

theorem endRaw?_eq_none_iff (hstock : env.IsStock) {text : Text} :
    endRaw? env text = none ↔ ¬HasRawEnd text := by
  constructor
  · rintro hnone ⟨before, tag, after, chomp, rfl, htag⟩
    have hfound := endRaw?_wordTag hstock htag after
    obtain ⟨more, rfl, -⟩ := htag.no_brace
    rw [cons_append] at hfound hnone
    rw [endRaw?_append_brace hstock, hfound] at hnone
    simp at hnone
  · intro hnot
    by_contra hsome
    obtain ⟨⟨start, length, chomp⟩, hsome⟩ := Option.ne_none_iff_exists'.mp hsome
    obtain ⟨before, tag, after, rfl, -, -, htag⟩ := endRaw?_bounds hstock hsome
    exact hnot ⟨before, tag, after, chomp, rfl, htag⟩

/-- A text without the end of a raw block is the inside of a raw block up to the end that is put
behind it. -/
theorem endRaw?_behind (hstock : env.IsStock) {data tag : Text} {chomp : Chomp}
    (htag : WordTag "endraw" tag chomp) (hdata : ¬HasRawEnd data) (after : Text) :
    endRaw? env (data ++ (tag ++ after)) = some (data.length, tag.length, chomp) := by
  have hfound := endRaw?_wordTag hstock htag after
  obtain ⟨more, rfl, -⟩ := htag.no_brace
  rw [cons_append] at hfound ⊢
  rw [endRaw?_append_brace hstock, hfound, (endRaw?_eq_none_iff hstock).mpr hdata]
  simp

theorem wordTag_raw : WordTag "raw" "{% raw %}".toList .none :=
  ⟨.none, [' '], [' '], rfl, rfl, rfl⟩

theorem wordTag_endraw : WordTag "endraw" "{% endraw %}".toList .none :=
  ⟨.none, [' '], [' '], rfl, rfl, rfl⟩

end Scan

/-! ### What is written -/

def writtenCuts (text : Text) : List Cut :=
  if Writing.needsRaw .spacingCheck text {} then
    [(.rawBegin, "{% raw %}".toList), (.data, text), (.rawEnd, "{% endraw %}".toList)]
  else someCut .data text

theorem Writing.Fragment.textOf_texts (texts : List Text) :
    textOf (texts.map .text) = texts.flatten := by
  have hpage : ∀ (texts : List Text) (page : Page), page.newlineDue = false →
      writeAllOn page (texts.map .text) = page.add texts.flatten := by
    intro texts
    induction texts with
    | nil => exact fun page hdue => Page.write_eq hdue []
    | cons text texts ih =>
        intro page hdue
        rw [map_cons, writeAllOn, writeOn, Page.write_eq hdue, ih _ (page.newlineDue_add text),
          Page.add_add, flatten_cons]
  rw [textOf, hpage texts {} rfl]
  simp [Page.text, Page.add]

theorem Template.dump_ofText (text : Text) :
    dump .spacingCheck (ofText text) = .ok (textOfCuts (writtenCuts text)) := by
  have hdump : dump .spacingCheck (ofText text) = .ok (Writing.Fragment.textOf
      (Writing.dataFragments .spacingCheck text {} ++ [] ++ [] ++ [.text []])) := rfl
  rw [hdump, append_nil, append_nil]
  unfold Writing.dataFragments writtenCuts
  split
  · have htexts := Writing.Fragment.textOf_texts
      [[], "{% raw %}".toList, text, "{% endraw %}".toList, []]
    exact congrArg Except.ok (htexts.trans (by simp))
  · have htexts := Writing.Fragment.textOf_texts [[], text, []]
    exact congrArg Except.ok (htexts.trans (by simp))

variable {text : Text}

theorem Marker.first?_eq_none_of_not_needsRaw (h : Writing.needsRaw .spacingCheck text {} = false) :
    Marker.first? text = none := by
  have hstock := Spacing.isStock_spacingCheck
  have hnext : Marker.next? .spacingCheck true text = none := by
    obtain ⟨hblock, hvariable, hcomment⟩ : Text.position? ['{', '%'] text = none ∧
        Text.position? ['{', '{'] text = none ∧ Text.position? ['{', '#'] text = none := by
      simpa [Writing.needsRaw, Text.occursIn, Layout.isAnnotated, hstock.blockStart,
        hstock.variableStart, hstock.commentStart] using h
    rw [next?_eq_foldl hstock]
    simp [stockCandidates, ofDelimiter?, hblock, hvariable, hcomment]
  rw [next?_eq_first? hstock] at hnext
  simpa using hnext

theorem writtenCuts_cases (text : Text) :
    text ≠ [] ∧ writtenCuts text =
        [(.rawBegin, "{% raw %}".toList), (.data, text), (.rawEnd, "{% endraw %}".toList)] ∨
      Marker.first? text = none ∧ writtenCuts text = someCut .data text := by
  unfold writtenCuts
  cases hraw : Writing.needsRaw .spacingCheck text {} with
  | true =>
      refine .inl ⟨?_, rfl⟩
      rintro rfl
      exact absurd hraw (by decide)
  | false => exact .inr ⟨Marker.first?_eq_none_of_not_needsRaw hraw, rfl⟩

namespace Scan

theorem rawCuts_of_ne_nil {text : Text} (hsome : text ≠ []) :
    rawCuts .spacingCheck "{% raw %}".toList [] text "{% endraw %}".toList [] =
      [(.rawBegin, "{% raw %}".toList), (.data, text), (.rawEnd, "{% endraw %}".toList)] := by
  change _ :: (_ ++ (leadCuts text.length text ++ _)) = _
  simp [leadCuts, someCut, hsome]

/-- What is written for a text without the end of a raw block is cut into these pieces again. -/
theorem scan_writtenCuts {text : Text} (h : ¬HasRawEnd text) :
    ∃ pieces, scan .spacingCheck (textOfCuts (writtenCuts text)) = .ok pieces ∧
      pieces.map Piece.cut = writtenCuts text := by
  refine (scan_eq_ok_iff Spacing.isStock_spacingCheck).mpr ⟨rfl, ?_⟩
  obtain ⟨hsome, hcuts⟩ | ⟨hnone, hcuts⟩ := writtenCuts_cases text
  · have hopened : Opened .spacingCheck .block
        (rawCuts .spacingCheck "{% raw %}".toList [] text "{% endraw %}".toList []) [] :=
      .raw wordTag_raw rfl wordTag_endraw
        (endRaw?_behind Spacing.isStock_spacingCheck wordTag_endraw h []) rfl
    rw [rawCuts_of_ne_nil hsome] at hopened
    rw [hcuts]
    refine ⟨.opened (rfl : Marker.first? ([] ++ ['{']) = none) hopened .nil, ?_⟩
    simp [TokenKind.isWord]
  · rw [hcuts, someCut]
    split
    · exact ⟨.nil, trivial⟩
    · rename_i hsome
      exact ⟨.data hsome hnone, by simp [TokenKind.isWord]⟩

end Scan

/-! ### What is read again -/

theorem TokenTable.exists_locate {pieces : List Piece}
    (h : ∀ piece ∈ pieces, piece.kind = .data ∨ piece.kind = .rawBegin ∨ piece.kind = .rawEnd)
    (env : Environment) (index offset line : Nat) (rest : Text) :
    ∃ tokens lexemes last,
      locate env index offset line (textOfPieces pieces ++ rest) pieces = .ok tokens ∧
      tokens.filterMap Token.lexeme = lexemes ++ [last] ∧ last.kind = .eof ∧
      lexemes.map (fun lexeme => (lexeme.kind, lexeme.value)) =
        (pieces.map Piece.cut).filter (·.1 = .data) := by
  induction pieces generalizing index offset line with
  | nil => exact ⟨_, [], _, rfl, rfl, rfl, rfl⟩
  | cons piece pieces ih =>
      have htext : textOfPieces (piece :: pieces) ++ rest =
          piece.text ++ (textOfPieces pieces ++ rest) := by
        simp [textOfPieces]
      have hlexeme : piece.lexeme? = .ok (if piece.kind = .data then
          some ⟨piece.line, .data, piece.text⟩ else none) := by
        rcases h piece mem_cons_self with hkind | hkind | hkind <;> simp [Piece.lexeme?, hkind]
      obtain ⟨tokens, lexemes, last, htokens, hread, hlast, hlexemes⟩ :=
        ih (fun other hother => h other (mem_cons_of_mem _ hother)) (index + 1)
          (offset + Text.byteLength piece.text) (piece.line + Text.lineBreaks piece.text)
      simp only [htext, locate, position?_append, take_zero, Nat.zero_add, drop_left,
        hlexeme]
      refine ⟨_, (if piece.kind = .data then [⟨piece.line, .data, piece.text⟩] else []) ++ lexemes,
        last, congrArg (Except.map _) htokens, ?_, hlast, ?_⟩
      · by_cases hkind : piece.kind = .data <;> simp [hkind, hread]
      · by_cases hkind : piece.kind = .data <;> simp [hkind, hlexemes, Piece.cut]

theorem Grammar.exists_template_of_data {lexemes : List Lexeme} {last : Lexeme}
    (hlexemes : lexemes.map (fun lexeme => (lexeme.kind, lexeme.value)) = someCut .data text)
    (hlast : last.kind = .eof) :
    ∃ parsed, template (lexemes ++ [last]) = .ok parsed ∧ parsed.plainText? = some text := by
  obtain ⟨_, _, _⟩ := last
  subst hlast
  by_cases htext : text = []
  · subst htext
    obtain rfl : lexemes = [] := by simpa [someCut] using hlexemes
    exact ⟨_, rfl, rfl⟩
  · rw [someCut, if_neg htext] at hlexemes
    obtain ⟨⟨line, kind, value⟩, rfl, hlexeme⟩ := map_eq_singleton_iff.mp hlexemes
    obtain ⟨rfl, rfl⟩ := Prod.mk.inj hlexeme
    refine ⟨⟨[.output [.data value (.onLine line)] (.onLine line)], .onLine 1⟩, rfl, ?_⟩
    simp [Template.plainText?, Stmt.plainText?, Expr.plainText?]

theorem TokenTable.exists_build_written (hreturn : '\r' ∉ text) (h : ¬HasRawEnd text) :
    ∃ table lexemes last,
      build .spacingCheck none (textOfCuts (writtenCuts text)) = .ok table ∧
      table.lexemes = lexemes ++ [last] ∧ last.kind = .eof ∧
      lexemes.map (fun lexeme => (lexeme.kind, lexeme.value)) = someCut .data text := by
  obtain ⟨pieces, hscan, hpieces⟩ := scan_writtenCuts h
  have hnewlines : Text.normalizeNewlines (textOfCuts (writtenCuts text)) =
      textOfCuts (writtenCuts text) := by
    apply Spacing.normalizeNewlines_eq_self
    obtain ⟨-, hcuts⟩ | ⟨-, hcuts⟩ := writtenCuts_cases text <;> simpa [hcuts] using hreturn
  have hkinds : ∀ cut ∈ writtenCuts text,
      cut.1 = .data ∨ cut.1 = .rawBegin ∨ cut.1 = .rawEnd := by
    obtain ⟨-, hcuts⟩ | ⟨-, hcuts⟩ := writtenCuts_cases text
    · simp [hcuts]
    · simp +contextual [hcuts]
  have hdata : (writtenCuts text).filter (·.1 = .data) = someCut .data text := by
    obtain ⟨hsome, hcuts⟩ | ⟨-, hcuts⟩ := writtenCuts_cases text
    · simp [hcuts, someCut, hsome]
    · rw [hcuts, filter_eq_self]
      simp +contextual
  have htext : textOfPieces pieces ++ [] = textOfCuts (writtenCuts text) := by
    rw [append_nil, ← hpieces]
    simp [textOfPieces, textOfCuts, flatMap_map, Piece.cut]
  obtain ⟨tokens, lexemes, last, hlocate, hread, hlast, hlexemes⟩ := exists_locate
    (fun piece hpiece => hkinds piece.cut (hpieces ▸ mem_map_of_mem hpiece))
    .spacingCheck 1 0 1 []
  rw [htext] at hlocate
  refine ⟨⟨none, textOfCuts (writtenCuts text), withPartners (initialToken :: tokens)⟩, lexemes,
    last, ?_, ?_, hlast, ?_⟩
  · simp [build, hnewlines, hscan, hlocate, Except.map]
  · simp [TokenTable.lexemes, withPartners, initialToken, hread]
  · rw [hlexemes, hpieces, hdata]

namespace Template

/-- What is written for a text is read again as this text, if the end of a raw block does not stand
in it. -/
theorem ofText_read {text : Text} (hreturn : '\r' ∉ text) (h : ¬HasRawEnd text) :
    ∃ written parsed, dump .spacingCheck (ofText text) = .ok written ∧
      parse .spacingCheck none written = .ok parsed ∧ parsed.plainText? = some text := by
  obtain ⟨table, lexemes, last, hbuild, hread, hlast, hlexemes⟩ :=
    TokenTable.exists_build_written hreturn h
  obtain ⟨parsed, hparsed, hplain⟩ := Grammar.exists_template_of_data hlexemes hlast
  refine ⟨_, parsed, dump_ofText text, ?_, hplain⟩
  rw [parse, tokens_eq_ok_iff.mpr hbuild]
  exact ofLexemes_eq_ok_iff.mpr (hread ▸ hparsed)

/-- Tags of every sort, and the beginning of an end of a raw block. -/
theorem ofText_read_of_tags :
    '\r' ∉ "{{ a }}{# b #}{% raw %} \x7b% endraw \x7b\n".toList ∧
      ¬HasRawEnd "{{ a }}{# b #}{% raw %} \x7b% endraw \x7b\n".toList ∧
      ∃ written parsed, dump .spacingCheck
          (ofText "{{ a }}{# b #}{% raw %} \x7b% endraw \x7b\n".toList) = .ok written ∧
        parse .spacingCheck none written = .ok parsed ∧
        parsed.plainText? = some "{{ a }}{# b #}{% raw %} \x7b% endraw \x7b\n".toList := by
  have hreturn : '\r' ∉ "{{ a }}{# b #}{% raw %} \x7b% endraw \x7b\n".toList := by decide
  have hnot : ¬HasRawEnd "{{ a }}{# b #}{% raw %} \x7b% endraw \x7b\n".toList :=
    (endRaw?_eq_none_iff Spacing.isStock_spacingCheck).mp (by decide +kernel)
  exact ⟨hreturn, hnot, ofText_read hreturn hnot⟩

/-- The end of a raw block is written in a raw block, which it ends. -/
theorem ofText_unread_at_endraw :
    ∃ written, dump .spacingCheck (ofText "{% endraw %}".toList) = .ok written ∧
      ∀ parsed, parse .spacingCheck none written ≠ .ok parsed := by
  have hread : (parse .spacingCheck none "{% raw %}{% endraw %}{% endraw %}".toList).toBool =
      false := by
    decide +kernel
  refine ⟨"{% raw %}{% endraw %}{% endraw %}".toList, by decide +kernel, fun parsed h => ?_⟩
  rw [h] at hread
  exact Bool.noConfusion hread

end Template

end JinjaLayout
