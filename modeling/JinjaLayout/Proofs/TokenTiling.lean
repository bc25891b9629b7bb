import Mathlib
import JinjaLayout.Proofs.ScanSteps
import JinjaLayout.Token.Table

/-!
The tokens of a source tile it: each one starts where the one before it ends, and nothing is left
out. The scanner reads every piece off the front of the text that is left, so the search for a piece
always ends where it starts.
-/

namespace JinjaLayout

open JinjaLayout.Text List

theorem lineBreaks_append (first second : Text) :
    lineBreaks (first ++ second) = lineBreaks first + lineBreaks second :=
  count_append

theorem byteLength_append (first second : Text) :
    byteLength (first ++ second) = byteLength first + byteLength second := by
  induction first with
  | nil => simp [byteLength]
  | cons c first ih =>
      simp only [byteLength, cons_append, foldr_cons] at ih ⊢
      omega

def textOfPieces (pieces : List Piece) : Text :=
  pieces.flatMap Piece.text

/-- Each piece carries the line on which it starts, if the first one starts on the given line. -/
def AreNumbered : Nat → List Piece → Prop
  | _, [] => True
  | line, piece :: pieces =>
      piece.line = line ∧ AreNumbered (line + lineBreaks piece.text) pieces

theorem areNumbered_append (line : Nat) (first second : List Piece) :
    AreNumbered line (first ++ second) ↔
      AreNumbered line first ∧ AreNumbered (line + lineBreaks (textOfPieces first)) second := by
  induction first generalizing line with
  | nil => simp [AreNumbered, textOfPieces, lineBreaks]
  | cons piece first ih =>
      simp only [cons_append, AreNumbered, ih, textOfPieces, flatMap_cons,
        lineBreaks_append, Nat.add_assoc, and_assoc]

namespace Scan

/-- The scan is somewhere in the text: what it has read and what is left make up the text, and its
lines are counted from the start. -/
structure IsIn (text : Text) (scan : Scan) : Prop where
  text_eq : textOfPieces scan.pieces.reverse ++ scan.rest = text
  line_eq : scan.line = 1 + lineBreaks (textOfPieces scan.pieces.reverse)
  numbered : AreNumbered 1 scan.pieces.reverse

variable {text : Text} {scan : Scan}

theorem IsIn.push (h : IsIn text scan) (kind : TokenKind) (length : Nat) :
    IsIn text (scan.push kind length) where
  text_eq := by
    rw [← h.text_eq]
    simp [Scan.push, textOfPieces, flatMap_append]
  line_eq := by
    simp only [Scan.push, reverse_cons, textOfPieces, flatMap_append, lineBreaks_append,
      flatMap_cons, flatMap_nil, append_nil, h.line_eq]
    omega
  numbered := by
    simp only [Scan.push, reverse_cons]
    rw [areNumbered_append]
    exact ⟨h.numbered, h.line_eq, trivial⟩

theorem IsIn.pushSome (h : IsIn text scan) (kind : TokenKind) (length : Nat) :
    IsIn text (scan.pushSome kind length) := by
  unfold Scan.pushSome
  split
  · exact h
  · exact h.push kind length

theorem Visits.isIn {env : Environment} {stage : Stage} (h : Visits env text stage scan) :
    IsIn text scan := by
  induction h with
  | start => exact ⟨rfl, rfl, trivial⟩
  | stop _ _ ih => exact ih
  | last _ _ ih | tagBegin _ _ _ ih | gap _ _ ih | token _ _ ih | tagEnd _ _ ih
  | commentBegin _ _ ih | rawBegin _ _ _ ih => exact ih.push _ _
  | lead _ _ ih => exact (ih.pushSome _ _).pushSome _ _
  | commentEnd _ _ _ ih => exact (ih.pushSome _ _).push _ _
  | rawEnd _ _ ih => exact ((ih.pushSome _ _).pushSome _ _).push _ _
  | lineComment _ _ ih => exact ((ih.push _ _).pushSome _ _).push _ _
  | tail _ ih => exact ih.pushSome _ _

end Scan

theorem textOfPieces_of_scan {env : Environment} {source : Text} {pieces : List Piece}
    (h : scan env source = .ok pieces) :
    textOfPieces pieces = Scan.scannedText env source ∧ AreNumbered 1 pieces := by
  obtain ⟨stop, hstop, hrest, rfl⟩ := Scan.visits_of_scan h
  refine ⟨?_, hstop.isIn.numbered⟩
  rw [← hstop.isIn.text_eq, hrest, append_nil]

/-- The text that is left to the token for the end of the template. -/
def unscannedText (env : Environment) (source : Text) : Text :=
  if env.keepTrailingNewline = false ∧ source.getLast? = some '\n' then ['\n'] else []

theorem scannedText_append_unscannedText (env : Environment) (source : Text) :
    Scan.scannedText env source ++ unscannedText env source = source := by
  unfold Scan.scannedText unscannedText
  by_cases hkeep : env.keepTrailingNewline
  · simp [hkeep]
  · by_cases hlast : source.getLast? = some '\n'
    · simp [hkeep, hlast, dropLast_append_getLast? '\n' (by simpa using hlast)]
    · simp [hkeep, hlast]

/-- Each token starts where the one before it ends, the first one after the given text. -/
def AreLaid : Nat → Text → List Token → Prop
  | _, _, [] => True
  | index, before, token :: tokens =>
      token.index = index ∧ token.start = byteLength before ∧
        token.stop = byteLength (before ++ token.text) ∧ token.line = 1 + lineBreaks before ∧
          AreLaid (index + 1) (before ++ token.text) tokens

theorem AreLaid.getElem {tokens : List Token} {index : Nat} {before : Text}
    (h : AreLaid index before tokens) {i : Nat} (hi : i < tokens.length) :
    tokens[i].index = index + i ∧
      tokens[i].start = byteLength (before ++ (tokens.take i).flatMap Token.text) ∧
      tokens[i].stop = byteLength (before ++ (tokens.take (i + 1)).flatMap Token.text) ∧
      tokens[i].line = 1 + lineBreaks (before ++ (tokens.take i).flatMap Token.text) := by
  induction tokens generalizing index before i with
  | nil => simp at hi
  | cons token tokens ih =>
      obtain ⟨hindex, hstart, hstop, hline, hrest⟩ := h
      cases i with
      | zero => simp [hindex, hstart, hstop, hline]
      | succ i =>
          obtain ⟨hindex', hplace⟩ := ih hrest (by simpa using hi)
          refine ⟨?_, ?_⟩
          · rw [getElem_cons_succ, hindex', Nat.add_assoc, Nat.add_comm 1]
          · simpa using hplace

theorem AreLaid.withPartners {tokens : List Token} {index : Nat} {before : Text}
    (h : AreLaid index before tokens) (partner : Token → Option Nat) :
    AreLaid index before (tokens.map fun token => { token with partner := partner token }) := by
  induction tokens generalizing index before with
  | nil => trivial
  | cons token tokens ih =>
      obtain ⟨hindex, hstart, hstop, hline, hrest⟩ := h
      exact ⟨hindex, hstart, hstop, hline, ih hrest⟩

theorem position?_append (needle rest : Text) : position? needle (needle ++ rest) = some 0 := by
  cases hall : needle ++ rest with
  | nil => simp_all [position?]
  | cons c tail =>
      have hprefix : needle.isPrefixOf (c :: tail) := by
        rw [← hall, List.isPrefixOf_iff_prefix]
        exact prefix_append needle rest
      simp [position?, hprefix]

/-- The pieces that make up the start of a text are found in it one after the other, so that only a
malformed string can keep them from becoming tokens. -/
theorem locate_append (env : Environment) (pieces : List Piece) (index : Nat) (before rest : Text)
    (hnumbered : AreNumbered (1 + lineBreaks before) pieces) :
    (∃ error, TokenTable.locate env index (byteLength before) (1 + lineBreaks before)
        (textOfPieces pieces ++ rest) pieces = .error (.malformed error)) ∨
      ∃ tokens, TokenTable.locate env index (byteLength before) (1 + lineBreaks before)
          (textOfPieces pieces ++ rest) pieces = .ok tokens ∧
        AreLaid index before tokens ∧ tokens.flatMap Token.text = textOfPieces pieces ++ rest ∧
        ∃ token, tokens.getLast? = some token ∧ token.kind = .eof ∧ token.text = rest := by
  induction pieces generalizing index before with
  | nil =>
      right
      refine ⟨_, rfl, ?_, ?_, _, rfl, rfl, rfl⟩
      · simp [AreLaid, TokenTable.eofToken, textOfPieces, byteLength_append]
      · simp [TokenTable.eofToken, textOfPieces]
  | cons piece pieces ih =>
      obtain ⟨hline, hpieces⟩ := hnumbered
      have htext : textOfPieces (piece :: pieces) ++ rest =
          piece.text ++ (textOfPieces pieces ++ rest) := by
        simp [textOfPieces]
      have hbefore : 1 + lineBreaks before + lineBreaks piece.text =
          1 + lineBreaks (before ++ piece.text) := by
        rw [lineBreaks_append, Nat.add_assoc]
      rw [hbefore] at hpieces
      simp only [htext, TokenTable.locate, position?_append, take_zero, Nat.zero_add,
        drop_left, hline, hbefore]
      have hoffset : byteLength before + byteLength ([] : Text) + byteLength piece.text =
          byteLength (before ++ piece.text) :=
        (byteLength_append before piece.text).symm
      cases piece.lexeme? with
      | error error => exact .inl ⟨error, rfl⟩
      | ok lexeme =>
          simp only [hoffset]
          obtain ⟨error, herror⟩ | ⟨tokens, htokens, hlaid, htexts, hlast⟩ :=
            ih (index + 1) (before ++ piece.text) hpieces
          · exact .inl ⟨error, congrArg (Except.map _) herror⟩
          · right
            refine ⟨_ :: tokens, congrArg (Except.map _) htokens, ?_, ?_, ?_⟩
            · exact ⟨rfl, rfl, rfl, rfl, hlaid⟩
            · simp [htexts]
            · obtain ⟨token, htoken, hplace⟩ := hlast
              exact ⟨token, by simp [getLast?_cons, htoken], hplace⟩

namespace TokenTable

structure Tiles (env : Environment) (source : Text) (table : TokenTable) : Prop where
  index_eq : ∀ i (h : i < table.tokens.length), table.tokens[i].index = i
  initial : ∃ token, table.tokens.head? = some token ∧
    token.kind = .initial ∧ token.start = 0 ∧ token.stop = 0
  eof : ∃ token, table.tokens.getLast? = some token ∧
    token.kind = .eof ∧ token.stop = byteLength source ∧ token.text = unscannedText env source
  adjacent : ∀ i (h : i + 1 < table.tokens.length),
    table.tokens[i + 1].start = table.tokens[i].stop
  text_eq : table.tokens.flatMap Token.text = source
  line_eq : ∀ token ∈ table.tokens, ∃ before after, source = before ++ (token.text ++ after) ∧
    token.start = byteLength before ∧ token.line = 1 + lineBreaks before

theorem tiles_of_areLaid {env : Environment} {source : Text} {table : TokenTable}
    (hlaid : AreLaid 0 [] table.tokens) (htext : table.tokens.flatMap Token.text = source)
    (hfirst : ∃ token, table.tokens.head? = some token ∧ token.kind = .initial ∧ token.text = [])
    (hlast : ∃ token, table.tokens.getLast? = some token ∧ token.kind = .eof ∧
      token.text = unscannedText env source) : Tiles env source table where
  index_eq i hi := by simpa using (hlaid.getElem hi).1
  initial := by
    obtain ⟨token, htoken, hkind, hempty⟩ := hfirst
    cases htokens : table.tokens with
    | nil => simp [htokens] at htoken
    | cons first tokens =>
        obtain rfl : first = token := by simpa [htokens] using htoken
        rw [htokens] at hlaid
        exact ⟨first, rfl, hkind, hlaid.2.1, by simp [hlaid.2.2.1, hempty, byteLength]⟩
  eof := by
    obtain ⟨token, htoken, hkind, hrest⟩ := hlast
    refine ⟨token, htoken, hkind, ?_, hrest⟩
    have hne : table.tokens ≠ [] := by rintro hnil; simp [hnil] at htoken
    have hpos : 0 < table.tokens.length := length_pos_iff.mpr hne
    have hlength : table.tokens.length - 1 < table.tokens.length := by omega
    have hget : table.tokens[table.tokens.length - 1] = token := by
      rw [getLast?_eq_some_getLast hne, getLast_eq_getElem hne] at htoken
      exact Option.some.inj htoken
    have hstop := (hlaid.getElem hlength).2.2.1
    rw [hget, Nat.sub_add_cancel hpos, take_length, nil_append, htext] at hstop
    exact hstop
  adjacent i hi := by
    rw [(hlaid.getElem hi).2.1, (hlaid.getElem (Nat.lt_of_succ_lt hi)).2.2.1]
  text_eq := htext
  line_eq token hmem := by
    obtain ⟨i, hi, rfl⟩ := getElem_of_mem hmem
    obtain ⟨-, hstart, -, hline⟩ := hlaid.getElem hi
    refine ⟨(table.tokens.take i).flatMap Token.text,
      (table.tokens.drop (i + 1)).flatMap Token.text, ?_, by simpa using hstart,
      by simpa using hline⟩
    rw [← htext, ← flatMap_cons, ← drop_eq_getElem_cons hi, ← flatMap_append,
      take_append_drop]

/-- Every source is malformed or has a table, whose tokens are its pieces in their places. -/
theorem build_cases (env : Environment) (name : Option String) (source : Text) :
    (∃ error, build env name source = .error (.malformed error)) ∨
      ∃ pieces tokens, scan env (normalizeNewlines source) = .ok pieces ∧
        locate env 1 0 1 (normalizeNewlines source) pieces = .ok tokens ∧
        build env name source =
          .ok ⟨name, normalizeNewlines source, withPartners (initialToken :: tokens)⟩ ∧
        AreLaid 1 [] tokens ∧ tokens.flatMap Token.text = normalizeNewlines source ∧
        ∃ token, tokens.getLast? = some token ∧ token.kind = .eof ∧
          token.text = unscannedText env (normalizeNewlines source) := by
  unfold build
  dsimp only
  cases hscan : scan env (normalizeNewlines source) with
  | error error => exact .inl ⟨error, rfl⟩
  | ok pieces =>
      obtain ⟨htext, hnumbered⟩ := textOfPieces_of_scan hscan
      have hlocate := locate_append env pieces 1 [] (unscannedText env (normalizeNewlines source))
        hnumbered
      rw [htext, scannedText_append_unscannedText] at hlocate
      obtain ⟨error, herror⟩ | ⟨tokens, htokens, hlaid, htexts, hlast⟩ := hlocate
      · left
        exact ⟨error, congrArg (Except.map _) herror⟩
      · right
        exact ⟨pieces, tokens, rfl, htokens, congrArg (Except.map _) htokens, hlaid, htexts, hlast⟩

/-- The search for a piece never fails: a source has no token table only if it is malformed, and
otherwise its tokens tile its normalized text. -/
theorem build_tiles_source (env : Environment) (name : Option String) (source : Text) :
    (∃ error, build env name source = .error (.malformed error)) ∨
      ∃ table, build env name source = .ok table ∧ table.Tiles env (normalizeNewlines source) := by
  rcases build_cases env name source with herror | ⟨-, tokens, -, -, hbuild, hlaid, htexts, hlast⟩
  · exact .inl herror
  · right
    refine ⟨_, hbuild, ?_⟩
    obtain ⟨token, hlast, hkind, hrest⟩ := hlast
    have hall : AreLaid 0 [] (initialToken :: tokens) := ⟨rfl, rfl, rfl, rfl, hlaid⟩
    apply tiles_of_areLaid
    · exact hall.withPartners _
    · simpa [withPartners, List.flatMap_map, initialToken] using htexts
    · exact ⟨_, rfl, rfl, rfl⟩
    · have hpaired : (withPartners (initialToken :: tokens)).getLast? = some { token with
          partner := partner? (pairings [] (initialToken :: tokens)) token.index } := by
        simp [withPartners, List.getLast?_cons, hlast]
      exact ⟨_, hpaired, hkind, hrest⟩

end TokenTable

end JinjaLayout
