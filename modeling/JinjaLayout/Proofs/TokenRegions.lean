import Mathlib
import JinjaLayout.Proofs.Outline
import JinjaLayout.Proofs.TokenTiling

/-!
The regions of a template: the text outside, tags, comments and raw blocks. The categories of the
pieces tell in which region each piece stands; inside a tag there are only tokens of expressions and
whitespace.
-/

namespace JinjaLayout

/-- Where a piece of a template stands. A tag is known by how it ends. -/
inductive Region where
  | outside
  | tag (tagEnd : Scan.TagEnd)
  | comment
  | lineComment
  | raw
deriving DecidableEq

namespace Region

/-- The region behind a piece of the given category, if the piece may stand in the region. -/
def step : Region → TokenKind → Option Region
  | outside, .data | outside, .whitespace => some outside
  | outside, .blockBegin => some (tag .block)
  | outside, .variableBegin => some (tag .variable)
  | outside, .lineStatementBegin => some (tag .line)
  | outside, .commentBegin => some comment
  | outside, .lineCommentBegin => some lineComment
  | outside, .rawBegin => some raw
  | tag tagEnd, kind =>
      if kind.isWord || kind == .whitespace then some (tag tagEnd)
      else if kind = tagEnd.kind then some outside
      else none
  | comment, .comment => some comment
  | comment, .commentEnd => some outside
  | lineComment, .lineComment => some lineComment
  | lineComment, .lineCommentEnd => some outside
  | raw, .data | raw, .whitespace => some raw
  | raw, .rawEnd => some outside
  | _, _ => none

def after (region : Region) (kinds : List TokenKind) : Option Region :=
  kinds.foldlM step region

@[simp]
theorem after_nil (region : Region) : region.after [] = some region := rfl

@[simp]
theorem after_cons (region : Region) (kind : TokenKind) (kinds : List TokenKind) :
    region.after (kind :: kinds) = (region.step kind).bind fun next => next.after kinds := rfl

theorem after_append (region : Region) (first second : List TokenKind) :
    region.after (first ++ second) = (region.after first).bind fun next => next.after second := by
  unfold after
  rw [List.foldlM_append]
  rfl

end Region

namespace Scan

open Region

def IsRead (piece : Piece) : Prop :=
  ∃ previous rest length, anyToken? previous rest = some (piece.kind, length) ∧
    rest.take length = piece.text

/-- The pieces so far end in the region, and the words among them are tokens of expressions. -/
structure EndsIn (region : Region) (scan : Scan) : Prop where
  after_eq : Region.outside.after (scan.pieces.reverse.map Piece.kind) = some region
  words : ∀ piece ∈ scan.pieces, piece.kind.isWord → IsRead piece

/-- Where the pieces stand that the scanner reads at the stage. -/
def Stage.region : Stage → Region
  | outside | facing _ | behind _ _ false | finished => .outside
  | tag tagEnd _ => .tag tagEnd
  | comment => .comment
  | raw | behind _ _ true => .raw

variable {scan stop : Scan} {region next : Region} {env : Environment}

variable {kind : TokenKind} {length : Nat}

theorem EndsIn.push (h : EndsIn region scan) (hstep : region.step kind = some next)
    (hword : kind.isWord → anyToken? scan.previous scan.rest = some (kind, length)) :
    EndsIn next (scan.push kind length) where
  after_eq := by
    simp only [Scan.push, List.reverse_cons, List.map_append, List.map_cons, List.map_nil]
    rw [after_append, h.after_eq]
    simp [hstep]
  words piece hpiece hkind := by
    rcases List.mem_cons.mp hpiece with rfl | hpiece
    · exact ⟨scan.previous, scan.rest, length, hword hkind, rfl⟩
    · exact h.words piece hpiece hkind

theorem EndsIn.pushSome (h : EndsIn region scan) (hstep : region.step kind = some region)
    (hword : kind.isWord = false) :
    EndsIn region (scan.pushSome kind length) := by
  unfold Scan.pushSome
  split
  · exact h
  · exact h.push hstep (by simp [hword])

theorem isName_take_of_nameLength? {text : Text} (h : Literal.nameLength? text = some length) :
    Literal.isName (text.take length) := by
  cases text with
  | nil => simp [Literal.nameLength?] at h
  | cons c rest =>
      simp only [Literal.nameLength?, Option.ite_none_right_eq_some, Option.some.injEq] at h
      obtain ⟨hstart, rfl⟩ := h
      rw [List.take_succ_cons, ← List.prefix_iff_eq_take.mp (List.takeWhile_prefix _)]
      simp [Literal.isName, hstart, List.all_takeWhile]

/-- What the scanner finds inside tags: the categories of tokens, with how their ends are found. -/
theorem anyToken?_cases {previous : Option Char} {rest : Text}
    (h : anyToken? previous rest = some (kind, length)) :
    number? previous rest = some (kind, length) ∨
      kind = .name ∧ Literal.nameLength? rest = some length ∨ kind = .string ∨ kind = .operator := by
  unfold anyToken? plainToken? at h
  simp only [Option.orElse_eq_some, Option.map_eq_some_iff, Prod.mk.injEq] at h
  obtain (hnumber | ⟨-, ⟨_, hname, rfl, rfl⟩ | ⟨-, ⟨_, -, rfl, rfl⟩ | ⟨-, _, -, rfl, rfl⟩⟩⟩) |
    ⟨-, hshort⟩ := h
  · exact .inl hnumber
  · exact .inr (.inl ⟨rfl, hname⟩)
  · exact .inr (.inr (.inl rfl))
  · exact .inr (.inr (.inr rfl))
  · unfold shortOperator? at hshort
    split at hshort
    · split at hshort
      · cases hshort
        exact .inr (.inr (.inr rfl))
      · simp at hshort
    · simp at hshort

theorem isWord_of_tagToken {due due' : Text} (h : scan.tagToken due = .ok (kind, length, due')) :
    kind.isWord ∧ anyToken? scan.previous scan.rest = some (kind, length) := by
  obtain ⟨hany, -⟩ := (tagToken_eq_ok_iff scan due kind length due').mp h
  refine ⟨?_, hany⟩
  obtain hnumber | ⟨rfl, -⟩ | rfl | rfl := anyToken?_cases hany
  · obtain ⟨rfl | rfl, -⟩ := number?_eq_some hnumber <;> rfl
  · rfl
  · rfl
  · rfl

theorem IsRead.isName {piece : Piece} (h : IsRead piece) (hkind : piece.kind = .name) :
    Literal.isName piece.text := by
  obtain ⟨previous, rest, length, hany, htext⟩ := h
  rw [hkind] at hany
  rw [← htext]
  obtain hnumber | ⟨-, hname⟩ | h | h := anyToken?_cases hany
  · obtain ⟨h | h, -⟩ := number?_eq_some hnumber <;> cases h
  · exact isName_take_of_nameLength? hname
  · cases h
  · cases h

theorem Visits.endsIn {text : Text} {stage : Stage} (h : Visits env text stage scan) :
    EndsIn stage.region scan := by
  induction h with
  | start => exact ⟨rfl, by simp⟩
  | stop _ _ ih => exact ih
  | lead _ _ ih => exact EndsIn.pushSome (EndsIn.pushSome ih rfl rfl) rfl rfl
  | last _ _ ih | commentBegin _ _ ih | rawBegin _ _ _ ih => exact ih.push rfl nofun
  | tagBegin tagEnd _ _ ih => cases tagEnd <;> exact ih.push rfl nofun
  | gap _ _ ih => exact ih.push rfl nofun
  | token _ htoken ih =>
      obtain ⟨hword, hread⟩ := isWord_of_tagToken htoken
      exact ih.push (by simp [Stage.region, Region.step, hword]) fun _ => hread
  | @tagEnd _ tagEnd _ _ _ _ ih => cases tagEnd <;> exact ih.push rfl nofun
  | commentEnd _ _ _ ih => exact EndsIn.push (EndsIn.pushSome ih rfl rfl) rfl nofun
  | rawEnd _ _ ih =>
      exact EndsIn.push (EndsIn.pushSome (EndsIn.pushSome ih rfl rfl) rfl rfl) rfl nofun
  | @lineComment scan marker _ _ ih =>
      have hbegin : EndsIn .lineComment (scan.push .lineCommentBegin marker.length) :=
        ih.push rfl nofun
      exact (hbegin.pushSome rfl rfl).push rfl nofun
  | @tail _ _ _ inRaw _ ih => cases inRaw <;> exact ih.pushSome rfl rfl

end Scan

variable {env : Environment} {source : Text} {pieces : List Piece}

theorem endsIn_of_scan (h : scan env source = .ok pieces) :
    ∃ stop : Scan, stop.EndsIn .outside ∧ stop.pieces.reverse = pieces := by
  obtain ⟨stop, hstop, -, hpieces⟩ := Scan.visits_of_scan h
  exact ⟨stop, hstop.endsIn, hpieces⟩

theorem isRead_of_scan (h : scan env source = .ok pieces) :
    ∀ piece ∈ pieces, piece.kind.isWord → Scan.IsRead piece := by
  obtain ⟨stop, hstop, rfl⟩ := endsIn_of_scan h
  exact fun piece hpiece => hstop.words piece (List.mem_reverse.mp hpiece)

theorem after_of_scan (h : scan env source = .ok pieces) :
    Region.outside.after (pieces.map Piece.kind) = some .outside ∧
      ∀ piece ∈ pieces, piece.kind = .name → Literal.isName piece.text := by
  refine ⟨?_, fun piece hpiece hkind => ?_⟩
  · obtain ⟨stop, hstop, rfl⟩ := endsIn_of_scan h
    exact hstop.after_eq
  · exact (isRead_of_scan h piece hpiece (by rw [hkind]; rfl)).isName hkind

end JinjaLayout
