import Mathlib
import JinjaLayout.Proofs.TokenRegions

/-!
Plain data holds no tag. The data of a template ends at the first place where a tag, a comment or a
line form starts; so none starts inside data, except for one whose mark needs the final newline of a
source that is scanned without it.
-/

namespace JinjaLayout.Scan

open Text List

/-- The texts with which a tag or a comment starts, wherever they stand. -/
def startMarks (env : Environment) : List Text :=
  [env.blockStart, env.variableStart, env.commentStart] ++ env.lineCommentMark.toList

structure IsClear (env : Environment) (text : Text) (position : Nat) : Prop where
  startMark : ∀ mark ∈ startMarks env, ¬ mark <+: text.drop position
  lineStatement : ∀ mark ∈ env.lineStatementMark,
    startsLineAfter (text.take position).getLast? = true →
      ∀ indent : Text, (∀ c ∈ indent, isIndent c = true) → ¬ indent ++ mark <+: text.drop position

variable {env : Environment} {text rest : Text} {marker : Marker} {scan : Scan} {i : Nat}

/-! ### The first marker -/

theorem exists_position?_le {needle : Text} (h : needle <+: text.drop i) :
    ∃ start ≤ i, position? needle text = some start := by
  induction text generalizing i with
  | nil =>
      obtain rfl : needle = [] := by simpa using h
      exact ⟨0, Nat.zero_le _, rfl⟩
  | cons c text ih =>
      rw [position?]
      split
      · exact ⟨0, Nat.zero_le _, rfl⟩
      · rename_i hfront
        cases i with
        | zero => exact absurd (List.isPrefixOf_iff_prefix.mpr h) hfront
        | succ i =>
            obtain ⟨start, hle, hstart⟩ := ih h
            exact ⟨start + 1, by omega, by rw [hstart, Option.map_some]⟩

theorem exists_ofDelimiter?_le {delimiter : Text} (h : delimiter <+: rest.drop i)
    (kind : MarkerKind) :
    ∃ marker, Marker.ofDelimiter? kind delimiter rest = some marker ∧ marker.start ≤ i := by
  obtain ⟨start, hle, hstart⟩ := exists_position?_le h
  exact ⟨_, by rw [Marker.ofDelimiter?, hstart, Option.map_some], hle⟩

theorem exists_ofLineComment?_le {mark : Text} (h : mark <+: rest.drop i) :
    ∃ marker, Marker.ofLineComment? mark rest = some marker ∧ marker.start ≤ i := by
  obtain ⟨start, hle, hstart⟩ := exists_position?_le h
  refine ⟨_, by rw [Marker.ofLineComment?, hstart, Option.map_some], ?_⟩
  calc (trimEnd isIndent (rest.take start)).length
      ≤ (rest.take start).length := length_trimEnd_le _ _
    _ ≤ start := length_take_le _ _
    _ ≤ i := hle

theorem isSome_lineStatementLength? {mark indent : Text}
    (hmark : ∀ c ∈ mark.head?, isIndent c = false) (hindent : ∀ c ∈ indent, isIndent c = true)
    (h : indent ++ mark <+: text) : (Marker.lineStatementLength? mark text).isSome := by
  have hfront : mark.isPrefixOf (text.drop (text.takeWhile isIndent).length) := by
    obtain ⟨more, rfl⟩ := h
    cases mark with
    | nil => rfl
    | cons c mark =>
        have hc : isIndent c = false := hmark c rfl
        rw [append_assoc, takeWhile_append_of_pos hindent, cons_append,
          takeWhile_cons_of_neg (by simp [hc]), append_nil, drop_left]
        simp
  rw [Marker.lineStatementLength?, if_pos hfront, Option.isSome_some]

theorem exists_ofLineStatement?_le {mark : Text} {startsLine : Bool}
    (hline : ((rest.take i).getLast?.map (· == '\n')).getD startsLine = true)
    (hlength : (Marker.lineStatementLength? mark (rest.drop i)).isSome) :
    ∃ marker, Marker.ofLineStatement? mark startsLine rest = some marker ∧ marker.start ≤ i := by
  induction rest generalizing startsLine i with
  | nil =>
      obtain rfl : startsLine = true := by simpa using hline
      obtain ⟨length, hlength⟩ := Option.isSome_iff_exists.mp hlength
      rw [drop_nil] at hlength
      exact ⟨⟨0, .lineStatement, length⟩, by simp [Marker.ofLineStatement?, hlength], Nat.zero_le _⟩
  | cons c rest ih =>
      unfold Marker.ofLineStatement?
      split
      · exact ⟨_, rfl, Nat.zero_le _⟩
      · contradiction
      · rename_i hnone hrest
        obtain ⟨rfl, rfl⟩ := cons.inj hrest
        cases i with
        | zero =>
            obtain rfl : startsLine = true := by simpa using hline
            rw [if_pos rfl] at hnone
            rw [drop_zero, hnone] at hlength
            cases hlength
        | succ i =>
            have hnext : ((rest.take i).getLast?.map (· == '\n')).getD (c == '\n') := by
              cases hlast : (rest.take i).getLast? <;>
                simpa [getLast?_cons, hlast] using hline
            obtain ⟨marker, hmarker, hle⟩ := ih hnext hlength
            exact ⟨_, by rw [hmarker, Option.map_some], Nat.succ_le_succ hle⟩

theorem earlier_le (best : Option Marker) (candidate : Marker) :
    ∃ marker, Marker.earlier best candidate = some marker ∧ marker.start ≤ candidate.start ∧
      ∀ first ∈ best, marker.start ≤ first.start := by
  unfold Marker.earlier
  grind

theorem foldl_earlier_le {markers : List Marker} {best : Option Marker} {candidate : Marker}
    (h : best = some candidate ∨ candidate ∈ markers) :
    ∃ marker, markers.foldl Marker.earlier best = some marker ∧ marker.start ≤ candidate.start := by
  induction markers generalizing best candidate with
  | nil => exact ⟨candidate, h.resolve_right (by simp), le_rfl⟩
  | cons first markers ih =>
      obtain ⟨marker, hmarker, hfirst, hbest⟩ := earlier_le best first
      have hrest : ∀ later : Marker, marker.start ≤ later.start →
          ∃ marker, (first :: markers).foldl Marker.earlier best = some marker ∧
            marker.start ≤ later.start := by
        intro later hle
        obtain ⟨stop, hstop, hstart⟩ := ih (.inl hmarker)
        exact ⟨stop, hstop, hstart.trans hle⟩
      rcases h with rfl | h
      · exact hrest candidate (hbest candidate rfl)
      · rcases mem_cons.mp h with rfl | h
        · exact hrest candidate hfirst
        · exact ih (.inr h)

theorem isClear_of_next? {before : Text} (hmark : ∀ mark ∈ env.lineStatementMark,
      ∀ c ∈ mark.head?, isIndent c = false)
    (htext : before ++ scan.rest = text) (hprevious : scan.previous = before.getLast?)
    (hnext : ∀ marker ∈ Marker.next? env scan.startsLine scan.rest, i < marker.start) :
    IsClear env text (before.length + i) := by
  subst htext
  have hbefore : ∀ candidate ∈ Marker.candidates env scan.startsLine scan.rest,
      ¬ candidate.start ≤ i := by
    intro candidate hcandidate hle
    obtain ⟨marker, hmarker, hstart⟩ := foldl_earlier_le (.inr hcandidate)
    have := hnext marker hmarker
    omega
  simp only [Marker.candidates, mem_filterMap, mem_cons, not_mem_nil, or_false,
    id_eq, or_imp, forall_and, exists_eq_or_imp, exists_eq_left] at hbefore
  obtain ⟨hblock, hvariable, hcomment, hlineComment, hlineStatement⟩ := hbefore
  have hdelimiter : ∀ kind delimiter, (∀ candidate, Marker.ofDelimiter? kind delimiter scan.rest =
      some candidate → ¬ candidate.start ≤ i) → ¬ delimiter <+: scan.rest.drop i := by
    intro kind delimiter hnone hfound
    obtain ⟨marker, hmarker, hle⟩ := exists_ofDelimiter?_le hfound kind
    exact hnone marker hmarker hle
  have hdrop : (before ++ scan.rest).drop (before.length + i) = scan.rest.drop i := by
    rw [← drop_drop, drop_left]
  constructor <;> rw [hdrop]
  · simp only [startMarks, mem_append, mem_cons, not_mem_nil, or_false,
      Option.mem_toList]
    rintro mark ((rfl | rfl | rfl) | hcommentMark)
    · exact hdelimiter .block _ hblock
    · exact hdelimiter .variable _ hvariable
    · exact hdelimiter .comment _ hcomment
    · intro hfound
      obtain ⟨marker, hmarker, hle⟩ := exists_ofLineComment?_le hfound
      exact hlineComment marker (by rw [hcommentMark, Option.bind_some, hmarker]) hle
  · intro mark hstatementMark hline indent hindent hfound
    rw [take_length_add_append, getLast?_append] at hline
    have hstarts : ((scan.rest.take i).getLast?.map (· == '\n')).getD scan.startsLine := by
      have hsame : scan.startsLine = startsLineAfter before.getLast? := by rw [← hprevious]; rfl
      rw [hsame]
      cases hlast : (scan.rest.take i).getLast? with
      | none => simpa [hlast] using hline
      | some c => simpa [hlast, startsLineAfter] using hline
    obtain ⟨marker, hmarker, hle⟩ := exists_ofLineStatement?_le hstarts
      (isSome_lineStatementLength? (hmark mark hstatementMark) hindent hfound)
    exact hlineStatement marker (by rw [hstatementMark, Option.bind_some, hmarker]) hle

/-! ### The run -/

/-- Whether a raw block is open behind a piece of the kind. -/
def rawAfter (inside : Bool) : TokenKind → Bool
  | .rawBegin => true
  | .rawEnd => false
  | _ => inside

def insideRaw (pieces : List Piece) : Bool :=
  pieces.foldl (fun inside piece => rawAfter inside piece.kind) false

def DataIsClear (env : Environment) (text : Text) (pieces : List Piece) : Prop :=
  ∀ before piece after, pieces = before ++ piece :: after → piece.kind = .data →
    insideRaw before = false →
      ∀ i < piece.text.length, IsClear env text ((textOfPieces before).length + i)

/-- What the pieces read so far say: the character before the rest, whether a raw block is open, and
that their data is clear. -/
structure Passes (env : Environment) (text : Text) (inside : Bool) (scan : Scan) : Prop where
  previous_eq : scan.previous = (textOfPieces scan.pieces.reverse).getLast?
  insideRaw_eq : insideRaw scan.pieces.reverse = inside
  clear : DataIsClear env text scan.pieces.reverse

variable {inside next : Bool} {kind : TokenKind} {length : Nat}

theorem Passes.push (h : Passes env text inside scan) (hraw : rawAfter inside kind = next)
    (hdata : kind = .data → inside = false → ∀ i < length,
      IsClear env text ((textOfPieces scan.pieces.reverse).length + i)) :
    Passes env text next (scan.push kind length) where
  previous_eq := by
    simp [Scan.push, h.previous_eq, textOfPieces, getLast?_append]
  insideRaw_eq := by
    simp [Scan.push, insideRaw, ← hraw, ← h.insideRaw_eq]
  clear := by
    intro before piece after hpieces hkind hbefore
    rw [Scan.push, reverse_cons] at hpieces
    rcases eq_nil_or_concat after with rfl | ⟨after, last, rfl⟩
    · obtain ⟨rfl, hlast⟩ := append_inj' hpieces rfl
      obtain rfl := singleton_inj.mp hlast
      intro i hi
      exact hdata hkind (h.insideRaw_eq.symm.trans hbefore) i
        (hi.trans_le (length_take_le _ _))
    · rw [concat_eq_append, ← cons_append, ← append_assoc] at hpieces
      exact h.clear before piece after (append_inj' hpieces rfl).1 hkind hbefore

theorem Passes.pushSome (h : Passes env text inside scan) (hraw : rawAfter inside kind = inside)
    (hdata : kind = .data → inside = false → ∀ i < length,
      IsClear env text ((textOfPieces scan.pieces.reverse).length + i)) :
    Passes env text inside (scan.pushSome kind length) := by
  unfold Scan.pushSome
  split
  · exact h
  · exact h.push hraw hdata

theorem Passes.readData (h : Passes env text inside scan)
    (hdata : inside = false → ∀ i < marker.start,
      IsClear env text ((textOfPieces scan.pieces.reverse).length + i)) :
    Passes env text inside (scan.readData env marker) := by
  have hkept : scan.keptLength env marker ≤ marker.start := by
    rw [keptLength_eq_leadLength env rfl]
    exact (leadLength_le _ _ _ _ _).trans (length_take_le _ _)
  exact (h.pushSome rfl fun _ hinside i hi => hdata hinside i (hi.trans_le hkept)).pushSome rfl nofun

def Stage.isInsideRaw : Stage → Bool
  | .raw => true
  | .behind _ _ inRaw => inRaw
  | _ => false

theorem Visits.passes {stage : Stage} (hmark : ∀ mark ∈ env.lineStatementMark,
      ∀ c ∈ mark.head?, isIndent c = false)
    (h : Visits env text stage scan) : Passes env text stage.isInsideRaw scan := by
  induction h with
  | start => exact ⟨rfl, rfl, by simp [DataIsClear]⟩
  | stop _ _ ih => exact ih
  | lead h hnext ih =>
      refine ih.readData fun _ i hi => isClear_of_next? hmark h.isIn.text_eq ih.previous_eq ?_
      rw [hnext]
      rintro _ ⟨⟩
      exact hi
  | last h hnext ih =>
      refine ih.push rfl fun _ _ i _ => isClear_of_next? hmark h.isIn.text_eq ih.previous_eq ?_
      rw [hnext]
      nofun
  | gap _ _ ih | commentBegin _ _ ih | rawBegin _ _ _ ih => exact ih.push rfl nofun
  | tagBegin tagEnd _ _ ih => cases tagEnd <;> exact ih.push rfl nofun
  | @token _ _ _ _ kind _ _ htoken ih =>
      have hword := (isWord_of_tagToken htoken).1
      refine ih.push ?_ ?_
      · cases kind <;> first | rfl | cases hword
      · rintro rfl
        cases hword
  | @tagEnd _ tagEnd _ _ _ _ ih => cases tagEnd <;> exact ih.push rfl nofun
  | commentEnd _ _ _ ih => exact Passes.push (Passes.pushSome ih rfl nofun) rfl nofun
  | rawEnd _ _ ih => exact (ih.readData nofun).push rfl nofun
  | lineComment _ _ ih =>
      exact Passes.push (Passes.pushSome (Passes.push ih rfl nofun) rfl nofun) rfl nofun
  | @tail _ _ _ inRaw _ ih => cases inRaw <;> exact ih.pushSome rfl nofun

/-! ### The source -/

/-- The mark is what the source has from the position on, and ends in its final newline, which is
not scanned. -/
def EndsUnscanned (env : Environment) (source : Text) (position : Nat) (mark : Text) : Prop :=
  env.keepTrailingNewline = false ∧ source.drop position = mark ∧ mark.getLast? = some '\n'

theorem endsUnscanned_of_prefix {source mark : Text} {position : Nat}
    (hposition : position ≤ (scannedText env source).length)
    (hclear : ¬ mark <+: (scannedText env source).drop position)
    (h : mark <+: source.drop position) : EndsUnscanned env source position mark := by
  have hsource := scannedText_append_unscannedText env source
  unfold unscannedText at hsource
  split at hsource
  · rename_i hkeep
    have hdrop : source.drop position = (scannedText env source).drop position ++ ['\n'] := by
      conv_lhs => rw [← hsource]
      exact drop_append_of_le_length hposition
    rw [hdrop, prefix_concat_iff] at h
    obtain rfl := h.resolve_right hclear
    exact ⟨hkeep.1, hdrop, getLast?_concat⟩
  · rw [append_nil] at hsource
    rw [hsource] at hclear
    exact absurd h hclear

/-- Inside the data of a template, outside of raw blocks, no tag, comment or line form starts, unless
its mark ends in the newline that is not scanned. -/
theorem endsUnscanned_of_mark_in_data (env : Environment) (source : Text) (pieces : List Piece)
    (hmark : ∀ mark ∈ env.lineStatementMark, ∀ c ∈ mark.head?, isIndent c = false)
    (h : JinjaLayout.scan env source = .ok pieces) (before after : List Piece) (piece : Piece)
    (hpieces : pieces = before ++ piece :: after) (hdata : piece.kind = .data)
    (hraw : insideRaw before = false) (i : Nat) (hi : i < piece.text.length) :
    let position := (textOfPieces before).length + i
    piece.text.drop i <+: source.drop position ∧
      (∀ mark ∈ startMarks env, mark <+: source.drop position →
        EndsUnscanned env source position mark) ∧
      ∀ mark ∈ env.lineStatementMark, startsLineAfter (source.take position).getLast? = true →
        ∀ indent : Text, (∀ c ∈ indent, isIndent c = true) →
          indent ++ mark <+: source.drop position →
            EndsUnscanned env source position (indent ++ mark) := by
  intro position
  have htext := (textOfPieces_of_scan h).1
  obtain ⟨stop, hstop, -, rfl⟩ := visits_of_scan h
  have hclear := (hstop.passes hmark).clear before piece after hpieces hdata hraw i hi
  have hscanned : scannedText env source =
      textOfPieces before ++ (piece.text ++ textOfPieces after) := by
    rw [← htext, hpieces]
    simp [textOfPieces]
  have hposition : position ≤ (scannedText env source).length := by
    rw [hscanned]
    simp only [List.length_append, position]
    omega
  have hsource := scannedText_append_unscannedText env source
  refine ⟨?_, ?_, ?_⟩
  · rw [← hsource, hscanned, List.append_assoc, ← List.drop_drop, List.drop_left, List.append_assoc,
      List.drop_append_of_le_length hi.le]
    exact List.prefix_append _ _
  · exact fun mark hmem => endsUnscanned_of_prefix hposition (hclear.startMark mark hmem)
  · intro mark hmem hline indent hindent
    have htake : source.take position = (scannedText env source).take position := by
      conv_lhs => rw [← hsource]
      exact List.take_append_of_le_length hposition
    rw [htake] at hline
    exact endsUnscanned_of_prefix hposition (hclear.lineStatement mark hmem hline indent hindent)

/-- The second line of a data piece with line statements and line comments. -/
theorem mark_in_data_of_second_line :
    let env : Environment :=
      { lineStatementMark := some ['#', ' '], lineCommentMark := some ['#', '#'] }
    ∃ pieces, JinjaLayout.scan env "a\n #b\n  # x".toList = .ok pieces ∧
      pieces.head? = some ⟨1, .data, "a\n #b\n".toList⟩ ∧
      ¬ ['#', '#'] <+: ("a\n #b\n  # x".toList).drop 2 := by
  intro env
  refine ⟨_, rfl, rfl, fun hfound => ?_⟩
  obtain ⟨-, hends, -⟩ := endsUnscanned_of_mark_in_data env "a\n #b\n  # x".toList _
    (by rintro _ ⟨⟩ _ ⟨⟩; rfl) rfl [] _ ⟨1, .data, "a\n #b\n".toList⟩ rfl rfl rfl 2 (by decide)
  exact absurd (hends ['#', '#'] (by decide) hfound).2.1 (by decide)

/-- A line comment whose mark ends in the newline that is not scanned stays data. -/
theorem lineComment_in_data_at_newline :
    let env : Environment := { lineCommentMark := some ['#', '\n'] }
    JinjaLayout.scan env "a#\n".toList = .ok [⟨1, .data, ['a', '#']⟩] ∧
      ['#', '\n'] ∈ startMarks env ∧ ['#', '\n'] <+: ("a#\n".toList).drop 1 := by
  decide +kernel

end JinjaLayout.Scan
