import Mathlib
import JinjaLayout.Proofs.TablePairs

/-!
Whitespace control. Main statement: the signs that a token table records agree with the whitespace
that the scanner took out of the data beside them.
-/

namespace JinjaLayout

open List

/-! ### Neighbours -/

namespace TokenKind

/-- Whether a minus sign in a delimiter of the category removes the whitespace before it. -/
def stripsBefore : TokenKind → Bool
  | blockBegin | variableBegin | commentBegin | rawBegin => true
  | _ => false

/-- Whether a minus sign in a delimiter of the category removes the whitespace behind it. -/
def stripsBehind : TokenKind → Bool
  | blockEnd | variableEnd | commentEnd | rawEnd => true
  | _ => false

/-- Whether a delimiter of the category may remove the line end behind it without a sign. -/
def trimsBehind : TokenKind → Bool
  | blockEnd | commentEnd | rawEnd => true
  | _ => false

theorem stripsBefore_of_isWord {kind : TokenKind} (h : kind.isWord) :
    kind.stripsBefore = false := by
  cases kind <;> first | rfl | cases h

theorem stripsBehind_of_trimsBehind {kind : TokenKind} (h : kind.trimsBehind) :
    kind.stripsBehind := by
  cases kind <;> first | rfl | cases h

end TokenKind

/-- What whitespace control looks at in a token. -/
structure Edge where
  kind : TokenKind
  text : Text
  chomp : Chomp

def Token.edge (token : Token) : Edge :=
  ⟨token.kind, token.text, token.chomp⟩

def Piece.edge (env : Environment) (piece : Piece) : Edge :=
  ⟨piece.kind, piece.text, piece.chomp env⟩

namespace Edge

def EndsBlank (edge : Edge) : Prop :=
  edge.kind = .data ∧ ∃ c ∈ edge.text.getLast?, Text.isBlank c = true

def StartsWith (edge : Edge) (p : Char → Bool) : Prop :=
  edge.kind = .data ∧ ∃ c ∈ edge.text.head?, p c = true

/-- Two neighbours agree: data has no whitespace where a delimiter says that it is removed. -/
structure Agree (env : Environment) (left right : Edge) : Prop where
  before : right.kind.stripsBefore → right.chomp = .strip → ¬left.EndsBlank
  behind : left.kind.stripsBehind → left.chomp = .strip → ¬right.StartsWith Text.isBlank
  newline : env.trimBlocks → left.kind.trimsBehind → left.chomp = .none →
    ¬right.StartsWith (· == '\n')

variable {env : Environment} {left right : Edge}

theorem agree_of_right (hdata : right.kind ≠ .data) (hbefore : right.kind.stripsBefore = false) :
    Agree env left right :=
  ⟨by simp [hbefore], fun _ _ h => hdata h.1, fun _ _ _ h => hdata h.1⟩

theorem agree_of_left (hdata : left.kind ≠ .data) (hbehind : left.kind.stripsBehind = false) :
    Agree env left right := by
  refine ⟨fun _ _ h => hdata h.1, by simp [hbehind], fun _ htrims => ?_⟩
  simp [TokenKind.stripsBehind_of_trimsBehind htrims] at hbehind

end Edge

namespace Scan

open Text Edge TokenKind

/-! ### The signs of delimiters -/

variable {start rest text : Text} {chomp : Chomp} {marker : Marker}

theorem strip_of_afterStart {length : Nat}
    (h : Chomp.ofChar? ((after? start (rest.take length)).bind head?) = .strip) :
    Chomp.atStart (rest.drop start.length) = .strip := by
  cases hafter : after? start (rest.take length) with
  | none => simp [hafter, Chomp.ofChar?] at h
  | some inside =>
      obtain ⟨rest, rfl⟩ : ∃ more, rest = start ++ inside ++ more :=
        ⟨rest.drop length, by rw [← after?_eq_some_iff.mp hafter, take_append_drop]⟩
      rw [hafter, Option.bind_some] at h
      rw [append_assoc, drop_left, Chomp.atStart]
      cases inside with
      | nil => simp [Chomp.ofChar?] at h
      | cons c inside => exact h

def signBefore (stop text : Text) : Chomp :=
  Chomp.ofChar? ((before? stop text).bind List.getLast?)

theorem signBefore_append (stop text : Text) :
    signBefore stop (text ++ stop) = Chomp.ofChar? text.getLast? := by
  simp [signBefore, before?]

theorem signBefore_of_endDelimiter? {delimiter front : Text} {length : Nat}
    (h : endDelimiter? delimiter rest = some (length, chomp))
    (hfront : Chomp.ofChar? front.getLast? = .none) :
    signBefore delimiter (front ++ rest.take length) = chomp := by
  have hplain : (if delimiter.isPrefixOf rest then some (delimiter.length, Chomp.none) else none) =
      some (length, chomp) → signBefore delimiter (front ++ rest.take length) = chomp := by
    intro hplain
    obtain ⟨hdelimiter, rfl, rfl⟩ : delimiter <+: rest ∧ delimiter.length = length ∧ .none = chomp := by
      simpa using hplain
    rw [← prefix_iff_eq_take.mp hdelimiter, signBefore_append, hfront]
  unfold endDelimiter? at h
  dsimp only at h
  split at h
  · rename_i hdelimiter
    split at h
    · obtain ⟨rfl, rfl⟩ : delimiter.length + 1 = length ∧ Chomp.atStart rest = chomp := by
        simpa using h
      cases rest with
      | nil => contradiction
      | cons c rest =>
          obtain ⟨more, rfl⟩ : delimiter <+: rest := by simpa using hdelimiter
          rw [take_succ_cons, take_left, ← singleton_append, ← append_assoc,
            signBefore_append]
          simp [Chomp.atStart]
    · exact hplain h
  · exact hplain (by simpa using h)

theorem chomp_of_ending? {env : Environment} {tagEnd : TagEnd} {line length : Nat}
    (hline : tagEnd ≠ .line) (h : ending? env tagEnd rest = some (length, chomp)) :
    Piece.chomp env ⟨line, tagEnd.kind, rest.take length⟩ = chomp := by
  cases rest with
  | nil => cases tagEnd <;> contradiction
  | cons c rest =>
      cases tagEnd with
      | line => contradiction
      | _ => exact @signBefore_of_endDelimiter? _ _ _ [] _ h rfl

theorem signBefore_of_wordTag? {env : Environment} {tag : Text} {length : Nat}
    (h : wordTag? env "endraw" tag = some (length, chomp)) :
    signBefore env.blockEnd (tag.take length) = chomp := by
  simp only [wordTag?, Option.bind_eq_bind, Option.bind_eq_some_iff, after?_eq_some_iff,
    Option.some.injEq, Prod.mk.injEq] at h
  obtain ⟨inside, rfl, afterWord, hword, ⟨found, chomp⟩, hending, rfl, rfl⟩ := h
  have hfront : ∃ front, inside = front ++ afterWord.dropWhile isBlank ∧
      Chomp.ofChar? (env.blockStart ++ front).getLast? = .none := by
    refine ⟨inside.take (Chomp.atStart inside).width ++
      ((inside.drop (Chomp.atStart inside).width).takeWhile isBlank ++
        ("endraw".toList ++ afterWord.takeWhile isBlank)), ?_, ?_⟩
    · simp only [append_assoc, takeWhile_append_dropWhile, ← hword, take_append_drop]
    · -- the last character before the end is a blank or that of the word
      simp only [← append_assoc]
      cases hlast : (afterWord.takeWhile isBlank).getLast? with
      | none =>
          rw [getLast?_eq_none_iff.mp hlast]
          simp [Chomp.ofChar?]
      | some c =>
          have hc := mem_takeWhile_imp (mem_of_getLast? hlast)
          rw [getLast?_append, hlast, Option.some_or]
          unfold Chomp.ofChar?
          split <;> simp_all [isBlank]
  obtain ⟨front, rfl, hlast⟩ := hfront
  rw [← append_assoc, length_append, Nat.add_sub_cancel, take_length_add_append]
  exact signBefore_of_endDelimiter? hending hlast

theorem wordTag?_of_rawEnd? {env : Environment} {skipped : Nat} {start : Nat} {found : Nat × Chomp}
    (h : rawEnd? env skipped rest = some (start, found)) :
    start ≤ rest.length ∧ wordTag? env "endraw" (rest.drop start) = some found := by
  have hlater : ∀ {c rest start} {result : Option (Nat × Nat × Chomp)},
      (∀ {start}, result = some (start, found) →
        start ≤ rest.length ∧ wordTag? env "endraw" (rest.drop start) = some found) →
      (result.map fun found => (found.1 + 1, found.2)) = some (start, found) →
      start ≤ (c :: rest).length ∧ wordTag? env "endraw" ((c :: rest).drop start) = some found := by
    intro c rest start result ih h
    obtain ⟨⟨start, found⟩, hfound, ⟨⟩⟩ := Option.map_eq_some_iff.mp h
    simpa using ih hfound
  fun_induction rawEnd? env skipped rest generalizing start with
  | case1 => simp at h
  | case2 skipped c rest ih => exact hlater ih h
  | case3 c rest _ result hword =>
      obtain ⟨rfl, rfl⟩ : 0 = start ∧ result = found := by simpa using h
      exact ⟨Nat.zero_le _, hword⟩
  | case4 c rest _ _ ih => exact hlater ih h
  | case5 c rest _ ih => exact hlater ih h

theorem prefix_of_position? {needle : Text} {start : Nat} (h : position? needle text = some start) :
    start ≤ text.length ∧ needle <+: text.drop start := by
  induction text generalizing start with
  | nil =>
      obtain ⟨hneedle, rfl⟩ : needle = [] ∧ 0 = start := by simpa [position?] using h
      simp [hneedle]
  | cons c text ih =>
      rw [position?] at h
      split at h
      · rename_i hfront
        obtain rfl : 0 = start := by simpa using h
        simpa using hfront
      · obtain ⟨start, hstart, rfl⟩ := Option.map_eq_some_iff.mp h
        simpa using ih hstart

/-! ### The run -/

/-- The start delimiter that a marker of the kind stands for. Line forms have none. -/
def start? (env : Environment) : MarkerKind → Option Text
  | .block => some env.blockStart
  | .variable => some env.variableStart
  | .comment => some env.commentStart
  | .lineStatement | .lineComment => none

theorem kind_of_ofLineStatement? {mark : Text} {startsLine : Bool}
    (h : Marker.ofLineStatement? mark startsLine rest = some marker) :
    marker.kind = .lineStatement := by
  induction rest generalizing startsLine marker with
  | nil =>
      unfold Marker.ofLineStatement? at h
      split at h
      · cases h
        rfl
      · simp at h
      · contradiction
  | cons c rest ih =>
      unfold Marker.ofLineStatement? at h
      split at h
      · cases h
        rfl
      · simp at h
      · rename_i hrest
        obtain ⟨rfl, rfl⟩ := cons.inj hrest
        obtain ⟨found, hfound, rfl⟩ := Option.map_eq_some_iff.mp h
        have hkind := ih hfound
        exact hkind

theorem mem_of_foldl_earlier {markers : List Marker} {best : Option Marker}
    (h : markers.foldl Marker.earlier best = some marker) :
    best = some marker ∨ marker ∈ markers := by
  induction markers generalizing best with
  | nil => exact .inl h
  | cons first markers ih =>
      rcases ih h with hfirst | hmem
      · unfold Marker.earlier at hfirst
        grind
      · exact .inr (mem_cons_of_mem _ hmem)

theorem length_of_next? {env : Environment} {startsLine : Bool}
    (h : Marker.next? env startsLine rest = some marker)
    (hstart : start? env marker.kind = some start) :
    marker.length = start.length ∧ marker.start ≤ rest.length := by
  have hdelimiter : ∀ kind delimiter, Marker.ofDelimiter? kind delimiter rest = some marker →
      start? env kind = some delimiter → marker.length = start.length ∧ marker.start ≤ rest.length := by
    intro kind delimiter hfound hkind
    obtain ⟨position, hposition, rfl⟩ := Option.map_eq_some_iff.mp hfound
    rw [Option.some.inj (hstart.symm.trans hkind)]
    exact ⟨rfl, (prefix_of_position? hposition).1⟩
  have hmem := (mem_of_foldl_earlier h).resolve_left (by simp)
  simp only [Marker.candidates, mem_filterMap, mem_cons, not_mem_nil, or_false,
    id_eq, exists_eq_or_imp, exists_eq_left] at hmem
  obtain hfound | hfound | hfound | hfound | hfound := hmem
  · exact hdelimiter .block _ hfound rfl
  · exact hdelimiter .variable _ hfound rfl
  · exact hdelimiter .comment _ hfound rfl
  · obtain ⟨mark, -, hmark⟩ := Option.bind_eq_some_iff.mp hfound
    obtain ⟨position, -, rfl⟩ := Option.map_eq_some_iff.mp hmark
    simp [start?] at hstart
  · obtain ⟨mark, -, hmark⟩ := Option.bind_eq_some_iff.mp hfound
    simp [start?, kind_of_ofLineStatement? hmark] at hstart

theorem take_of_commentEnd {stop : Text} {start : Nat} {scan : Scan}
    (hstart : position? stop scan.rest = some start)
    (hchomp : Chomp.ofChar? (scan.rest.take start).getLast? = chomp) :
    (scan.pushSome .comment (start - chomp.width)).rest.take (chomp.width + stop.length) =
      chomp.sign ++ stop := by
  obtain ⟨hle, more, hmore⟩ := prefix_of_position? hstart
  obtain ⟨body, hbody⟩ := sign_suffix_of_ofChar? (scan.rest.take start)
  rw [hchomp] at hbody
  have hlength : start - chomp.width = body.length := by
    have hlength := congrArg length hbody
    rw [length_take_of_le hle, length_append] at hlength
    rw [hlength, Chomp.width, Nat.add_sub_cancel]
  have hrest : scan.rest = body ++ (chomp.sign ++ stop ++ more) := by
    rw [← scan.rest.take_append_drop start, hbody, ← hmore]
    simp
  rw [hlength, (reaches_pushSome_of_rest .comment hrest).2, Chomp.width, ← length_append,
    take_left]

theorem readData_rest (env : Environment) {scan : Scan} (h : marker.start ≤ scan.rest.length) :
    (scan.readData env marker).rest = scan.rest.drop marker.start :=
  (reaches_readData env (take_append_drop _ _).symm (length_take_of_le h).symm).2

def Agreeing (env : Environment) (scan : Scan) : Prop :=
  scan.pieces.IsChain fun right left => (left.edge env).Agree env (right.edge env)

/-- What the last piece says about the text that is left. -/
def Ready (env : Environment) (scan : Scan) : Stage → Prop
  | .outside | .raw => ∀ last ∈ scan.pieces.head?, last.kind ≠ .data ∧
      ∀ length, (last.edge env).Agree env ⟨.data, scan.rest.take length, .none⟩
  | .facing marker => ∀ start, start? env marker.kind = some start →
      Chomp.atStart (scan.rest.drop start.length) = .strip →
        ∀ last ∈ scan.pieces.head?, ¬(last.edge env).EndsBlank
  | .behind chomp trims _ => ∀ last ∈ scan.pieces.head?, last.kind ≠ .data ∧
      (last.kind.stripsBehind → last.chomp env = chomp) ∧
        (last.kind.trimsBehind → trims = true)
  | .tag .. | .comment | .finished => True

variable {env : Environment} {scan : Scan} {kind : TokenKind} {length : Nat}

theorem Agreeing.push (h : Agreeing env scan) (hagree : ∀ last ∈ scan.pieces.head?,
      (last.edge env).Agree env (Piece.edge env ⟨scan.line, kind, scan.rest.take length⟩)) :
    Agreeing env (scan.push kind length) :=
  IsChain.cons h hagree

theorem Agreeing.pushOther (h : Agreeing env scan) (hdata : kind ≠ .data)
    (hbefore : kind.stripsBefore = false) : Agreeing env (scan.push kind length) :=
  h.push fun _ _ => agree_of_right hdata hbefore

theorem Agreeing.pushSomeOther (h : Agreeing env scan) (hdata : kind ≠ .data)
    (hbefore : kind.stripsBefore = false) : Agreeing env (scan.pushSome kind length) := by
  unfold pushSome
  split
  · exact h
  · exact h.pushOther hdata hbefore

theorem Agreeing.readData (h : Agreeing env scan) (hready : Ready env scan .outside)
    (marker : Marker) : Agreeing env (scan.readData env marker) := by
  refine Agreeing.pushSomeOther ?_ (by simp) rfl
  unfold pushSome
  split
  · exact h
  · exact h.push fun last hlast => (hready last hlast).2 _

theorem trimEnd_prefixed (p : Char → Bool) (text : Text) : trimEnd p text <+: text := by
  rw [trimEnd, ← reverse_suffix, reverse_reverse]
  exact dropWhile_suffix p

theorem not_of_mem_getLast?_trimEnd {p : Char → Bool} {c : Char} (h : c ∈ (trimEnd p text).getLast?) :
    ¬p c := by
  rw [trimEnd, getLast?_reverse] at h
  have hhead := head?_dropWhile_not p text.reverse
  rw [h] at hhead
  simpa using hhead

theorem take_of_strip (h : marker.chomp scan.rest = .strip) :
    scan.rest.take (scan.keptLength env marker) = trimEnd isBlank (scan.rest.take marker.start) := by
  rw [keptLength, if_pos h]
  exact (prefix_iff_eq_take.mp ((trimEnd_prefixed _ _).trans (List.take_prefix _ _))).symm

theorem not_endsBlank_of_readData (hready : Ready env scan .outside)
    (hstrip : marker.chomp scan.rest = .strip) :
    ∀ last ∈ (scan.readData env marker).pieces.head?, ¬(last.edge env).EndsBlank := by
  have hdata : ∀ last ∈ (scan.pushSome .data (scan.keptLength env marker)).pieces.head?,
      ¬(last.edge env).EndsBlank := by
    unfold pushSome
    split
    · exact fun last hlast hblank => (hready last hlast).1 hblank.1
    · rintro _ ⟨⟩ ⟨-, c, hc, hblank⟩
      rw [Piece.edge, take_of_strip hstrip] at hc
      exact not_of_mem_getLast?_trimEnd hc hblank
  unfold Scan.readData pushSome at *
  dsimp only at *
  split
  · exact hdata
  · rintro _ ⟨⟩ ⟨hkind, -⟩
    cases hkind

theorem Agreeing.pushBegin (h : Agreeing env scan) (hready : Ready env scan (.facing marker))
    (hstart : start? env marker.kind = some start) (hkind : kind ≠ .data)
    (hchomp : ∀ line text, Piece.chomp env ⟨line, kind, text⟩ =
      Chomp.ofChar? ((after? start text).bind head?)) :
    Agreeing env (scan.push kind length) := by
  refine h.push fun last hlast => ⟨fun _ hstrip => ?_, fun _ _ h => hkind h.1, fun _ _ _ h => hkind h.1⟩
  exact hready start hstart (strip_of_afterStart ((hchomp _ _).symm.trans hstrip)) last hlast

theorem exists_of_head?_take {c : Char} (h : c ∈ (text.take length).head?) :
    ∃ rest, text = c :: rest := by
  cases text with
  | nil => simp at h
  | cons d text =>
      cases length with
      | zero => simp at h
      | succ length => exact ⟨text, by simpa using h⟩

/-- The data behind an end delimiter starts where the whitespace ends that the delimiter removes. -/
theorem ready_tail {trims inRaw : Bool} (hready : Ready env scan (.behind chomp trims inRaw)) :
    Ready env (scan.pushSome .whitespace (tailText env chomp trims scan.rest).length) .outside := by
  unfold pushSome
  split
  · rename_i hempty
    intro last hlast
    obtain ⟨hdata, hchomp, htrims⟩ := hready last hlast
    rw [length_eq_zero_iff] at hempty
    refine ⟨hdata, fun length => ⟨fun _ _ h => hdata h.1, ?_, ?_⟩⟩
    · rintro hkind hstrip ⟨-, c, hc, hblank⟩
      obtain rfl : .strip = chomp := hstrip.symm.trans (hchomp hkind)
      obtain ⟨rest, hrest⟩ := exists_of_head?_take hc
      simp [tailText, hrest, hblank] at hempty
    · rintro htrim hkind hnone ⟨-, c, hc, hnewline⟩
      obtain rfl : .none = chomp := hnone.symm.trans (hchomp (stripsBehind_of_trimsBehind hkind))
      obtain ⟨rest, hrest⟩ := exists_of_head?_take hc
      simp [tailText, hrest, htrims hkind, htrim, beq_iff_eq.mp hnewline] at hempty
  · rintro _ ⟨⟩
    exact ⟨by simp, fun _ => agree_of_left (by simp [Piece.edge]) rfl⟩

theorem Visits.agreeing {stage : Stage} (h : Visits env text stage scan) :
    Agreeing env scan ∧ Ready env scan stage := by
  induction h with
  | start => exact ⟨.nil, by simp [Ready]⟩
  | @lead scan marker _ hnext ih =>
      refine ⟨ih.1.readData ih.2 _, fun start hstart hstrip => not_endsBlank_of_readData ih.2 ?_⟩
      obtain ⟨hlength, hle⟩ := length_of_next? hnext hstart
      rw [(readData_rest env hle), drop_drop, ← hlength] at hstrip
      rw [← hstrip, Marker.chomp]
      cases hkind : marker.kind <;> first | rfl | simp [hkind, start?] at hstart
  | last _ _ ih => exact ⟨ih.1.push fun last hlast => (ih.2 last hlast).2 _, trivial⟩
  | stop _ _ ih => exact ⟨ih.1, trivial⟩
  | tagBegin tagEnd _ hkind ih =>
      refine ⟨?_, trivial⟩
      cases tagEnd with
      | block => exact ih.1.pushBegin ih.2 (by rw [hkind]; rfl) (by simp [TagEnd.beginKind]) fun _ _ => rfl
      | line => exact ih.1.pushOther (by simp [TagEnd.beginKind]) rfl
      | _ => exact ih.1.pushBegin ih.2 (by rw [hkind]; rfl) (by simp [TagEnd.beginKind]) fun _ _ => rfl
  | gap _ _ ih => exact ⟨ih.1.pushOther (by simp) rfl, trivial⟩
  | token _ htoken ih =>
      have hword := (isWord_of_tagToken htoken).1
      exact ⟨ih.1.pushOther (by rintro rfl; cases hword) (stripsBefore_of_isWord hword), trivial⟩
  | @tagEnd scan tagEnd length chomp _ hending ih =>
      refine ⟨ih.1.pushOther (by cases tagEnd <;> simp [TagEnd.kind]) (by cases tagEnd <;> rfl), ?_⟩
      rintro _ ⟨⟩
      cases tagEnd with
      | block => exact ⟨by simp [TagEnd.kind], fun _ => chomp_of_ending? (by simp) hending, fun _ => rfl⟩
      | line => exact ⟨by simp [TagEnd.kind], by rintro ⟨⟩, by rintro ⟨⟩⟩
      | _ => exact ⟨by simp [TagEnd.kind], fun _ => chomp_of_ending? (by simp) hending, by rintro ⟨⟩⟩
  | commentBegin _ hkind ih =>
      exact ⟨ih.1.pushBegin ih.2 (by rw [hkind]; rfl) (by simp) fun _ _ => rfl, trivial⟩
  | @commentEnd scan start chomp _ hstart hchomp ih =>
      refine ⟨(ih.1.pushSomeOther (by simp) rfl).pushOther (by simp) rfl, ?_⟩
      rintro _ ⟨⟩
      refine ⟨by simp, fun _ => ?_, fun _ => rfl⟩
      show signBefore env.commentEnd _ = chomp
      rw [take_of_commentEnd hstart hchomp, signBefore_append]
      cases chomp <;> rfl
  | rawBegin _ hkind _ ih =>
      refine ⟨ih.1.pushBegin ih.2 (by rw [hkind]; rfl) (by simp) fun _ _ => rfl, ?_⟩
      rintro _ ⟨⟩
      exact ⟨by simp, by rintro ⟨⟩, by rintro ⟨⟩⟩
  | @rawEnd scan start length chomp _ hend ih =>
      refine ⟨(ih.1.readData ih.2 _).pushOther (by simp) rfl, ?_⟩
      rintro _ ⟨⟩
      obtain ⟨hle, hword⟩ := wordTag?_of_rawEnd? hend
      refine ⟨by simp, fun _ => ?_, fun _ => rfl⟩
      show signBefore env.blockEnd _ = chomp
      rw [readData_rest env hle]
      exact signBefore_of_wordTag? hword
  | lineComment _ _ ih =>
      refine ⟨((ih.1.pushOther (by simp) rfl).pushSomeOther (by simp) rfl).pushOther (by simp) rfl, ?_⟩
      rintro _ ⟨⟩
      exact ⟨by simp, fun _ => agree_of_left (by simp [Piece.edge]) rfl⟩
  | @tail _ _ _ inRaw _ ih =>
      refine ⟨ih.1.pushSomeOther (by simp) rfl, ?_⟩
      cases inRaw <;> exact ready_tail ih.2

theorem isChain_of_scan {source : Text} {pieces : List Piece}
    (h : JinjaLayout.scan env source = .ok pieces) :
    (pieces.map (Piece.edge env)).IsChain (Agree env) := by
  obtain ⟨stop, hstop, -, rfl⟩ := visits_of_scan h
  rw [isChain_map, isChain_reverse]
  exact hstop.agreeing.1

end Scan

namespace TokenTable

variable {env : Environment}

theorem edges_of_locate {pieces : List Piece} {index offset line : Nat} {rest : Text}
    {tokens : List Token} (h : locate env index offset line rest pieces = .ok tokens) :
    ∃ last, tokens.map Token.edge = pieces.map (Piece.edge env) ++ [last] ∧ last.kind = .eof := by
  induction pieces generalizing index offset line rest tokens with
  | nil =>
      cases h
      exact ⟨_, rfl, rfl⟩
  | cons piece pieces ih =>
      unfold locate at h
      split at h
      · simp at h
      · split at h
        · simp at h
        · obtain ⟨more, hmore, rfl⟩ := map_eq_ok_iff.mp h
          obtain ⟨last, hlast, hkind⟩ := ih hmore
          refine ⟨last, ?_, hkind⟩
          rw [map_cons, hlast]
          rfl

theorem build_chomps_agree (env : Environment) (name : Option String) (source : Text)
    (table : TokenTable) (h : build env name source = .ok table) :
    table.tokens.IsChain fun left right => left.edge.Agree env right.edge := by
  obtain ⟨error, herror⟩ | ⟨pieces, tokens, hscan, hlocate, hbuild, -⟩ := build_cases env name source
  · simp [herror] at h
  · obtain rfl : ⟨name, _, withPartners (initialToken :: tokens)⟩ = table :=
      Except.ok.inj (hbuild.symm.trans h)
    obtain ⟨last, hlast, hkind⟩ := edges_of_locate hlocate
    have hedges : (withPartners (initialToken :: tokens)).map Token.edge =
        initialToken.edge :: (pieces.map (Piece.edge env) ++ [last]) := by
      rw [← hlast, withPartners, List.map_map]
      rfl
    rw [← List.isChain_map (R := Edge.Agree env), hedges]
    refine .cons (.append (Scan.isChain_of_scan hscan) (.singleton _) ?_) ?_
    · intro left _ right hright
      obtain rfl : last = right := by simpa using hright
      exact Edge.agree_of_right (by simp [hkind]) (by simp [hkind, TokenKind.stripsBefore])
    · exact fun _ _ => Edge.agree_of_left (by simp [Token.edge, initialToken]) rfl

/-- Signs on both sides of a raw block, and a line end that is removed without one. -/
theorem chomps_agree_of_raw :
    ∃ table, build { trimBlocks := true } none " {%- raw %}\n a {%- endraw -%} b".toList = .ok table ∧
      table.tokens.IsChain fun left right => left.edge.Agree { trimBlocks := true } right.edge :=
  ⟨_, rfl, build_chomps_agree { trimBlocks := true } none
    " {%- raw %}\n a {%- endraw -%} b".toList _ rfl⟩

end TokenTable

end JinjaLayout
