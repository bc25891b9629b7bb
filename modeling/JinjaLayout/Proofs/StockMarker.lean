import Mathlib
import JinjaLayout.Proofs.Cuts

/-!
Markers of the stock delimiters. All three start with the same brace and have two characters, so
whether data ends at a marker depends on the data and that brace alone.
-/

namespace JinjaLayout

/-- An environment with the stock delimiters and no line forms. -/
structure Environment.IsStock (env : Environment) : Prop where
  blockStart : env.blockStart = ['{', '%']
  blockEnd : env.blockEnd = ['%', '}']
  variableStart : env.variableStart = ['{', '{']
  variableEnd : env.variableEnd = ['}', '}']
  commentStart : env.commentStart = ['{', '#']
  commentEnd : env.commentEnd = ['#', '}']
  lineStatementMark : env.lineStatementMark = none
  lineCommentMark : env.lineCommentMark = none

theorem Environment.isStock_iff (env : Environment) :
    env.IsStock ↔ env.hasStockDelimiters := by
  obtain ⟨bs, be, vs, ve, cs, ce, ls, lc, trim, lstrip, keep⟩ := env
  simp only [Environment.hasStockDelimiters, beq_iff_eq, Environment.mk.injEq, and_true]
  constructor
  · rintro ⟨h1, h2, h3, h4, h5, h6, h7, h8⟩
    exact ⟨h1, h2, h3, h4, h5, h6, h7, h8⟩
  · rintro ⟨h1, h2, h3, h4, h5, h6, h7, h8⟩
    exact ⟨h1, h2, h3, h4, h5, h6, h7, h8⟩

namespace Marker

/-- What the character after a brace opens. -/
def kindOf? : Char → Option MarkerKind
  | '%' => some .block
  | '{' => some .variable
  | '#' => some .comment
  | _ => none

def atStart? : Text → Option MarkerKind
  | '{' :: c :: _ => kindOf? c
  | _ => none

theorem atStart?_cons_cons (c d : Char) (rest : Text) :
    atStart? (c :: d :: rest) = if c = '{' then kindOf? d else none := by
  by_cases hc : c = '{'
  · subst hc
    rfl
  · simp [atStart?, hc]

/-- The first marker in a text: the number of characters before it and what it opens. -/
def first? : Text → Option (Nat × MarkerKind)
  | [] => none
  | c :: rest =>
      match atStart? (c :: rest) with
      | some kind => some (0, kind)
      | none => (first? rest).map fun found => (found.1 + 1, found.2)

def shifted (marker : Marker) : Marker :=
  { marker with start := marker.start + 1 }

theorem foldl_earlier_shifted (markers : List Marker) (best : Option Marker) :
    (markers.map shifted).foldl earlier (best.map shifted) =
      (markers.foldl earlier best).map shifted := by
  induction markers generalizing best with
  | nil => rfl
  | cons marker markers ih =>
      simp only [List.map_cons, List.foldl_cons]
      rw [← ih]
      congr 1
      cases best with
      | none => rfl
      | some best =>
          simp only [earlier, Option.map_some, shifted, Nat.add_lt_add_iff_right,
            Nat.add_right_cancel_iff]
          split_ifs <;> rfl

variable {kind : MarkerKind} {c : Char} {rest : Text}

theorem ofDelimiter?_cons_of_not_starts {delimiter : Text}
    (h : delimiter.isPrefixOf (c :: rest) = false) :
    ofDelimiter? kind delimiter (c :: rest) = (ofDelimiter? kind delimiter rest).map shifted := by
  cases hfound : Text.position? delimiter rest <;>
    simp [ofDelimiter?, Text.position?, h, hfound, shifted]

theorem ofDelimiter?_cons_of_starts {delimiter : Text} (h : delimiter.isPrefixOf (c :: rest)) :
    ofDelimiter? kind delimiter (c :: rest) = some ⟨0, kind, delimiter.length⟩ := by
  simp [ofDelimiter?, Text.position?, h]

def stockCandidates (text : Text) : List Marker :=
  [ofDelimiter? .block ['{', '%'] text, ofDelimiter? .variable ['{', '{'] text,
    ofDelimiter? .comment ['{', '#'] text].filterMap id

theorem next?_eq_foldl {env : Environment} (hstock : env.IsStock) (startsLine : Bool)
    (text : Text) : next? env startsLine text = (stockCandidates text).foldl earlier none := by
  simp [next?, candidates, stockCandidates, hstock.blockStart, hstock.variableStart,
    hstock.commentStart, hstock.lineStatementMark, hstock.lineCommentMark, List.filterMap_cons]

theorem stockCandidates_cons_of_none (h : atStart? (c :: rest) = none) :
    stockCandidates (c :: rest) = (stockCandidates rest).map shifted := by
  have hnone : ∀ d, (kindOf? d).isSome → ['{', d].isPrefixOf (c :: rest) = false := by
    intro d hd
    by_contra hfront
    simp only [Bool.not_eq_false, List.isPrefixOf_iff_prefix] at hfront
    obtain ⟨more, hmore⟩ := hfront
    rw [← hmore] at h
    simp [atStart?] at h
    simp [h] at hd
  rw [stockCandidates, ofDelimiter?_cons_of_not_starts (hnone '%' rfl),
    ofDelimiter?_cons_of_not_starts (hnone '{' rfl), ofDelimiter?_cons_of_not_starts (hnone '#' rfl)]
  cases hblock : ofDelimiter? .block ['{', '%'] rest <;>
    cases hvariable : ofDelimiter? .variable ['{', '{'] rest <;>
    cases hcomment : ofDelimiter? .comment ['{', '#'] rest <;>
    simp [stockCandidates, hblock, hvariable, hcomment]

theorem foldl_earlier_of_atStart {d : Char} (h : atStart? (c :: d :: rest) = some kind) :
    (stockCandidates (c :: d :: rest)).foldl earlier none = some ⟨0, kind, 2⟩ := by
  obtain ⟨rfl, hkind⟩ : c = '{' ∧ kindOf? d = some kind := by
    simpa [atStart?_cons_cons] using h
  -- the candidate at the start comes before every other one, which starts further on
  have hother : ∀ {other : MarkerKind} {x : Char}, x ≠ d →
      ofDelimiter? other ['{', x] ('{' :: d :: rest) =
        (ofDelimiter? other ['{', x] (d :: rest)).map shifted := by
    intro other x hx
    exact ofDelimiter?_cons_of_not_starts (by simp [List.isPrefixOf, hx])
  have hown : ∀ {own : MarkerKind}, ofDelimiter? own ['{', d] ('{' :: d :: rest) =
      some ⟨0, own, 2⟩ := ofDelimiter?_cons_of_starts (by simp [List.isPrefixOf])
  unfold kindOf? at hkind
  split at hkind
  · obtain rfl := Option.some.inj hkind
    rw [stockCandidates, hown, hother (by decide), hother (by decide)]
    cases ofDelimiter? .variable ['{', '{'] ('%' :: rest) <;>
      cases ofDelimiter? .comment ['{', '#'] ('%' :: rest) <;> simp [earlier, shifted]
  · obtain rfl := Option.some.inj hkind
    rw [stockCandidates, hown, hother (by decide), hother (by decide)]
    cases ofDelimiter? .block ['{', '%'] ('{' :: rest) <;>
      cases ofDelimiter? .comment ['{', '#'] ('{' :: rest) <;> simp [earlier, shifted]
  · obtain rfl := Option.some.inj hkind
    rw [stockCandidates, hown, hother (by decide), hother (by decide)]
    cases ofDelimiter? .block ['{', '%'] ('#' :: rest) <;>
      cases ofDelimiter? .variable ['{', '{'] ('#' :: rest) <;>
      simp only [Option.map_some, Option.map_none, List.filterMap_cons, List.filterMap_nil, id,
        List.foldl_cons, List.foldl_nil, earlier, shifted] <;>
      split_ifs <;> simp_all
  · simp at hkind

theorem next?_eq_first? {env : Environment} (hstock : env.IsStock) (startsLine : Bool)
    (text : Text) :
    next? env startsLine text = (first? text).map fun found => ⟨found.1, found.2, 2⟩ := by
  rw [next?_eq_foldl hstock]
  induction text with
  | nil => rfl
  | cons c rest ih =>
      rw [first?]
      split
      · rename_i kind hstart
        cases rest with
        | nil => simp [atStart?] at hstart
        | cons d rest => exact foldl_earlier_of_atStart hstart
      · rename_i hstart
        have hfold := foldl_earlier_shifted (stockCandidates rest) none
        rw [Option.map_none] at hfold
        rw [stockCandidates_cons_of_none hstart, hfold, ih]
        cases first? rest <;> rfl

theorem chomp_of_kindOf? {marker : Marker} (h : kindOf? c = some marker.kind) (rest : Text) :
    marker.chomp rest = Chomp.atStart (rest.drop (marker.start + marker.length)) := by
  unfold kindOf? at h
  unfold chomp
  split at h
  · rw [← Option.some.inj h]
  · rw [← Option.some.inj h]
  · rw [← Option.some.inj h]
  · simp at h

theorem atStart?_append_brace (c : Char) (data : Text) (more : Text) :
    atStart? (c :: (data ++ '{' :: more)) = atStart? (c :: (data ++ ['{'])) := by
  cases data <;> simp [atStart?_cons_cons]

theorem first?_append {data more : Text} {kind : MarkerKind}
    (hdata : first? (data ++ ['{']) = none) (hmore : atStart? ('{' :: more) = some kind) :
    first? (data ++ '{' :: more) = some (data.length, kind) := by
  induction data with
  | nil => simp [first?, hmore]
  | cons c data ih =>
      rw [List.cons_append, first?] at hdata
      split at hdata
      · simp at hdata
      · rename_i hstart
        rw [List.cons_append, first?, atStart?_append_brace, hstart]
        simp [ih (by simpa using hdata)]

theorem exists_of_first?_eq_some {text : Text} {start : Nat} (h : first? text = some (start, kind)) :
    ∃ (data : Text) (c : Char) (more : Text), text = data ++ '{' :: c :: more ∧
      data.length = start ∧ first? (data ++ ['{']) = none ∧ kindOf? c = some kind := by
  induction text generalizing start with
  | nil => simp [first?] at h
  | cons c rest ih =>
      rw [first?] at h
      split at h
      · rename_i found hstart
        obtain ⟨rfl, rfl⟩ : 0 = start ∧ found = kind := by simpa using h
        unfold atStart? at hstart
        split at hstart
        · rename_i d more heq
          obtain ⟨rfl, rfl⟩ := List.cons.inj heq
          exact ⟨[], d, more, rfl, rfl, rfl, hstart⟩
        · simp at hstart
      · rename_i hstart
        obtain ⟨⟨inner, found⟩, hinner, heq⟩ := Option.map_eq_some_iff.mp h
        obtain ⟨rfl, rfl⟩ : inner + 1 = start ∧ found = kind := by simpa using heq
        obtain ⟨data, d, more, rfl, rfl, hdata, hkind⟩ := ih hinner
        refine ⟨c :: data, d, more, rfl, rfl, ?_, hkind⟩
        rw [atStart?_append_brace] at hstart
        simp [first?, hstart, hdata]

end Marker

end JinjaLayout
