import Mathlib
import JinjaLayout.Proofs.Outline

/-!
The scanner as a machine. A stage says what the scanner looks for next; each step reads the pieces
that it finds there. Main statement: a scan that succeeds is a run of such steps, so what every step
keeps holds of all its pieces.
-/

namespace JinjaLayout.Scan

open Text

/-- What the scanner looks for next. Behind an end delimiter, or the tag that begins a raw block, it
first removes whitespace. -/
inductive Stage where
  | outside
  | facing (marker : Marker)
  | tag (tagEnd : TagEnd) (due : Text)
  | comment
  | raw
  | behind (chomp : Chomp) (trims : Bool) (inRaw : Bool)
  | finished

def Stage.entered : Bool → Stage
  | true => raw
  | false => outside

def beginLength (tagEnd : TagEnd) (marker : Marker) (scan : Scan) : Nat :=
  if tagEnd = .line then marker.length else scan.signedLength marker

/-- The scanner comes to the stage when it reads the text. -/
inductive Visits (env : Environment) (text : Text) : Stage → Scan → Prop where
  | start : Visits env text .outside { rest := text }
  | lead {scan marker} (h : Visits env text .outside scan)
      (hnext : Marker.next? env scan.startsLine scan.rest = some marker) :
      Visits env text (.facing marker) (scan.readData env marker)
  | last {scan} (h : Visits env text .outside scan)
      (hnext : Marker.next? env scan.startsLine scan.rest = none) :
      Visits env text .finished (scan.push .data scan.rest.length)
  | stop {scan} (h : Visits env text .outside scan) (hrest : scan.rest = []) :
      Visits env text .finished scan
  | tagBegin {scan marker} (tagEnd : TagEnd) (h : Visits env text (.facing marker) scan)
      (hkind : marker.kind = tagEnd.marker) :
      Visits env text (.tag tagEnd []) (scan.push tagEnd.beginKind (beginLength tagEnd marker scan))
  | gap {scan tagEnd due} (h : Visits env text (.tag tagEnd due) scan) (length : Nat) :
      Visits env text (.tag tagEnd due) (scan.push .whitespace length)
  | token {scan tagEnd due due' kind length} (h : Visits env text (.tag tagEnd due) scan)
      (htoken : scan.tagToken due = .ok (kind, length, due')) :
      Visits env text (.tag tagEnd due') (scan.push kind length)
  | tagEnd {scan tagEnd length chomp} (h : Visits env text (.tag tagEnd []) scan)
      (hending : ending? env tagEnd scan.rest = some (length, chomp)) :
      Visits env text (.behind chomp (tagEnd == .block) false) (scan.push tagEnd.kind length)
  | commentBegin {scan marker} (h : Visits env text (.facing marker) scan)
      (hkind : marker.kind = .comment) :
      Visits env text .comment (scan.push .commentBegin
        (env.commentStart.length + (Chomp.atStart (scan.rest.drop env.commentStart.length)).width))
  | commentEnd {scan start chomp} (h : Visits env text .comment scan)
      (hstart : position? env.commentEnd scan.rest = some start)
      (hchomp : Chomp.ofChar? (scan.rest.take start).getLast? = chomp) :
      Visits env text (.behind chomp true false)
        ((scan.pushSome .comment (start - chomp.width)).push .commentEnd
          (chomp.width + env.commentEnd.length))
  | rawBegin {scan marker length chomp} (h : Visits env text (.facing marker) scan)
      (hkind : marker.kind = .block) (hword : wordTag? env "raw" scan.rest = some (length, chomp)) :
      Visits env text (.behind chomp true true) (scan.push .rawBegin length)
  | rawEnd {scan start length chomp} (h : Visits env text .raw scan)
      (hend : rawEnd? env 0 scan.rest = some (start, length, chomp)) :
      Visits env text (.behind chomp true false)
        ((scan.readData env ⟨start, .block, env.blockStart.length⟩).push .rawEnd length)
  | lineComment {scan marker} (h : Visits env text (.facing marker) scan)
      (hkind : marker.kind = .lineComment) :
      Visits env text .outside (scan.readLineComment marker.length)
  | tail {scan chomp trims inRaw} (h : Visits env text (.behind chomp trims inRaw) scan) :
      Visits env text (.entered inRaw)
        (scan.pushSome .whitespace (tailText env chomp trims scan.rest).length)

theorem readTail_eq_pushSome (env : Environment) (chomp : Chomp) (trims : Bool) (scan : Scan) :
    scan.readTail env chomp trims =
      scan.pushSome .whitespace (tailText env chomp trims scan.rest).length := by
  unfold readTail tailText
  cases chomp with
  | strip | keep => rfl
  | none =>
      dsimp only
      split <;> rfl

variable {env : Environment} {text : Text} {scan stop : Scan} {bound : Nat}

theorem Visits.readTail {chomp : Chomp} {trims inRaw : Bool}
    (h : Visits env text (.behind chomp trims inRaw) scan) :
    Visits env text (.entered inRaw) (scan.readTail env chomp trims) := by
  rw [readTail_eq_pushSome]
  exact h.tail

theorem Visits.readTag {tagEnd : TagEnd} {due : Text} (h : Visits env text (.tag tagEnd due) scan)
    (hread : Scan.readTag env tagEnd bound due scan = .ok stop) : Visits env text .outside stop := by
  induction bound generalizing due scan with
  | zero => simp [Scan.readTag, fail] at hread
  | succ bound ih =>
      rw [readTag_succ] at hread
      split at hread
      · exact ih (h.gap _) hread
      · split at hread
        · rename_i hending
          obtain ⟨rfl, hending⟩ := Option.ite_none_right_eq_some.mp hending
          cases hread
          exact (h.tagEnd hending).readTail
        · split at hread
          · simp [fail] at hread
          · rename_i htoken
            exact ih (h.token htoken) hread

theorem Visits.readRaw (h : Visits env text .raw scan) (hread : scan.readRaw env = .ok stop) :
    Visits env text .outside stop := by
  unfold Scan.readRaw at hread
  split at hread
  · simp [fail] at hread
  · rename_i hend
    cases hread
    exact (h.rawEnd hend).readTail

theorem Visits.readComment {marker : Marker} (h : Visits env text (.facing marker) scan)
    (hkind : marker.kind = .comment) (hread : scan.readComment env = .ok stop) :
    Visits env text .outside stop := by
  unfold Scan.readComment at hread
  dsimp only at hread
  split at hread
  · simp [fail] at hread
  · rename_i hstart
    cases hread
    exact ((h.commentBegin hkind).commentEnd hstart rfl).readTail

theorem Visits.readMarked {marker : Marker} (h : Visits env text (.facing marker) scan)
    (hread : scan.readMarked env marker = .ok stop) : Visits env text .outside stop := by
  unfold Scan.readMarked at hread
  split at hread
  · rename_i hkind
    split at hread
    · rename_i hword
      exact (h.rawBegin hkind hword).readTail.readRaw hread
    · exact (h.tagBegin .block hkind).readTag hread
  · rename_i hkind
    exact (h.tagBegin .variable hkind).readTag hread
  · rename_i hkind
    exact h.readComment hkind hread
  · rename_i hkind
    exact (h.tagBegin .line hkind).readTag hread
  · rename_i hkind
    cases hread
    exact h.lineComment hkind

theorem Visits.readAll (h : Visits env text .outside scan)
    (hread : Scan.readAll env bound scan = .ok stop) :
    Visits env text .finished stop ∧ stop.rest = [] := by
  induction bound generalizing scan with
  | zero =>
      unfold Scan.readAll at hread
      split at hread
      · rename_i hrest
        cases hread
        exact ⟨h.stop hrest, hrest⟩
      · simp [fail] at hread
  | succ bound ih =>
      unfold Scan.readAll at hread
      split at hread
      · rename_i hrest
        cases hread
        exact ⟨h.stop hrest, hrest⟩
      · split at hread
        · rename_i hnext
          cases hread
          exact ⟨h.last hnext, by simp [push]⟩
        · rename_i hnext
          split at hread
          · simp at hread
          · rename_i hmarked
            exact ih ((h.lead hnext).readMarked hmarked) hread

theorem visits_of_scan {source : Text} {pieces : List Piece}
    (h : JinjaLayout.scan env source = .ok pieces) :
    ∃ stop, Visits env (scannedText env source) .finished stop ∧ stop.rest = [] ∧
      stop.pieces.reverse = pieces := by
  unfold JinjaLayout.scan at h
  cases hread : Scan.readAll env ((scannedText env source).length + 1)
      { rest := scannedText env source } with
  | error error => simp [hread, Except.map] at h
  | ok stop =>
      obtain ⟨hstop, hrest⟩ := Visits.start.readAll hread
      exact ⟨stop, hstop, hrest, by simpa [hread, Except.map] using h⟩

end JinjaLayout.Scan
