import Mathlib
import JinjaLayout.Token.Scan

/-!
What a scan does, without lines and offsets: it reads pieces off the front of the text, and the
next piece depends on nothing but the text that is left and the character before it.
-/

namespace JinjaLayout

/-- A piece of text with its category, wherever it stands. -/
abbrev Cut := TokenKind × Text

def textOfCuts (cuts : List Cut) : Text :=
  cuts.flatMap Prod.snd

@[simp]
theorem textOfCuts_nil : textOfCuts [] = [] := rfl

@[simp]
theorem textOfCuts_cons (cut : Cut) (cuts : List Cut) :
    textOfCuts (cut :: cuts) = cut.2 ++ textOfCuts cuts := by
  simp [textOfCuts]

@[simp]
theorem textOfCuts_append (first second : List Cut) :
    textOfCuts (first ++ second) = textOfCuts first ++ textOfCuts second := by
  simp [textOfCuts]

def Piece.cut (piece : Piece) : Cut :=
  (piece.kind, piece.text)

namespace Scan

/-- The pieces read so far, in order. -/
def cuts (scan : Scan) : List Cut :=
  scan.pieces.reverse.map Piece.cut

/-- The last character of a text, or what stood before the text if it is empty. -/
def lastChar (before : Option Char) (text : Text) : Option Char :=
  text.getLast? <|> before

@[simp]
theorem lastChar_nil (before : Option Char) : lastChar before [] = before := rfl

theorem lastChar_of_ne_nil (before : Option Char) {text : Text} (h : text ≠ []) :
    lastChar before text = text.getLast? := by
  simp [lastChar, List.getLast?_eq_some_getLast h]

theorem lastChar_append (before : Option Char) (first second : Text) :
    lastChar before (first ++ second) = lastChar (lastChar before first) second := by
  unfold lastChar
  rw [List.getLast?_append]
  cases second.getLast? <;> rfl

/-- One scan comes out of another by reading the pieces. -/
structure Reaches (start : Scan) (read : List Cut) (stop : Scan) : Prop where
  cuts_eq : stop.cuts = start.cuts ++ read
  rest_eq : start.rest = textOfCuts read ++ stop.rest
  previous_eq : stop.previous = lastChar start.previous (textOfCuts read)

theorem Reaches.refl (scan : Scan) : Reaches scan [] scan :=
  ⟨by simp, rfl, rfl⟩

theorem Reaches.trans {start middle stop : Scan} {first second : List Cut}
    (h : Reaches start first middle) (h' : Reaches middle second stop) :
    Reaches start (first ++ second) stop where
  cuts_eq := by rw [h'.cuts_eq, h.cuts_eq, List.append_assoc]
  rest_eq := by rw [h.rest_eq, h'.rest_eq, textOfCuts_append, List.append_assoc]
  previous_eq := by rw [h'.previous_eq, h.previous_eq, textOfCuts_append, lastChar_append]

theorem reaches_push (kind : TokenKind) (length : Nat) (scan : Scan) :
    Reaches scan [(kind, scan.rest.take length)] (scan.push kind length) where
  cuts_eq := by simp [cuts, push, Piece.cut]
  rest_eq := by simp [push, textOfCuts, List.take_append_drop]
  previous_eq := by simp [push, textOfCuts, lastChar]

theorem reaches_push_of_rest (kind : TokenKind) {text after : Text} {scan : Scan}
    (h : scan.rest = text ++ after) :
    Reaches scan [(kind, text)] (scan.push kind text.length) ∧
      (scan.push kind text.length).rest = after := by
  have taken := reaches_push kind text.length scan
  rw [h, List.take_left] at taken
  refine ⟨taken, ?_⟩
  simp [push, h]

/-- A piece that is left out when it is empty. -/
def someCut (kind : TokenKind) (text : Text) : List Cut :=
  if text = [] then [] else [(kind, text)]

@[simp]
theorem textOfCuts_someCut (kind : TokenKind) (text : Text) :
    textOfCuts (someCut kind text) = text := by
  unfold someCut
  split <;> simp_all

@[simp]
theorem mem_someCut {kind : TokenKind} {text : Text} {cut : Cut} :
    cut ∈ someCut kind text ↔ text ≠ [] ∧ cut = (kind, text) := by
  unfold someCut
  split <;> simp_all

theorem reaches_pushSome_of_rest (kind : TokenKind) {text after : Text} {scan : Scan}
    (h : scan.rest = text ++ after) :
    Reaches scan (someCut kind text) (scan.pushSome kind text.length) ∧
      (scan.pushSome kind text.length).rest = after := by
  by_cases hempty : text = []
  · subst hempty
    exact ⟨by simpa [someCut, pushSome] using Reaches.refl scan, by simpa [pushSome] using h⟩
  · have hlength : text.length ≠ 0 := by simpa using hempty
    simpa [someCut, hempty, pushSome] using reaches_push_of_rest kind h

end Scan

end JinjaLayout
