import Mathlib
import JinjaLayout.Proofs.TokenRegions
import JinjaLayout.Spacing.Token

/-!
The brackets that are open at a place. Main statement: looking back over the tokens of a template,
whatever whitespace was put in or taken out, finds the bracket that a stack of the brackets opened
and not closed in the tag has on top.
-/

namespace JinjaLayout.Spacing

open Scan

def Token.beginsTag (token : Token) : Bool :=
  token.opensTag || token.kind == .lineStatementBegin

def Token.endsTag (token : Token) : Bool :=
  token.closesTag || token.kind == .lineStatementEnd

/-- The brackets that are open behind a token of a tag, innermost first. A closing bracket closes
the innermost one if it has the same shape. -/
def bracketsAfter (brackets : Text) (token : Token) : Text :=
  if token.isOperator openers then token.text ++ brackets
  else if token.isOperator closers && brackets.head?.bind closer? == token.text.head? then
    brackets.tail
  else brackets

def tagAfter (state : Option Text) (token : Token) : Option Text :=
  if token.beginsTag then some []
  else if token.endsTag then none
  else state.map fun brackets => bracketsAfter brackets token

def openInTag (tokens : List Token) : Option Text :=
  tokens.foldl tagAfter none

variable {state next : Option Text} {token : Token} {tokens : List Token} {kind : TokenKind}
  {due due' : Text}

/-- Looking back finds the brackets of the stack, one behind each further closing bracket. -/
def Agrees (tokens : List Token) : Prop :=
  ∀ closed, openBracket closed tokens.reverse = ((openInTag tokens).getD [])[closed]?

/-- What the scanner lets follow: closing brackets match, and a tag ends without open brackets. -/
structure Fits (state : Option Text) (token : Token) : Prop where
  ends : token.endsTag ∨ token.kind = .lineStatementBegin → state.getD [] = []
  opens : token.isOperator openers → state.isSome = true
  closes : token.isOperator closers = true →
    ∃ bracket outer, state = some (bracket :: outer) ∧ closer? bracket = token.text.head?

theorem openInTag_concat (tokens : List Token) (token : Token) :
    openInTag (tokens ++ [token]) = tagAfter (openInTag tokens) token := by
  simp [openInTag]

theorem mem_of_isOperator {symbols : List Text} (h : token.isOperator symbols) :
    token.kind = .operator ∧ token.text ∈ symbols := by
  simpa [Token.isOperator] using h

theorem tagAfter_of_operator (h : token.kind = .operator) (state : Option Text) :
    tagAfter state token = state.map fun brackets => bracketsAfter brackets token := by
  simp [tagAfter, Token.beginsTag, Token.endsTag, Token.opensTag, Token.closesTag, h]

theorem Agrees.concat (h : Agrees tokens) (hfits : Fits (openInTag tokens) token) :
    Agrees (tokens ++ [token]) := by
  intro closed
  rw [openInTag_concat, List.reverse_concat]
  by_cases hopens : token.opensTag = true
  · simp [openBracket, tagAfter, Token.beginsTag, hopens]
  · by_cases hcloser : token.isOperator closers = true
    · obtain ⟨bracket, outer, hstate, hmatch⟩ := hfits.closes hcloser
      obtain ⟨hkind, htext⟩ := mem_of_isOperator hcloser
      have hopener : token.isOperator openers = false := by
        simp only [closers, List.mem_cons, List.not_mem_nil, or_false] at htext
        rcases htext with htext | htext | htext <;> simp [Token.isOperator, openers, htext]
      have hback := h (closed + 1)
      rw [hstate] at hback ⊢
      rw [tagAfter_of_operator hkind]
      simpa [openBracket, hopens, bracketsAfter, hopener, hcloser, hmatch] using hback
    · by_cases hopener : token.isOperator openers = true
      · obtain ⟨brackets, hstate⟩ := Option.isSome_iff_exists.mp (hfits.opens hopener)
        obtain ⟨hkind, htext⟩ := mem_of_isOperator hopener
        obtain ⟨bracket, htext⟩ : ∃ bracket, token.text = [bracket] := by
          simp only [openers, List.mem_cons, List.not_mem_nil, or_false] at htext
          rcases htext with htext | htext | htext <;> exact ⟨_, htext⟩
        rw [tagAfter_of_operator hkind]
        cases closed with
        | zero => simp [openBracket, hopens, hcloser, bracketsAfter, hopener, hstate, htext]
        | succ closed =>
            have hback := h closed
            rw [hstate] at hback ⊢
            simpa [openBracket, hopens, hcloser, bracketsAfter, hopener, htext] using hback
      · have hback := h closed
        have hsame : (tagAfter (openInTag tokens) token).getD [] = (openInTag tokens).getD [] := by
          have hends := hfits.ends
          unfold tagAfter
          split
          · rename_i hbegins
            rw [hends (.inr (by simpa [Token.beginsTag, hopens] using hbegins))]
            rfl
          · split
            · rename_i hend
              rw [hends (.inl hend)]
              rfl
            · cases openInTag tokens <;> simp [bracketsAfter, hopener, hcloser]
        rw [hsame, ← hback]
        simp [openBracket, hopens, hcloser, hopener]

/-! ### What the scanner reads -/

def bracketOf (closer : Char) : Char :=
  if closer = ')' then '(' else if closer = ']' then '[' else '{'

theorem ends_of_operator {text : Text} :
    Token.endsTag ⟨.operator, text⟩ ∨ TokenKind.operator = .lineStatementBegin →
      state.getD [] = [] := by
  rintro (hend | hend) <;> cases hend

theorem fits_of_isWord {text : Text} (hword : kind.isWord)
    (hopener : Token.isOperator ⟨kind, text⟩ openers = false)
    (hcloser : Token.isOperator ⟨kind, text⟩ closers = false) (brackets : Text) :
    Fits (some brackets) ⟨kind, text⟩ ∧ tagAfter (some brackets) ⟨kind, text⟩ = some brackets := by
  have hbegins : Token.beginsTag ⟨kind, text⟩ = false := by cases kind <;> first | rfl | cases hword
  have hends : Token.endsTag ⟨kind, text⟩ = false := by cases kind <;> first | rfl | cases hword
  refine ⟨⟨?_, by simp [hopener], by simp [hcloser]⟩, ?_⟩
  · rintro (hend | rfl)
    · simp [hends] at hend
    · cases hword
  · simp [tagAfter, hbegins, hends, bracketsAfter, hopener, hcloser]

theorem fits_of_dueAfterCut {text : Text} (hword : kind.isWord)
    (h : dueAfterCut due (kind, text) = some due') :
    Fits (some (due.map bracketOf)) ⟨kind, text⟩ ∧
      tagAfter (some (due.map bracketOf)) ⟨kind, text⟩ = some (due'.map bracketOf) := by
  rcases dueAfterCut_cases h with ⟨c, closer, hcut, hcloser, rfl⟩ | ⟨c, hcut, hcloses, rfl⟩ |
    ⟨rfl, hplain⟩
  · obtain ⟨rfl, rfl⟩ := Prod.mk.inj hcut
    unfold closer? at hcloser
    split at hcloser <;> cases hcloser <;>
      exact ⟨⟨ends_of_operator, fun _ => rfl, fun hcloser => by cases hcloser⟩, rfl⟩
  · obtain ⟨rfl, rfl⟩ := Prod.mk.inj hcut
    simp only [isCloser, Bool.or_eq_true, beq_iff_eq] at hcloses
    rcases hcloses with (rfl | rfl) | rfl <;>
      exact ⟨⟨ends_of_operator, fun _ => rfl, fun _ => ⟨_, _, rfl, rfl⟩⟩, rfl⟩
  · refine fits_of_isWord hword (Bool.eq_false_iff.mpr fun hopener => ?_)
      (Bool.eq_false_iff.mpr fun hcloser => ?_) _
    · simp only [Token.isOperator, openers, Bool.and_eq_true, beq_iff_eq, List.contains_cons,
        List.contains_nil, Bool.or_false, Bool.or_eq_true] at hopener
      obtain ⟨rfl, rfl | rfl | rfl⟩ := hopener <;> cases (hplain _ rfl).1
    · simp only [Token.isOperator, closers, Bool.and_eq_true, beq_iff_eq, List.contains_cons,
        List.contains_nil, Bool.or_false, Bool.or_eq_true] at hcloser
      obtain ⟨rfl, rfl | rfl | rfl⟩ := hcloser <;> cases (hplain _ rfl).2

def stageBrackets : Stage → Option Text
  | .tag _ due => some (due.map bracketOf)
  | .comment => some []
  | _ => none

def scannedTokens (scan : Scan) : List Token :=
  scan.pieces.reverse.map Token.ofPiece

/-- The brackets are open behind the tokens read so far, and looking back finds them everywhere. -/
structure Shows (state : Option Text) (scan : Scan) : Prop where
  openInTag_eq : openInTag (scannedTokens scan) = state
  agrees : ∀ front, front <+: scannedTokens scan → Agrees front

variable {scan : Scan} {length : Nat}

theorem Shows.push (h : Shows state scan) (hfits : Fits state ⟨kind, scan.rest.take length⟩)
    (hnext : tagAfter state ⟨kind, scan.rest.take length⟩ = next) :
    Shows next (scan.push kind length) := by
  have htokens : scannedTokens (scan.push kind length) =
      scannedTokens scan ++ [⟨kind, scan.rest.take length⟩] := by
    simp [scannedTokens, Scan.push, Token.ofPiece]
  constructor
  · rw [htokens, openInTag_concat, h.openInTag_eq, hnext]
  · rw [htokens]
    intro front hfront
    rcases List.prefix_concat_iff.mp hfront with rfl | hfront
    · refine (h.agrees _ List.prefix_rfl).concat ?_
      rwa [h.openInTag_eq]
    · exact h.agrees front hfront

theorem Shows.pushOther (h : Shows state scan) (hkind : kind ≠ .operator)
    (hstate : kind = .whitespace ∨ state.getD [] = [])
    (hnext : ∀ text, tagAfter state ⟨kind, text⟩ = next) : Shows next (scan.push kind length) := by
  refine h.push ⟨?_, ?_, ?_⟩ (hnext _)
  · rintro hend
    rcases hstate with rfl | hstate
    · rcases hend with hend | hend <;> cases hend
    · exact hstate
  · exact fun hopener => absurd (mem_of_isOperator hopener).1 hkind
  · exact fun hcloser => absurd (mem_of_isOperator hcloser).1 hkind

theorem Shows.pushSome (h : Shows state scan) (hkind : kind ≠ .operator)
    (hstate : state.getD [] = []) (hnext : ∀ text, tagAfter state ⟨kind, text⟩ = state) :
    Shows state (scan.pushSome kind length) := by
  unfold Scan.pushSome
  split
  · exact h
  · exact h.pushOther hkind (.inr hstate) hnext

theorem Shows.readData {env : Environment} {marker : Marker} (h : Shows none scan) :
    Shows none (scan.readData env marker) :=
  (h.pushSome (by simp) rfl fun _ => rfl).pushSome (by simp) rfl fun _ => rfl

theorem shows_of_visits {env : Environment} {text : Text} {stage : Stage}
    (h : Visits env text stage scan) : Shows (stageBrackets stage) scan := by
  induction h with
  | start =>
      refine ⟨rfl, fun front hfront closed => ?_⟩
      obtain rfl : front = [] := List.prefix_nil.mp hfront
      rfl
  | stop _ _ ih => exact ih
  | lead _ _ ih => exact ih.readData
  | last _ _ ih | rawBegin _ _ _ ih | commentBegin _ _ ih =>
      exact ih.pushOther (by simp) (.inr rfl) fun _ => rfl
  | gap _ _ ih => exact ih.pushOther (by simp) (.inl rfl) fun _ => rfl
  | tagBegin tagEnd _ _ ih => cases tagEnd <;> exact ih.pushOther (by decide) (.inr rfl) fun _ => rfl
  | token _ htoken ih =>
      obtain ⟨-, hdue⟩ := (tagToken_eq_ok_iff _ _ _ _ _).mp htoken
      obtain ⟨hfits, hafter⟩ := fits_of_dueAfterCut (isWord_of_tagToken htoken).1 hdue
      exact ih.push hfits hafter
  | @tagEnd _ tagEnd _ _ _ _ ih =>
      cases tagEnd <;> exact ih.pushOther (by decide) (.inr rfl) fun _ => rfl
  | commentEnd _ _ _ ih =>
      exact (ih.pushSome (by simp) rfl fun _ => rfl).pushOther (by simp) (.inr rfl) fun _ => rfl
  | rawEnd _ _ ih => exact ih.readData.pushOther (by simp) (.inr rfl) fun _ => rfl
  | @lineComment scan marker _ _ ih =>
      have hbegin : Shows none (scan.push .lineCommentBegin marker.length) :=
        ih.pushOther (by simp) (.inr rfl) fun _ => rfl
      exact (hbegin.pushSome (by simp) rfl fun _ => rfl).pushOther (by simp) (.inr rfl) fun _ => rfl
  | @tail _ _ _ inRaw _ ih => cases inRaw <;> exact ih.pushSome (by simp) rfl fun _ => rfl

/-! ### Whitespace -/

def withoutSpace (tokens : List Token) : List Token :=
  tokens.filter fun token => token.kind != .whitespace

theorem openBracket_withoutSpace (closed : Nat) (before : List Token) :
    openBracket closed (withoutSpace before) = openBracket closed before := by
  induction before generalizing closed with
  | nil => rfl
  | cons token before ih =>
      by_cases hkind : token.kind = .whitespace
      · have hdropped : withoutSpace (token :: before) = withoutSpace before := by
          simp [withoutSpace, hkind]
        simp [hdropped, ih, openBracket, Token.opensTag, Token.isOperator, hkind]
      · have hkept : withoutSpace (token :: before) = token :: withoutSpace before := by
          simp [withoutSpace, hkind]
        simp only [hkept, openBracket, ih]

theorem openInTag_withoutSpace (tokens : List Token) :
    openInTag (withoutSpace tokens) = openInTag tokens := by
  induction tokens using List.reverseRecOn with
  | nil => rfl
  | append_singleton tokens token ih =>
      rw [openInTag_concat, ← ih]
      by_cases hkind : token.kind = .whitespace
      · have hsame : tagAfter (openInTag (withoutSpace tokens)) token =
            openInTag (withoutSpace tokens) := by
          simp [tagAfter, Token.beginsTag, Token.endsTag, Token.opensTag, Token.closesTag,
            bracketsAfter, Token.isOperator, hkind]
        rw [hsame]
        simp [withoutSpace, hkind]
      · rw [← openInTag_concat]
        simp [withoutSpace, hkind]

/-- Looking back finds the innermost bracket that is open in the tag, at every place of a template
and whatever whitespace there is. -/
theorem context_eq_openInTag (env : Environment) (text : Text) (pieces : List Piece)
    (h : JinjaLayout.scan env text = .ok pieces) (front tokens : List Token)
    (hfront : front <+: pieces.map Token.ofPiece)
    (hsame : withoutSpace tokens = withoutSpace front) :
    context tokens.reverse = (openInTag tokens).bind List.head? := by
  obtain ⟨stop, hstop, -, rfl⟩ := visits_of_scan h
  have hback := (shows_of_visits hstop).agrees front hfront 0
  have hreverse : ∀ tokens, withoutSpace tokens.reverse = (withoutSpace tokens).reverse := by
    intro tokens
    simp [withoutSpace]
  calc context tokens.reverse
      = openBracket 0 (withoutSpace tokens).reverse := by
        rw [← hreverse, openBracket_withoutSpace]
        rfl
    _ = openBracket 0 front.reverse := by
        rw [hsame, ← hreverse, openBracket_withoutSpace]
    _ = ((openInTag tokens).getD [])[0]? := by
        rw [hback, ← openInTag_withoutSpace tokens, hsame, openInTag_withoutSpace]
    _ = (openInTag tokens).bind List.head? := by
        cases openInTag tokens <;> simp [List.head?_eq_getElem?]

/-- The start of a subscript in a call, with a blank moved. -/
theorem context_of_subscript :
    let front : List Token := [⟨.variableBegin, ['{', '{']⟩, .blank, ⟨.name, ['f']⟩, ⟨.operator, ['(']⟩,
      ⟨.name, ['x']⟩, ⟨.operator, ['[']⟩]
    let tokens : List Token := [⟨.variableBegin, ['{', '{']⟩, ⟨.name, ['f']⟩, ⟨.operator, ['(']⟩, .blank,
      ⟨.name, ['x']⟩, ⟨.operator, ['[']⟩]
    (∃ pieces, JinjaLayout.scan .spacingCheck "{{ f(x[1]) }}".toList = .ok pieces ∧
      front <+: pieces.map Token.ofPiece) ∧ withoutSpace tokens = withoutSpace front ∧
      context tokens.reverse = (openInTag tokens).bind List.head? ∧
      openInTag tokens = some ['[', '('] := by
  intro front tokens
  exact ⟨⟨_, rfl, _, rfl⟩, rfl, context_eq_openInTag .spacingCheck "{{ f(x[1]) }}".toList _ rfl front
    tokens ⟨_, rfl⟩ rfl, rfl⟩

end JinjaLayout.Spacing
