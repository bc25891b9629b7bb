import Mathlib
import JinjaLayout.Proofs.GroupWalks
import JinjaLayout.Proofs.StatementSpelling

/-!
The delimiters of tags. Whatever stands in a tag, its brackets match, so that the table pairs the
token that begins the tag with the one that ends it.
-/

namespace JinjaLayout

def TokenKind.startsTag : TokenKind → Bool
  | blockBegin | variableBegin | lineStatementBegin => true
  | _ => false

structure TagPair.IsPaired (table : List Token) (pair : TagPair) : Prop where
  opening_eq : table[pair.opening.index]? = some pair.opening
  closing_eq : table[pair.closing.index]? = some pair.closing
  opening_partner : pair.opening.partner = some pair.closing.index
  closing_partner : pair.closing.partner = some pair.opening.index

namespace Spelling

/-! ### What stands in a tag -/

section Phrases

variable {first second : Phrase} {ts us : List Token}

theorem Then.matched (h : Then first second ts us) (hfirst : ∀ ts us, first ts us → Matched ts)
    (hsecond : ∀ ts us, second ts us → Matched ts) : Matched ts := by
  obtain ⟨ts', ts'', rfl, hts', hts''⟩ := h
  exact (hfirst _ _ hts').append (hsecond _ _ hts'')

theorem Words.matched {words : List Text} (h : Words words ts us) : Matched ts := by
  induction h with
  | nil => exact .nil
  | cons hword _ ih => exact .plain (isPlain_of_isName hword) ih

theorem Symbol.matched {symbol : Text} (h : Symbol symbol ts us)
    (hsymbol : ∀ pair ∈ brackets, symbol ≠ pair.1 ∧ symbol ≠ pair.2) : Matched ts := by
  obtain ⟨token, rfl, htoken⟩ := h
  exact .plain (isPlain_of_isOperator htoken hsymbol) .nil

theorem Nothing.matched (h : Nothing ts us) : Matched ts := by
  rw [show ts = [] from h]
  exact .nil

variable {marked : Prop}

theorem SetTarget.matched {target : Expr} (h : SetTarget marked target ts us) : Matched ts := by
  obtain ⟨_, _, htarget⟩ := h
  exact htarget.matched

theorem BoundSpelled.matched {node : Expr × Expr} (h : BoundSpelled marked node ts us) :
    Matched ts :=
  Then.matched h (fun _ _ => Spells.matched) fun _ _ hrest =>
    Then.matched hrest (fun _ _ hsymbol => hsymbol.matched (by decide)) fun _ _ => Spells.matched

theorem ParameterSpelled.matched {node : Expr × Option Expr} (h : ParameterSpelled marked node ts us) :
    Matched ts := by
  refine Then.matched h (fun _ _ => Spells.matched) fun _ _ hdefault => ?_
  refine hdefault.matched fun value ts us hvalue => ?_
  exact hvalue.matched (fun _ _ _ => Spells.matched) fun _ htoken =>
    isPlain_of_isOperator htoken (by decide)

theorem SignatureSpelled.matched {parameters defaults : List Expr}
    (h : SignatureSpelled marked parameters defaults ts us) : Matched ts := by
  cases h with
  | mk hopening hlisted hclosing =>
      exact (hlisted.matched fun _ _ _ => ParameterSpelled.matched).bracketed
        ("(".toList, ")".toList) (by decide) hopening hclosing

theorem matched_signature {parameters defaults : List Expr}
    (h : SignatureSpelled marked parameters defaults ts us ∨
      parameters = [] ∧ defaults = [] ∧ ts = [] ∧ NotNext (·.isOperator "(") us) : Matched ts := by
  rcases h with h | ⟨-, -, rfl, -⟩
  · exact h.matched
  · exact .nil

theorem matched_loop {place : Place} {target iterable : Expr} {test : Option Expr} {words : List Text}
    (h : Then (Spells marked place target) (Then (Words ["in".toList])
      (Then (Spells marked .value iterable)
        (Then (Possibly (Behind (·.isName "if") (Spells marked .value)) test) (Words words)))) ts us) :
    Matched ts := by
  refine Then.matched h (fun _ _ => Spells.matched) fun _ _ hrest => ?_
  refine Then.matched hrest (fun _ _ => Words.matched) fun _ _ hrest => ?_
  refine Then.matched hrest (fun _ _ => Spells.matched) fun _ _ hrest => ?_
  refine Then.matched hrest (fun _ _ htest => ?_) fun _ _ => Words.matched
  refine htest.matched fun value ts us hvalue => ?_
  exact hvalue.matched (fun _ _ _ => Spells.matched) fun _ => isPlain_of_isName

end Phrases

/-! ### Delimiters -/

def Delimits (opening closing : Token) : Prop :=
  opening.isKind .blockBegin ∧ closing.isKind .blockEnd = true ∨
    opening.isKind .variableBegin ∧ closing.isKind .variableEnd = true

inductive IsTag (table : List Token) : TagPair → List Token → Prop where
  | mk {keyword opening colon closing ts} (hmatched : Matched ts)
      (hdelimits : Delimits opening closing) :
      IsTag table (tagPair table keyword opening colon closing) (opening :: (ts ++ [closing]))

variable {table ts us : List Token} {pair : TagPair}

theorem TagSpelled.isTag {keyword : Text} {inside : Phrase}
    (h : TagSpelled table True keyword inside pair ts us)
    (hinside : ∀ ts us, inside ts us → Matched ts) : IsTag table pair ts := by
  cases h with
  | @mk _ word colons _ inner _ hopening hword hphrase hcolons hclosing hmarked =>
      have hmatched : Matched (word :: (inner ++ colons)) := by
        refine .plain (isPlain_of_isName hword) ((hinside _ _ hphrase).append ?_)
        rcases hcolons with rfl | ⟨colon, rfl, hcolon⟩
        · exact .nil
        · exact .plain (isPlain_of_isOperator hcolon (by decide)) .nil
      rw [hmarked trivial]
      simpa using IsTag.mk hmatched (.inl ⟨hopening, hclosing⟩)

variable {kind : TokenKind}

theorem closing?_of_step {region : Region} {tagEnd : Scan.TagEnd} (hkind : kind.startsTag)
    (h : region.step kind = some (.tag tagEnd)) :
    kind.closing? = some tagEnd.kind := by
  cases region with
  | tag other =>
      revert hkind h
      cases other <;> cases kind <;>
        simp [Region.step, TokenKind.startsTag, TokenKind.isWord, Scan.TagEnd.kind]
  | _ =>
      revert hkind h
      cases kind <;> simp [Region.step, TokenKind.startsTag] <;>
        exact fun h => h ▸ rfl

theorem kind_of_step {tagEnd : Scan.TagEnd} {next : Region}
    (hkind : kind = .blockEnd ∨ kind = .lineStatementEnd ∨ kind = .variableEnd)
    (h : (Region.tag tagEnd).step kind = some next) : tagEnd.kind = kind := by
  rcases hkind with rfl | rfl | rfl
  all_goals
    revert h
    cases tagEnd <;> simp [Region.step, TokenKind.isWord, Scan.TagEnd.kind]

theorem kind_of_delimits {opening closing : Token} (h : Delimits opening closing)
    (hopening : opening.IsFaithful) (hclosing : closing.IsFaithful) :
    opening.kind.startsTag = true ∧
      (closing.kind = .blockEnd ∨ closing.kind = .lineStatementEnd ∨ closing.kind = .variableEnd) := by
  rcases h with ⟨hbegin, hend⟩ | ⟨hbegin, hend⟩
  all_goals
    have hbegin' := lexical_of_isKind hopening hbegin
    have hend' := lexical_of_isKind hclosing hend
    revert hbegin' hend'
    cases opening.kind <;> cases closing.kind <;>
      simp [TokenKind.lexical, TokenKind.startsTag]

theorem Matched.partners_of_delimits {before after : List Token} {opening closing : Token}
    (h : Matched ts) (htable : IsTable table)
    (hsplit : significant table = before ++ opening :: (ts ++ closing :: after))
    (hdelimits : Delimits opening closing) :
    opening.partner = some closing.index ∧ closing.partner = some opening.index := by
  obtain ⟨hfirst, hinner, hlast⟩ := isFaithful_of_split htable hsplit
  obtain ⟨hstarts, hends⟩ := kind_of_delimits hdelimits hfirst hlast
  obtain ⟨hbalanced, hwords⟩ := h.balanced hinner
  have henters : opening.kind.entersTag := by
    revert hstarts
    cases opening.kind <;> simp [TokenKind.startsTag, TokenKind.entersTag]
  -- the region of the tag tells which token ends it
  obtain ⟨_, _, _, region, tagEnd, next, -, -, -, hbegin, hend⟩ :=
    htable.exists_tag_split hsplit henters (by rintro heof; simp [heof] at hends) hwords
  have hclosing : opening.kind.closing? = some closing.kind := by
    rw [closing?_of_step hstarts hbegin, kind_of_step hends hend]
  refine htable.partner_of_balanced hsplit henters ?_ ?_ ?_ ?_ hwords hbalanced
  · simp [Token.opens, TokenKind.isBegin, hclosing]
  · rcases hends with hkind | hkind | hkind <;> simp [Token.opens, TokenKind.isBegin, hkind, TokenKind.closing?]
  · rcases hends with hkind | hkind | hkind <;> simp [Token.closes, TokenKind.isEnd, hkind]
  · rcases hends with hkind | hkind | hkind <;> simp [Token.matchesOpener, hclosing, hkind]

theorem IsTag.isPaired (h : IsTag table pair ts) (htable : IsTable table) {before after : List Token}
    (hsplit : significant table = before ++ (ts ++ after)) : pair.IsPaired table := by
  cases h with
  | @mk _ opening _ closing inner hmatched hdelimits =>
      have hmem : ∀ token ∈ opening :: (inner ++ [closing]), token ∈ table := by
        intro token htoken
        refine IsTable.mem_of_mem_significant ?_
        rw [hsplit]
        exact List.mem_append_right _ (List.mem_append_left _ htoken)
      obtain ⟨hopening, hclosing⟩ := hmatched.partners_of_delimits htable (by simpa using hsplit) hdelimits
      exact ⟨Alignment.getElem?_index htable (hmem opening (by simp)),
        Alignment.getElem?_index htable (hmem closing (by simp)), hopening, hclosing⟩

end Spelling

end JinjaLayout
