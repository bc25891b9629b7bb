import Mathlib
import JinjaLayout.Proofs.OwnTags
import JinjaLayout.Proofs.TagPairs
import JinjaLayout.Proofs.TokenTiling

/-!
Formatting touches only the inside of tags. Main statement: the formatted text is that of the tokens
in their order, with other text between the two delimiters of each tag.
-/

namespace JinjaLayout

open Spelling List

/-- The text keeps the tokens: each is written as it stands in the source, but for those between the
token that begins a tag and its partner. -/
inductive Retagged : List Token → Text → Prop where
  | nil : Retagged [] []
  | kept {token tokens text} (hkind : token.kind.startsTag = false) (h : Retagged tokens text) :
      Retagged (token :: tokens) (token.text ++ text)
  | tag {opening inside closing tokens content text} (hkind : opening.kind.startsTag)
      (hopening : opening.partner = some closing.index)
      (hclosing : closing.partner = some opening.index) (h : Retagged tokens text) :
      Retagged (opening :: (inside ++ closing :: tokens))
        (opening.text ++ (content ++ (closing.text ++ text)))

theorem Retagged.keep {tokens others : List Token} {text : Text}
    (hkinds : ∀ token ∈ tokens, token.kind.startsTag = false) (h : Retagged others text) :
    Retagged (tokens ++ others) (tokens.flatMap Token.text ++ text) := by
  induction tokens with
  | nil => exact h
  | cons token tokens ih =>
      rw [forall_mem_cons] at hkinds
      rw [cons_append, flatMap_cons, append_assoc]
      exact .kept hkinds.1 (ih hkinds.2)

namespace Writing

/-! ### Fragments that keep tokens -/

def Fragment.isSettled : Fragment → Bool
  | fresh _ => false
  | _ => true

/-- The fragments are those of the tokens, with any others between the delimiters of tags. -/
inductive Preserves : List Token → List Fragment → Prop where
  | nil : Preserves [] []
  | kept {tokens others fragments} (hkinds : ∀ token ∈ tokens, token.kind.startsTag = false)
      (h : Preserves others fragments) :
      Preserves (tokens ++ others) (.text (tokens.flatMap Token.text) :: fragments)
  | tag {opening inside closing tokens content fragments} (hkind : opening.kind.startsTag)
      (hopening : opening.partner = some closing.index)
      (hclosing : closing.partner = some opening.index)
      (hcontent : ∀ fragment ∈ content, fragment.isSettled = true) (h : Preserves tokens fragments) :
      Preserves (opening :: (inside ++ closing :: tokens))
        (.text opening.text :: (content ++ .text closing.text :: fragments))

variable {fragments : List Fragment} {page : Page}

theorem Preserves.append {tokens others : List Token} {fragments' : List Fragment}
    (h : Preserves tokens fragments) (h' : Preserves others fragments') :
    Preserves (tokens ++ others) (fragments ++ fragments') := by
  induction h with
  | nil => exact h'
  | kept hkinds _ ih =>
      rw [append_assoc, cons_append]
      exact .kept hkinds ih
  | tag hkind hopening hclosing hcontent _ ih =>
      simpa using Preserves.tag hkind hopening hclosing hcontent ih

def Page.add (page : Page) (text : Text) : Page :=
  { reversed := text.reverse ++ page.reversed }

@[simp]
theorem Page.newlineDue_add (page : Page) (text : Text) : (page.add text).newlineDue = false :=
  rfl

theorem Page.add_add (page : Page) (first second : Text) :
    (page.add first).add second = page.add (first ++ second) := by
  simp [add]

theorem Page.write_eq (h : page.newlineDue = false) (text : Text) :
    page.write text = page.add text := by
  cases text with
  | nil =>
      obtain ⟨reversed, due⟩ := page
      subst h
      rfl
  | cons c text => simp [write, add, h]

theorem Fragment.writeAllOn_append (page : Page) (first second : List Fragment) :
    writeAllOn page (first ++ second) = writeAllOn (writeAllOn page first) second := by
  induction first generalizing page with
  | nil => rfl
  | cons fragment first ih => exact ih (fragment.writeOn page)

theorem Fragment.writeOn_of_isSettled {fragment : Fragment} (h : fragment.isSettled)
    (hpage : page.newlineDue = false) :
    ∃ text, fragment.writeOn page = page.add text := by
  cases fragment with
  | text content => exact ⟨content, by rw [writeOn, Page.write_eq hpage]⟩
  | gap =>
      rw [writeOn, Page.gap]
      split
      · exact ⟨[], Page.write_eq hpage []⟩
      · exact ⟨[], Page.write_eq hpage []⟩
      · exact ⟨[' '], Page.write_eq hpage _⟩
  | fresh parts => simp [isSettled] at h

theorem Fragment.writeAllOn_of_isSettled (h : ∀ fragment ∈ fragments, fragment.isSettled = true)
    (hpage : page.newlineDue = false) : ∃ text, writeAllOn page fragments = page.add text := by
  induction fragments generalizing page with
  | nil => exact ⟨[], Page.write_eq hpage []⟩
  | cons fragment fragments ih =>
      rw [forall_mem_cons] at h
      obtain ⟨first, hfirst⟩ := writeOn_of_isSettled h.1 hpage
      obtain ⟨rest, hrest⟩ := ih h.2 (page.newlineDue_add first)
      exact ⟨first ++ rest, by rw [writeAllOn, hfirst, hrest, Page.add_add]⟩

theorem Preserves.exists_text {tokens : List Token} (h : Preserves tokens fragments)
    (hpage : page.newlineDue = false) :
    ∃ text, Fragment.writeAllOn page fragments = page.add text ∧ Retagged tokens text := by
  induction h generalizing page with
  | nil => exact ⟨[], Page.write_eq hpage [], .nil⟩
  | @kept tokens _ _ hkinds _ ih =>
      obtain ⟨text, hwritten, htext⟩ := ih (page.newlineDue_add (tokens.flatMap Token.text))
      refine ⟨tokens.flatMap Token.text ++ text, ?_, htext.keep hkinds⟩
      rw [Fragment.writeAllOn, Fragment.writeOn, Page.write_eq hpage, hwritten, Page.add_add]
  | @tag opening _ closing _ content _ hkind hopening hclosing hcontent _ ih =>
      obtain ⟨inside, hinside⟩ :=
        Fragment.writeAllOn_of_isSettled hcontent (page.newlineDue_add opening.text)
      obtain ⟨text, hwritten, htext⟩ :=
        ih (((page.add opening.text).add inside).newlineDue_add closing.text)
      refine ⟨opening.text ++ (inside ++ (closing.text ++ text)), ?_, .tag hkind hopening hclosing htext⟩
      rw [Fragment.writeAllOn, Fragment.writeOn, Page.write_eq hpage, Fragment.writeAllOn_append,
        hinside, Fragment.writeAllOn, Fragment.writeOn, Page.write_eq (Page.newlineDue_add _ _),
        hwritten, Page.add_add, Page.add_add, Page.add_add]

end Writing

/-! ### Stretches of the table -/

namespace Spelling

variable {table done ts ts' us : List Token}

/-- The tokens of the table from one index up to another. -/
def tokensFrom (table : List Token) (start stop : Nat) : List Token :=
  (table.take stop).drop start

theorem textFrom_eq (start stop : Nat) :
    textFrom table start stop = (tokensFrom table start stop).flatMap Token.text :=
  rfl

theorem tokensFrom_append {start middle stop : Nat} (hstart : start ≤ middle) (hstop : middle ≤ stop) :
    tokensFrom table start middle ++ tokensFrom table middle stop = tokensFrom table start stop := by
  have hlength : stop - start = (middle - start) + (stop - middle) := by omega
  have hmiddle : start + (middle - start) = middle := by omega
  rw [tokensFrom, tokensFrom, tokensFrom, drop_take, drop_take, drop_take, hlength,
    take_add, drop_drop, hmiddle]

theorem tokensFrom_self (start : Nat) : tokensFrom table start start = [] := by
  simp [tokensFrom]

/-- The tokens that are read, with what is skipped before them and taken away behind them. -/
def stretch (table done ts : List Token) : List Token :=
  tokensFrom table (behind table done) (behind table (done ++ ts))

theorem stretch_nil : stretch table done [] = [] := by
  rw [stretch, append_nil, tokensFrom_self]

section Table

variable (htable : IsTable table)

include htable

variable {token : Token}

theorem tokensFrom_index (htoken : token ∈ table) :
    tokensFrom table token.index (token.index + 1) = [token] := by
  obtain ⟨i, hi, rfl⟩ := getElem_of_mem htoken
  rw [htable.index_eq i hi, tokensFrom, drop_take, Nat.add_sub_cancel_left,
    drop_eq_getElem_cons hi, take_succ_cons, take_zero]

theorem index_of_mem_tokensFrom {start stop : Nat} (htoken : token ∈ tokensFrom table start stop) :
    token ∈ table ∧ start ≤ token.index ∧ token.index < stop := by
  obtain ⟨i, hi, rfl⟩ := getElem_of_mem htoken
  simp only [tokensFrom, length_drop, length_take] at hi
  simp only [tokensFrom, getElem_drop, getElem_take]
  rw [htable.index_eq _ (by omega)]
  exact ⟨getElem_mem _, by omega, by omega⟩

theorem behind_eq_enter (hsplit : significant table = done ++ token :: us) :
    behind table done = enter table token := by
  rw [enter, Alignment.significant_take_index htable hsplit]

theorem behind_le (hsplit : significant table = done ++ (ts ++ us)) :
    behind table done ≤ behind table (done ++ ts) := by
  cases ts with
  | nil => rw [append_nil]
  | cons first ts =>
      have hne : first :: ts ≠ [] := cons_ne_nil first ts
      have hrising : Rising (wide table) (first :: ts) :=
        (rising_wide htable).sublist (by simp [hsplit])
      rw [behind_eq_enter htable hsplit, Alignment.behind_append hne]
      exact (within_extentOf hrising hne).1

theorem stretch_append (hsplit : significant table = done ++ (ts ++ (ts' ++ us))) :
    stretch table done (ts ++ ts') = stretch table done ts ++ stretch table (done ++ ts) ts' := by
  have hfirst := behind_le htable hsplit
  have hsecond := behind_le htable (by simpa using hsplit : significant table = (done ++ ts) ++ (ts' ++ us))
  rw [stretch, stretch, stretch, tokensFrom_append hfirst hsecond, append_assoc]

theorem stretch_tag {opening closing : Token}
    (hsplit : significant table = done ++ (opening :: (ts ++ [closing]) ++ us)) :
    stretch table done (opening :: (ts ++ [closing])) =
      tokensFrom table (enter table opening) opening.index ++
        opening :: (tokensFrom table (opening.index + 1) closing.index ++
          closing :: (tokensFrom table (closing.index + 1) (leave table closing) ++ [])) := by
  have hopening : opening ∈ significant table := by simp [hsplit]
  have hclosing : closing ∈ significant table := by simp [hsplit]
  have hlt : opening.index < closing.index := by
    have hall := htable.pairwise_significant
    rw [hsplit] at hall
    exact (pairwise_cons.mp (pairwise_append.mp hall).2.1).1 closing (by simp)
  have henter := enter_le_index htable hopening
  have hleave : closing.index + 1 ≤ leave table closing := by
    unfold leave
    split <;> omega
  have hend : behind table (done ++ opening :: (ts ++ [closing])) = leave table closing := by
    rw [behind, ← cons_append, ← append_assoc, getLast?_concat]
    rfl
  rw [stretch, hend, behind_eq_enter htable hsplit, ← tokensFrom_append henter (by omega),
    ← tokensFrom_append (Nat.le_succ opening.index) (by omega : opening.index + 1 ≤ leave table closing),
    ← tokensFrom_append hlt (by omega : closing.index ≤ leave table closing),
    ← tokensFrom_append (Nat.le_succ closing.index) hleave,
    tokensFrom_index htable (IsTable.mem_of_mem_significant hopening),
    tokensFrom_index htable (IsTable.mem_of_mem_significant hclosing)]
  simp

theorem startsTag_of_skipped {start stop : Nat}
    (hskipped : ∀ token ∈ significant table, start ≤ token.index → stop ≤ token.index) :
    ∀ token ∈ tokensFrom table start stop, token.kind.startsTag = false := by
  intro token htoken
  obtain ⟨hmem, hstart, hstop⟩ := index_of_mem_tokensFrom htable htoken
  by_contra hstarts
  have hread : token.kind.isRead := by
    revert hstarts
    cases token.kind <;> simp [TokenKind.startsTag, TokenKind.isRead]
  have hsignificant : token ∈ significant table :=
    mem_filter.mpr ⟨hmem, (htable.faithful token hmem).significant_iff.mpr hread⟩
  have hover := hskipped token hsignificant hstart
  omega

theorem startsTag_before (htoken : token ∈ significant table) :
    ∀ other ∈ tokensFrom table (enter table token) token.index, other.kind.startsTag = false := by
  refine startsTag_of_skipped htable fun other hother hstart => ?_
  by_contra hlt
  have hleave := leave_le_enter htable hother htoken (by omega)
  have hless : other.index < leave table other := by
    unfold leave
    split <;> omega
  omega

end Table

theorem Spells.isData_eq_false {marked : Prop} {place : Place} {expr : Expr}
    (h : Spells marked place expr ts us) : expr.isData = false := by
  cases h.unfold with
  | group hcore _ _ _ => cases hcore <;> rfl
  | inline _ _ _ => rfl

end Spelling

namespace Writing

/-! ### Statements -/

section Statements

variable {table ts ts' us : List Token} {fragments fragments' content : List Fragment}
  {env : Environment} {write : Writers}

/-- The fragments keep what belongs to the tokens, wherever these stand in the table. -/
def Keeping (table : List Token) (fragments : List Fragment) : Phrase :=
  fun ts us => ∀ done, significant table = done ++ (ts ++ us) →
    Preserves (stretch table done ts) fragments

/-- Whatever is written for the statement keeps what belongs to its tokens. -/
def StmtKeeping (table : List Token) (write : Writers) : Spelling Stmt :=
  fun stmt ts us => ∀ fragments, write.stmt stmt = some fragments → Keeping table fragments ts us

theorem Keeping.nil : Keeping table [] [] us := by
  intro done _
  rw [stretch_nil]
  exact .nil

theorem settled_text (text : Text) :
    ∀ fragment ∈ [Fragment.text text], fragment.isSettled := by
  simp [Fragment.isSettled]

theorem settled_keywordAnd (keyword text : Text) :
    ∀ fragment ∈ keywordAnd keyword text, fragment.isSettled := by
  simp [keywordAnd, Fragment.isSettled]

variable (htable : IsTable table)

include htable

theorem Keeping.append (h : Keeping table fragments ts (ts' ++ us))
    (h' : Keeping table fragments' ts' us) : Keeping table (fragments ++ fragments') (ts ++ ts') us := by
  intro done hsplit
  rw [append_assoc] at hsplit
  rw [stretch_append htable hsplit]
  exact (h done hsplit).append (h' (done ++ ts) (by simpa using hsplit))

theorem keeping_tag {pair : TagPair} (h : IsTag table pair ts)
    (hcontent : ∀ fragment ∈ content, fragment.isSettled = true) (sort : TagSort) :
    Keeping table (tagStart env sort (some pair) ++ content ++ tagEnd env sort (some pair)) ts us := by
  intro done hsplit
  cases h with
  | @mk keyword opening colon closing inner hmatched hdelimits =>
      have hopening : opening ∈ significant table := by simp [hsplit]
      have hclosing : closing ∈ significant table := by simp [hsplit]
      obtain ⟨hpartner, hpartner'⟩ :=
        hmatched.partners_of_delimits htable (by simpa using hsplit) hdelimits
      have hstarts := (kind_of_delimits hdelimits
        (htable.faithful _ (IsTable.mem_of_mem_significant hopening))
        (htable.faithful _ (IsTable.mem_of_mem_significant hclosing))).1
      rw [stretch_tag htable hsplit]
      have hskipped := startsTag_before htable hopening
      have htaken : ∀ token ∈ tokensFrom table (closing.index + 1) (leave table closing),
          token.kind.startsTag = false :=
        startsTag_of_skipped htable fun token htoken hstart => leave_le_index htable htoken hstart
      have hframe : ∀ last : List Fragment, (∀ fragment ∈ last, fragment.isSettled = true) →
          Preserves (tokensFrom table (enter table opening) opening.index ++
              opening :: (tokensFrom table (opening.index + 1) closing.index ++
                closing :: (tokensFrom table (closing.index + 1) (leave table closing) ++ [])))
            (Fragment.text (textFrom table (enter table opening) opening.index) ::
              Fragment.text opening.text :: ((Fragment.gap :: content ++ last) ++
                [Fragment.text closing.text,
                  Fragment.text (textFrom table (closing.index + 1) (leave table closing))])) := by
        intro last hlast
        have hsettled : ∀ fragment ∈ Fragment.gap :: content ++ last, fragment.isSettled := by
          rw [cons_append, forall_mem_cons, forall_mem_append]
          exact ⟨rfl, hcontent, hlast⟩
        have hlater := Preserves.kept htaken .nil
        have hinner := @Preserves.tag _ (tokensFrom table (opening.index + 1) closing.index) _ _ _ _
          hstarts hpartner hpartner' hsettled hlater
        have hall := Preserves.kept hskipped hinner
        rw [textFrom_eq, textFrom_eq]
        exact hall
      unfold tagStart tagEnd
      dsimp only [tagPair]
      split
      · simpa using hframe [.text (if colon then ":" else [])] (by simp [Fragment.isSettled])
      · simpa using hframe [.text (if colon then ":" else []), .gap] (by simp [Fragment.isSettled])

theorem keeping_body {stmts : List Stmt} (h : Chained (StmtKeeping table write) stmts ts us)
    (hwritten : write.body stmts = some fragments) : Keeping table fragments ts us := by
  simp only [Writers.body, Option.bind_eq_bind, Option.bind_eq_some_iff, Option.pure_def,
    Option.some.injEq] at hwritten
  obtain ⟨parts, hparts, rfl⟩ := hwritten
  induction h generalizing parts with
  | nil =>
      obtain rfl : [] = parts := by simpa using hparts
      exact .nil
  | cons hstmt _ ih =>
      simp only [mapM_cons, Option.bind_eq_bind, Option.bind_eq_some_iff, Option.pure_def,
        Option.some.injEq] at hparts
      obtain ⟨first, hfirst, rest, hrest, rfl⟩ := hparts
      rw [flatten_cons]
      exact (hstmt first hfirst).append htable (ih rest hrest)

section Tags

variable {keyword : Text} {inside last : Phrase} {pair : TagPair} {stmts : List Stmt}
  {pairs : List TagPair}

theorem keeping_blockTag (h : TagSpelled table True keyword inside pair ts us)
    (hinside : ∀ ts us, inside ts us → Matched ts)
    (hcontent : ∀ fragment ∈ content, fragment.isSettled = true) :
    Keeping table (blockTag env (some pair) content) ts us :=
  keeping_tag htable (h.isTag hinside) hcontent .block

theorem keeping_keywordTag (h : TagSpelled table True keyword inside pair ts us)
    (hinside : ∀ ts us, inside ts us → Matched ts) (word : Text) :
    Keeping table (keywordTag env (some pair) word) ts us :=
  keeping_blockTag htable h hinside (settled_text _)

theorem keeping_enclosed {stop stopText : Text} {layout : Layout}
    (h : EnclosedSpelled table True (StmtKeeping table write) keyword stop inside last stmts pairs ts us)
    (hpairs : layout.pairs = pairs) (hinside : ∀ ts us, inside ts us → Matched ts)
    (hlast : ∀ ts us, last ts us → Matched ts)
    (hcontent : ∀ fragment ∈ content, fragment.isSettled = true)
    (hwritten : enclosed env write layout content stmts stopText = some fragments) :
    Keeping table fragments ts us := by
  cases h with
  | mk hfirst hstmts hsecond =>
      simp only [enclosed, hpairs, getElem?_cons_zero, getElem?_cons_succ,
        Option.bind_eq_bind, Option.bind_eq_some_iff, Option.pure_def, Option.some.injEq] at hwritten
      obtain ⟨body, hbody, rfl⟩ := hwritten
      rw [← append_assoc]
      exact ((keeping_blockTag htable hfirst hinside hcontent).append htable
        (keeping_body htable hstmts hbody)).append htable (keeping_keywordTag htable hsecond hlast _)

theorem keeping_otherwise {all : List TagPair}
    (h : ElseSpelled table True (StmtKeeping table write) stmts pairs ts us)
    (hpair : pairOf all "else" = pairs.head?)
    (hwritten : otherwise env write all stmts = some fragments) : Keeping table fragments ts us := by
  unfold otherwise at hwritten
  rw [hpair] at hwritten
  cases h with
  | none =>
      obtain rfl : [] = fragments := by simpa using hwritten
      exact .nil
  | some htag hstmts =>
      simp only [head?_cons, Option.isSome_some, Bool.true_or, if_true, Option.bind_eq_bind,
        Option.bind_eq_some_iff, Option.pure_def, Option.some.injEq] at hwritten
      obtain ⟨body, hbody, rfl⟩ := hwritten
      exact (keeping_keywordTag htable htag (fun _ _ => Nothing.matched) _).append htable
        (keeping_body htable hstmts hbody)

theorem keeping_guarded {test : Expr} (h : TagSpelled table True keyword inside pair ts (ts' ++ us))
    (hinside : ∀ ts us, inside ts us → Matched ts)
    (hstmts : Chained (StmtKeeping table write) stmts ts' us) {word : Text}
    (hwritten : guarded env write (some pair) word test stmts = some fragments) :
    Keeping table fragments (ts ++ ts') us := by
  simp only [guarded, Option.bind_eq_bind, Option.bind_eq_some_iff, Option.pure_def,
    Option.some.injEq] at hwritten
  obtain ⟨text, -, body, hbody, rfl⟩ := hwritten
  exact (keeping_blockTag htable h hinside (settled_keywordAnd _ _)).append htable
    (keeping_body htable hstmts hbody)

theorem keeping_further {branches : List (Branch × TagPair)}
    (h : Chained (BranchSpelled table True (StmtKeeping table write)) branches ts us)
    {parts : List (List Fragment)}
    (hwritten : ((branches.map Prod.fst).mapM fun other =>
      guarded env write other.layout.pairs[0]? "elif" other.test other.body) = some parts) :
    Keeping table parts.flatten ts us := by
  induction h generalizing parts with
  | nil =>
      obtain rfl : [] = parts := by simpa using hwritten
      exact .nil
  | cons hbranch _ ih =>
      simp only [map_cons, mapM_cons, Option.bind_eq_bind, Option.bind_eq_some_iff,
        Option.pure_def, Option.some.injEq] at hwritten
      obtain ⟨first, hfirst, rest, hrest, rfl⟩ := hwritten
      cases hbranch with
      | mk htag hstmts hsealed =>
          simp only [Branch.layout, (hsealed trivial).2, getElem?_cons_zero] at hfirst
          rw [flatten_cons]
          exact (keeping_guarded htable htag (fun _ _ => Spells.matched) hstmts hfirst).append htable
            (ih hrest)

end Tags

theorem keeping_data {text : Text} {layout : Layout}
    (h : NodeSpelled table True (.data text layout, none) ts us) :
    Keeping table (dataFragments env text layout) ts us := by
  intro done hsplit
  cases h with
  | @data _ _ token _ htoken htext hmarked =>
      have hmem : token ∈ significant table := by simp [hsplit]
      have htable' := IsTable.mem_of_mem_significant hmem
      have hfaithful := htable.faithful token htable'
      have hkind : token.kind = .data := by
        have hlexical := lexical_of_isKind hfaithful htoken
        revert hlexical
        cases token.kind <;> simp [TokenKind.lexical]
      obtain ⟨lexeme, hlexeme, rfl⟩ := Option.map_eq_some_iff.mp htext
      have hleave : leave table token = token.index + 1 := by
        refine if_neg ?_
        simp [closesTag, Grammar.isKind_of_lexeme hlexeme, hfaithful.kind_eq lexeme hlexeme, hkind,
          TokenKind.lexical]
      have hstretch : stretch table done [token] =
          tokensFrom table (enter table token) token.index ++ ([token] ++ []) := by
        rw [stretch, behind_eq_enter htable hsplit, behind, getLast?_concat, Option.map_some,
          Option.getD_some, hleave,
          ← tokensFrom_append (enter_le_index htable hmem) (Nat.le_succ token.index),
          tokensFrom_index htable htable', append_nil]
      have hplain : needsRaw env lexeme.value layout = false := by
        simp [needsRaw, Layout.isAnnotated, (hmarked trivial).2]
      rw [dataFragments, hplain, (hmarked trivial).1, hstretch, hfaithful.data_eq lexeme hlexeme hkind]
      refine .kept (startsTag_before htable hmem) ?_
      have hlast : Preserves ([token] ++ []) [.text ([token].flatMap Token.text)] :=
        .kept (by simp [hkind, TokenKind.startsTag]) .nil
      simpa using hlast

theorem keeping_variable {pair : TagPair} (h : IsTag table pair ts) (text : Text) :
    Keeping table (tagStart env .variable (some pair) ++ .text text :: tagEnd env .variable (some pair))
      ts us := by
  rw [← singleton_append, ← append_assoc]
  exact keeping_tag htable h (settled_text text) .variable

theorem keeping_outputFragments {parts : List (Expr × Option TagPair)} {pairs : List TagPair}
    {count index : Nat} (h : Chained (NodeSpelled table True) parts ts us)
    (hfound : ∀ expr pair, (expr, some pair) ∈ parts →
      ∀ index, outputPair pairs count index expr = some pair)
    (hwritten : outputFragments env write pairs count index (parts.map Prod.fst) = some fragments) :
    Keeping table fragments ts us := by
  induction h generalizing index fragments with
  | nil =>
      obtain rfl : [] = fragments := by simpa [outputFragments] using hwritten
      exact .nil
  | @cons part _ _ _ _ hnode _ ih =>
      have hrest := fun expr pair hmem => hfound expr pair (mem_cons_of_mem _ hmem)
      obtain ⟨expr, pair⟩ := part
      cases hnode with
      | data htoken htext hmarked =>
          simp only [map_cons, outputFragments, Option.bind_eq_bind, Option.bind_eq_some_iff,
            Option.pure_def, Option.some.injEq] at hwritten
          obtain ⟨others, hothers, rfl⟩ := hwritten
          exact (keeping_data htable (.data htoken htext hmarked)).append htable (ih hrest hothers)
      | @expr _ pair opening closing inner _ hopening hexpr hclosing hmarked =>
          have hpair := hfound expr pair mem_cons_self
          have htag : IsTag table pair (opening :: (inner ++ [closing])) := by
            rw [hmarked trivial]
            exact .mk hexpr.matched (.inr ⟨hopening, hclosing⟩)
          have hdata := hexpr.isData_eq_false
          cases expr with
          | data => simp [Expr.isData] at hdata
          | _ =>
              simp only [map_cons, outputFragments, hpair, Option.bind_eq_bind,
                Option.bind_eq_some_iff, Option.pure_def, Option.some.injEq] at hwritten
              obtain ⟨text, -, others, hothers, rfl⟩ := hwritten
              exact (keeping_variable htable htag text).append htable (ih hrest hothers)

/-- A statement that is written with its own pairs keeps what belongs to its tokens, if the
statements of its bodies do. -/
theorem keeping_statementContent {stmt : Stmt}
    (h : StmtLayer table True (StmtKeeping table write) stmt ts us)
    (hincreasing : Alignment.Increasing ts)
    (hwritten : statementContent env write stmt = some fragments) : Keeping table fragments ts us := by
  cases h with
  | output _ hparts hsealed =>
      rw [statementContent, (hsealed trivial).2] at hwritten
      exact keeping_outputFragments htable hparts
        (fun _ _ hmem => outputPair_of_mem hparts hincreasing hmem _) hwritten
  | print htag hsealed =>
      simp only [statementContent, (hsealed trivial).2, getElem?_cons_zero, Option.bind_eq_bind,
        Option.bind_eq_some_iff, Option.pure_def, Option.some.injEq] at hwritten
      obtain ⟨texts, -, rfl⟩ := hwritten
      exact keeping_blockTag htable htag (fun _ _ hnodes => hnodes.matched fun _ _ _ => Spells.matched)
        (settled_keywordAnd _ _)
  | extend htag hsealed | perform htag hsealed =>
      simp only [statementContent, (hsealed trivial).2, getElem?_cons_zero, Option.bind_eq_bind,
        Option.bind_eq_some_iff, Option.pure_def, Option.some.injEq] at hwritten
      obtain ⟨text, -, rfl⟩ := hwritten
      exact keeping_blockTag htable htag (fun _ _ => Spells.matched) (settled_keywordAnd _ _)
  | block henclosed hsealed =>
      cases henclosed with
      | mk hfirst hstmts hsecond =>
          simp only [statementContent, (hsealed trivial).2, getElem?_cons_zero,
            getElem?_cons_succ, Option.bind_eq_bind, Option.bind_eq_some_iff, Option.pure_def,
            Option.some.injEq] at hwritten
          obtain ⟨body, hbody, rfl⟩ := hwritten
          rw [← append_assoc]
          exact ((keeping_blockTag htable hfirst (fun _ _ => Words.matched)
            (settled_text _)).append htable (keeping_body htable hstmts hbody)).append
              htable (keeping_keywordTag htable hsecond (fun _ _ => Words.matched) _)
  | insert htag hsealed | importAs htag hsealed =>
      simp only [statementContent, (hsealed trivial).2, getElem?_cons_zero, Option.bind_eq_bind,
        Option.bind_eq_some_iff, Option.pure_def, Option.some.injEq] at hwritten
      obtain ⟨text, -, rfl⟩ := hwritten
      exact keeping_blockTag htable htag (fun _ _ hphrase =>
        hphrase.matched (fun _ _ => Spells.matched) fun _ _ => Words.matched) (settled_keywordAnd _ _)
  | importNames htag hsealed =>
      simp only [statementContent, (hsealed trivial).2, getElem?_cons_zero, Option.bind_eq_bind,
        Option.bind_eq_some_iff, Option.pure_def, Option.some.injEq] at hwritten
      obtain ⟨text, -, rfl⟩ := hwritten
      refine keeping_blockTag htable htag (fun _ _ hphrase => ?_) (settled_keywordAnd _ _)
      refine hphrase.matched (fun _ _ => Spells.matched) fun _ _ hrest => ?_
      refine Then.matched hrest (fun _ _ => Words.matched) fun _ _ hrest => ?_
      exact Then.matched hrest (fun _ _ hnames => hnames.matched fun _ _ _ => Words.matched)
        fun _ _ => Words.matched
  | loop hfirst hstmts hothers hlast hsealed =>
      obtain ⟨hfor, hpair, hendfor⟩ := pairOf_of_keywords (by decide) hfirst.keyword_eq
        (forall_mem_nil _) hothers.keyword_eq hlast.keyword_eq
      rw [singleton_append] at hfor hpair hendfor
      simp only [statementContent, (hsealed trivial).2, hfor, hendfor, Option.bind_eq_bind,
        Option.bind_eq_some_iff, Option.pure_def, Option.some.injEq] at hwritten
      obtain ⟨target, -, iterable, -, test, -, body, hbody, orElse, horElse, rfl⟩ := hwritten
      simp only [← append_assoc]
      exact (((keeping_blockTag htable hfirst (fun _ _ => matched_loop) (settled_keywordAnd _ _)).append
        htable (keeping_body htable hstmts hbody)).append htable
          (keeping_otherwise htable hothers hpair horElse)).append htable
            (keeping_keywordTag htable hlast (fun _ _ => Nothing.matched) _)
  | branch hfirst hstmts hbranches hothers hlast hsealed =>
      obtain ⟨hif, hpair, hendif⟩ := pairOf_of_keywords (by decide) hfirst.keyword_eq
        (BranchSpelled.keyword_eq hbranches) hothers.keyword_eq hlast.keyword_eq
      simp only [statementContent, branchFragments, (hsealed trivial).2, hif, hendif,
        Option.bind_eq_bind, Option.bind_eq_some_iff, Option.pure_def, Option.some.injEq] at hwritten
      obtain ⟨first, hguarded, others, hfurther, orElse, horElse, rfl⟩ := hwritten
      have hguard := keeping_guarded htable hfirst (fun _ _ => Spells.matched) hstmts hguarded
      simp only [← append_assoc]
      exact ((hguard.append htable (keeping_further htable hbranches hfurther)).append htable
        (keeping_otherwise htable hothers hpair horElse)).append htable
          (keeping_keywordTag htable hlast (fun _ _ => Nothing.matched) _)
  | bind henclosed hsealed =>
      simp only [statementContent, Option.bind_eq_bind, Option.bind_eq_some_iff] at hwritten
      obtain ⟨texts, -, hwritten⟩ := hwritten
      exact keeping_enclosed htable henclosed (hsealed trivial).2
        (fun _ _ hbindings => hbindings.matched fun _ _ _ => BoundSpelled.matched)
        (fun _ _ => Nothing.matched) (settled_keywordAnd _ _) hwritten
  | assign htag hsealed =>
      simp only [statementContent, (hsealed trivial).2, getElem?_cons_zero, Option.bind_eq_bind,
        Option.bind_eq_some_iff, Option.pure_def, Option.some.injEq] at hwritten
      obtain ⟨target, -, value, -, rfl⟩ := hwritten
      refine keeping_blockTag htable htag (fun _ _ hphrase => ?_) (settled_keywordAnd _ _)
      refine hphrase.matched (fun _ _ => SetTarget.matched) fun _ _ hrest => ?_
      exact Then.matched hrest (fun _ _ hsymbol => hsymbol.matched (by decide)) fun _ _ => Spells.matched
  | @capture _ filter _ _ _ _ _ henclosed hsealed =>
      simp only [statementContent, Option.bind_eq_bind, Option.bind_eq_some_iff] at hwritten
      obtain ⟨target, -, hwritten⟩ := hwritten
      obtain ⟨text, hwritten⟩ : ∃ text, enclosed env write _ (keywordAnd "set" (target ++ text)) _
          "endset" = some fragments := by
        cases filter with
        | none => exact ⟨[], hwritten⟩
        | some filter =>
            obtain ⟨text, -, hwritten⟩ := Option.bind_eq_some_iff.mp hwritten
            exact ⟨_, hwritten⟩
      refine keeping_enclosed htable henclosed (hsealed trivial).2 (fun _ _ hphrase => ?_)
        (fun _ _ => Nothing.matched) (settled_keywordAnd _ _) hwritten
      exact hphrase.matched (fun _ _ => SetTarget.matched) fun _ _ hfilter =>
        hfilter.matched fun _ _ _ => Spells.matched
  | filterBlock henclosed hsealed =>
      simp only [statementContent, Option.bind_eq_bind, Option.bind_eq_some_iff] at hwritten
      obtain ⟨text, -, hwritten⟩ := hwritten
      exact keeping_enclosed htable henclosed (hsealed trivial).2 (fun _ _ => Spells.matched)
        (fun _ _ => Nothing.matched) (settled_keywordAnd _ _) hwritten
  | macroBlock henclosed hsealed =>
      simp only [statementContent, Option.bind_eq_bind, Option.bind_eq_some_iff] at hwritten
      obtain ⟨signature, -, hwritten⟩ := hwritten
      refine keeping_enclosed htable henclosed (hsealed trivial).2 (fun _ _ hphrase => ?_)
        (fun _ _ => Nothing.matched) (settled_text _) hwritten
      exact hphrase.matched (fun _ _ => Words.matched) fun _ _ => SignatureSpelled.matched
  | @callBlock _ parameters _ _ _ _ _ _ _ henclosed hsealed =>
      obtain ⟨text, hwritten⟩ : ∃ text, enclosed env write _ [.text text] _ "endcall" = some fragments := by
        simp only [statementContent, Option.bind_eq_bind] at hwritten
        split at hwritten
        all_goals
          obtain ⟨signature, -, hwritten⟩ := Option.bind_eq_some_iff.mp hwritten
          obtain ⟨call, -, hwritten⟩ := Option.bind_eq_some_iff.mp hwritten
          exact ⟨_, hwritten⟩
      refine keeping_enclosed htable henclosed (hsealed trivial).2 (fun _ _ hphrase => ?_)
        (fun _ _ => Nothing.matched) (settled_text _) hwritten
      exact hphrase.matched (fun _ _ => matched_signature) fun _ _ => Spells.matched
  | skip htag hsealed | leave htag hsealed =>
      simp only [statementContent, (hsealed trivial).2, getElem?_cons_zero,
        Option.some.injEq] at hwritten
      rw [← hwritten]
      exact keeping_keywordTag htable htag (fun _ _ => Nothing.matched) _
  | scope hinner _ =>
      have hbody : Chained (StmtKeeping table write) [_] (ts ++ []) us :=
        .cons (by simpa using hinner) .nil
      rw [append_nil] at hbody
      exact keeping_body htable hbody hwritten
  | autoescape henclosed _ hsealed =>
      simp only [statementContent, Option.bind_eq_bind, Option.bind_eq_some_iff] at hwritten
      obtain ⟨texts, -, hwritten⟩ := hwritten
      exact keeping_enclosed htable henclosed (hsealed trivial).2 (fun _ _ => Spells.matched)
        (fun _ _ => Nothing.matched) (settled_keywordAnd _ _) hwritten

omit htable in
theorem isFresh_eq_false {spelled : Spelling Stmt} {stmt : Stmt}
    (h : StmtLayer table True spelled stmt ts us) : isFresh stmt = false := by
  cases h with
  | output | scope => rfl
  | print _ hsealed | extend _ hsealed | block _ hsealed | insert _ hsealed | importAs _ hsealed
  | importNames _ hsealed | bind _ hsealed | perform _ hsealed | assign _ hsealed
  | capture _ hsealed | filterBlock _ hsealed | macroBlock _ hsealed | callBlock _ _ hsealed
  | skip _ hsealed | leave _ hsealed | autoescape _ _ hsealed | loop _ _ _ _ hsealed
  | branch _ _ _ _ _ hsealed =>
      simp [isFresh, Stmt.layout, Branch.layout, Layout.isAnnotated, (hsealed trivial).1]

theorem keeping_statement {stmt : Stmt} {levels : Nat} (h : StmtSpells table True stmt ts us)
    (hwritten : statement env levels stmt = some fragments) : Keeping table fragments ts us := by
  induction levels generalizing stmt ts us fragments with
  | zero => simp [statement] at hwritten
  | succ levels ih =>
      intro done hsplit
      have hincreasing : Alignment.Increasing ts := by
        have hall := htable.pairwise_significant
        rw [hsplit] at hall
        exact (pairwise_append.mp (pairwise_append.mp hall).2.1).1
      have hlayer : StmtLayer table True
          (StmtKeeping table ⟨expression levels, statement env levels⟩) stmt ts us :=
        h.unfold.mono fun _ _ _ hinner _ hinner' => ih hinner hinner'
      simp only [statement, isFresh_eq_false h.unfold, Option.bind_eq_bind, Option.bind_eq_some_iff,
        Option.pure_def, Option.some.injEq, Bool.false_eq_true, if_false] at hwritten
      obtain ⟨parts, hparts, rfl⟩ := hwritten
      exact keeping_statementContent htable hlayer hincreasing hparts done hsplit

theorem preserves_fragments {template : Template} {last initial : Token} {tokens : List Token}
    (h : TemplateSpells table True template ts last) (hinitial : table = initial :: tokens)
    (htext : initial.text = []) (hwritten : Writing.fragments env template = some fragments) :
    Preserves table (.text [] :: fragments) := by
  obtain ⟨parts, hparts, hfragments⟩ := Option.bind_eq_some_iff.mp hwritten
  obtain rfl := Option.some.inj hfragments
  have hbody : Writers.body ⟨expression nestingLimit, statement env nestingLimit⟩ template.body =
      some parts.flatten := by
    rw [Writers.body, hparts]
    rfl
  have hstmts : Preserves (stretch table [] ts) parts.flatten :=
    keeping_body htable (h.body.mono fun _ _ _ hstmt _ => keeping_statement htable hstmt) hbody []
      h.split
  -- the table is the initial token, the statements, and what follows them up to the end
  have hlast : last ∈ significant table := by simp [h.split]
  have hbehind : behind table ts = enter table last := behind_eq_enter htable h.split
  have hlength := htable.index_last h.split
  have henter := enter_le_index htable hlast
  have hstart : behind table [] ≤ behind table ts := behind_le htable h.split
  have hfirst : behind table [] = 1 := rfl
  have hends : tokensFrom table (enter table last) last.index ++ [last] =
      tokensFrom table (enter table last) table.length := by
    rw [← tokensFrom_index htable (IsTable.mem_of_mem_significant hlast),
      tokensFrom_append henter (Nat.le_add_right last.index 1), hlength]
  have hsplit : table = [initial] ++ (stretch table [] ts ++
      (tokensFrom table (enter table last) last.index ++ [last] ++ [])) := by
    rw [append_nil, hends, stretch, nil_append, hbehind, hfirst,
      tokensFrom_append (by omega) (by omega), hinitial]
    simp [tokensFrom]
  obtain ⟨initial', _, last', htokens, hkind, -⟩ := htable.exists_middle
  obtain rfl : initial = initial' := (cons.inj (hinitial.symm.trans htokens)).1
  have hlastKind : last.kind.startsTag = false := by
    obtain ⟨_, middle, _, _, _, hall, heof, -⟩ := htable.exists_significant
    obtain ⟨-, hsame⟩ := append_inj' (h.split.symm.trans hall) rfl
    rw [(cons.inj hsame).1, heof]
    rfl
  have htrailing : template.layout.trailing =
      (tokensFrom table (enter table last) last.index ++ [last]).flatMap Token.text := by
    rw [(h.layout trivial).2.2, hbehind, textFrom_eq, flatMap_append, flatMap_singleton]
  have hall : Preserves ([initial] ++ (stretch table [] ts ++
      (tokensFrom table (enter table last) last.index ++ [last] ++ [])))
      (Fragment.text ([initial].flatMap Token.text) ::
        (parts.flatten ++ [Fragment.text template.layout.trailing])) := by
    have hends : ∀ token ∈ tokensFrom table (enter table last) last.index ++ [last],
        token.kind.startsTag = false :=
      forall_mem_append.mpr ⟨startsTag_before htable hlast, by simpa using hlastKind⟩
    have hstarts : ∀ token ∈ [initial], token.kind.startsTag = false := by
      simp [hkind, TokenKind.startsTag]
    have hrest := hstmts.append (Preserves.kept hends Preserves.nil)
    rw [htrailing]
    exact Preserves.kept hstarts hrest
  rw [← hsplit, flatMap_singleton, htext] at hall
  exact hall

end Statements

end Writing

namespace Template

variable {env : Environment} {name : Option String} {source : Text}

theorem build_of_parseAnnotated {template : Template} {table : TokenTable}
    (h : parseAnnotated env name source = .ok (template, table)) :
    TokenTable.build env name source = .ok table := by
  unfold parseAnnotated at h
  cases htokens : tokens env name source with
  | error error => simp [htokens, bind, Except.bind] at h
  | ok read =>
      cases htemplate : ofLexemes name read.lexemes with
      | error error => simp [htokens, htemplate, bind, Except.bind] at h
      | ok tree =>
          cases hannotated : annotateWith read tree with
          | error error => simp [htokens, htemplate, hannotated, bind, Except.bind] at h
          | ok result =>
              simp only [htokens, htemplate, hannotated, bind, Except.bind, pure, Except.pure,
                Except.ok.injEq, Prod.mk.injEq] at h
              rw [← h.2]
              exact tokens_eq_ok_iff.mp htokens

theorem texts_of_build {table : TokenTable} (h : TokenTable.build env name source = .ok table) :
    ∃ initial tokens, table.tokens = initial :: tokens ∧ initial.text = [] ∧
      table.tokens.flatMap Token.text = Text.normalizeNewlines source := by
  rcases TokenTable.build_cases env name source with ⟨error, herror⟩ | ⟨_, tokens, -, -, hbuild, -, htexts, -⟩
  · rw [herror] at h
    cases h
  · rw [hbuild] at h
    cases h
    refine ⟨_, _, rfl, rfl, ?_⟩
    simpa [TokenTable.withPartners, flatMap_map, TokenTable.initialToken] using htexts

/-- Formatting touches only the inside of tags: the text is that of the source, token by token, but for
what stands between a token that begins a tag and its partner. -/
theorem reformat_retagged (env : Environment) (source text : Text)
    (h : reformat env source = .ok text) :
    ∃ table, tokens env none source = .ok table ∧
      table.tokens.flatMap Token.text = Text.normalizeNewlines source ∧
      Retagged table.tokens text := by
  unfold reformat at h
  cases hparse : parseAnnotated env none source with
  | error error => simp [hparse, bind, Except.bind] at h
  | ok annotated =>
      obtain ⟨template, table⟩ := annotated
      obtain ⟨htable, ts, last, hspells⟩ := exists_spells_of_parseAnnotated hparse
      have hbuild := build_of_parseAnnotated hparse
      obtain ⟨initial, tokens, hinitial, hempty, htexts⟩ := texts_of_build hbuild
      refine ⟨table, tokens_eq_ok_iff.mpr hbuild, htexts, ?_⟩
      simp only [hparse, bind, Except.bind, dump] at h
      cases hwritten : Writing.fragments env template with
      | none => simp [Writing.dump, hwritten] at h
      | some fragments =>
          obtain rfl : Writing.Fragment.textOf fragments = text := by
            simpa [Writing.dump, hwritten] using h
          have hpreserves := Writing.preserves_fragments htable hspells hinitial hempty hwritten
          have hblank : ({} : Writing.Page).newlineDue = false := rfl
          obtain ⟨text, htext, hretagged⟩ := hpreserves.exists_text hblank
          have hsame : Writing.Fragment.textOf fragments = text := by
            change (Writing.Fragment.writeAllOn {} fragments).text = text
            change Writing.Fragment.writeAllOn {} fragments = _ at htext
            rw [htext, Writing.Page.text, Writing.Page.add, List.append_nil, List.reverse_reverse]
          rwa [hsame]

/-- A comment, a line statement with a colon, chomped blanks and a final newline. -/
theorem reformat_retagged_of_line :
    ∃ text table,
      reformat { lineStatementMark := some "%".toList }
        "{#-a-#}\n% if (a):\n{{-(b) }}\n% endif\n".toList = .ok text ∧
      tokens { lineStatementMark := some "%".toList } none
        "{#-a-#}\n% if (a):\n{{-(b) }}\n% endif\n".toList = .ok table ∧
      Retagged table.tokens text := by
  have hshallow : (reformat { lineStatementMark := some "%".toList }
      "{#-a-#}\n% if (a):\n{{-(b) }}\n% endif\n".toList).toBool = true := by
    decide +kernel
  cases hreformat : reformat { lineStatementMark := some "%".toList }
      "{#-a-#}\n% if (a):\n{{-(b) }}\n% endif\n".toList with
  | error error =>
      rw [hreformat] at hshallow
      exact absurd hshallow Bool.false_ne_true
  | ok text =>
      obtain ⟨table, htokens, -, hretagged⟩ := reformat_retagged _ _ text hreformat
      exact ⟨text, table, rfl, htokens, hretagged⟩

end Template

end JinjaLayout
