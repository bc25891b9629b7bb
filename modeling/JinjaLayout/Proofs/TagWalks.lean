import Mathlib
import JinjaLayout.Proofs.GroupWalks
import JinjaLayout.Proofs.StatementSpelling

/-!
The walk through tags. Inside of a tag the walk stands right behind the last token that it has read;
between tags it stands behind the whitespace that the last tag takes away.
-/

namespace JinjaLayout.Alignment

open Spelling Grammar List

variable {α β γ : Type}

section Tags

variable (table : List Token)

abbrev Outside (done us : List Token) (walk : Walk) : Prop :=
  Stands table (behind table done) done us [] walk

abbrev Within (done us : List Token) (walk : Walk) : Prop :=
  Inside table done us [] walk

variable {table} {ts ts' us done : List Token} {token : Token} {walk : Walk}
  {here between there : List Token → List Token → Walk → Prop}

/-- The part takes the tokens and comes from one kind of place to another. -/
def Moves (here there : List Token → List Token → Walk → Prop) (part : Walking α)
    (ts us : List Token) (good : α → Prop) : Prop :=
  ∀ done walk, here done (ts ++ us) walk →
    Walks part walk fun value next => good value ∧ there (done ++ ts) us next

variable (table)

/-- The part stays inside of a tag. -/
abbrev Passes (part : Walking α) (ts us : List Token) (good : α → Prop) : Prop :=
  Moves (Within table) (Within table) part ts us good

/-- The part comes from inside of a tag behind it. -/
abbrev Closes (part : Walking α) (ts us : List Token) (good : α → Prop) : Prop :=
  Moves (Within table) (Outside table) part ts us good

/-- The part takes whole tags. -/
abbrev Crosses (part : Walking α) (ts us : List Token) (good : α → Prop) : Prop :=
  Moves (Outside table) (Outside table) part ts us good

variable {table}

namespace Moves

theorem mono {part : Walking α} {good good' : α → Prop} (h : Moves here there part ts us good)
    (himp : ∀ value, good value → good' value) : Moves here there part ts us good' :=
  fun done walk hwalk => (h done walk hwalk).mono fun value _ hgood => ⟨himp value hgood.1, hgood.2⟩

protected theorem pure {value : α} {good : α → Prop} (h : good value) :
    Moves here here (Pure.pure value) [] us good :=
  fun _ _ hwalk => .pure ⟨h, by simpa using hwalk⟩

theorem map {part : Walking α} {f : α → β} {good : β → Prop}
    (h : Moves here there part ts us fun value => good (f value)) :
    Moves here there (do return f (← part)) ts us good :=
  fun done walk hwalk => .bind_of (h done walk hwalk) fun _ _ hgood => .pure hgood

section Bind

variable {first : Walking α} {second : α → Walking β} {middle : α → Prop} {good : β → Prop}

theorem bind_of (h : Moves here between first ts (ts' ++ us) middle)
    (hsecond : ∀ value, middle value → Moves between there (second value) ts' us good) :
    Moves here there (first >>= second) (ts ++ ts') us good := by
  intro done walk hwalk
  rw [append_assoc] at hwalk
  refine .bind_of (h done walk hwalk) ?_
  rintro value next ⟨hvalue, hnext⟩
  simpa using hsecond value hvalue (done ++ ts) next hnext

theorem bind_at {us' : List Token} (h : Moves here between first ts us' middle)
    (hus : us' = ts' ++ us)
    (hsecond : ∀ value, middle value → Moves between there (second value) ts' us good) :
    Moves here there (first >>= second) (ts ++ ts') us good :=
  bind_of (hus ▸ h) hsecond

theorem bind_last (h : Moves here between first ts us middle)
    (hsecond : ∀ value, middle value → Moves between there (second value) [] us good) :
    Moves here there (first >>= second) ts us good := by
  have hboth : Moves here there (first >>= second) (ts ++ []) us good := bind_of h hsecond
  rwa [append_nil] at hboth

end Bind

theorem bind_if {condition : Bool} {first : Walking Unit} {second : Unit → Walking β}
    {good : β → Prop} (hfirst : condition → Moves here here first ts (ts' ++ us) fun _ => True)
    (hnone : condition = false → ts = []) (hsecond : Moves here there (second ()) ts' us good) :
    Moves here there (if condition = true then first >>= second else second ()) (ts ++ ts') us
      good := by
  cases condition with
  | false =>
      rw [hnone rfl]
      exact hsecond
  | true => exact bind_of (hfirst rfl) fun _ _ => hsecond

/-! ### Inside of a tag -/

variable {symbol : Text}

theorem nextIs {second : Bool → Walking β} {good : β → Prop}
    (h : Moves (Within table) there (second ((ts ++ us).head?.any (·.isOperator symbol))) ts us good) :
    Moves (Within table) there (Alignment.nextIs symbol >>= second) ts us good := by
  intro done walk hwalk
  exact .bind (walks_nextIs hwalk (h done walk hwalk))

theorem nextIs_of {second : Bool → Walking β} {good : β → Prop}
    (htoken : token.isOperator symbol)
    (h : Moves (Within table) there (second true) (token :: ts) us good) :
    Moves (Within table) there (Alignment.nextIs symbol >>= second) (token :: ts) us good := by
  refine nextIs ?_
  have hhit : ((token :: ts ++ us).head?.any (·.isOperator symbol)) = true := htoken
  rwa [hhit]

theorem nextIs_not {second : Bool → Walking β} {good : β → Prop}
    (hnext : NotNext (·.isOperator symbol) (ts ++ us))
    (h : Moves (Within table) there (second false) ts us good) :
    Moves (Within table) there (Alignment.nextIs symbol >>= second) ts us good := by
  refine nextIs ?_
  rwa [any_head?_of_notNext hnext]

section Table

variable (htable : IsTable table)

include htable

variable {word : Text} {condition : Bool}

theorem expectName (htoken : token.isName word) :
    Passes table (Alignment.expectName word) [token] us fun _ => True :=
  fun _ _ hwalk => .bind (walks_expect htable hwalk htoken fun _ hnext =>
    .pure ⟨trivial, hnext⟩)

theorem expectOperator {symbol : Text} (htoken : token.isOperator symbol) :
    Passes table (Alignment.expectOperator symbol) [token] us fun _ => True :=
  fun _ _ hwalk => .bind (walks_expect htable hwalk htoken fun _ hnext =>
    .pure ⟨trivial, hnext⟩)

theorem name_bind {second : Unit → Walking β} {good : β → Prop} (htoken : token.isName word)
    (h : Moves (Within table) there (second ()) ts us good) :
    Moves (Within table) there (Alignment.expectName word >>= second) (token :: ts) us good :=
  bind_of (expectName htable htoken) fun _ _ => h

theorem operator_bind {symbol : Text} {second : Unit → Walking β} {good : β → Prop}
    (htoken : token.isOperator symbol) (h : Moves (Within table) there (second ()) ts us good) :
    Moves (Within table) there (Alignment.expectOperator symbol >>= second) (token :: ts) us good :=
  bind_of (expectOperator htable htoken) fun _ _ => h

theorem expectNames {words : List Text} (h : Words words ts us) :
    Passes table (Alignment.expectNames words) ts us fun _ => True := by
  induction h with
  | nil => exact .pure trivial
  | cons htoken _ ih => exact name_bind htable htoken ih

theorem expectWord (h : Words [word] ts us) :
    Passes table (Alignment.expectName word) ts us fun _ => True := by
  cases h with
  | cons htoken hnone =>
      cases hnone
      exact expectName htable htoken

theorem name_if {second : Unit → Walking β} {good : β → Prop}
    (h : Words (wordIf condition word) ts (ts' ++ us))
    (hsecond : Moves (Within table) there (second ()) ts' us good) :
    Moves (Within table) there
      (if condition = true then Alignment.expectName word >>= second else second ()) (ts ++ ts') us
      good := by
  refine bind_if ?_ ?_ hsecond
  · rintro rfl
    exact expectWord htable h
  · rintro rfl
    exact forall₂_nil_left_iff.mp h

theorem skipComma_of (htoken : token.isOperator ",") :
    Passes table skipComma [token] us fun _ => True :=
  nextIs_of htoken (expectOperator htable htoken)

omit htable in
theorem skipComma_not (hnext : NotNext (·.isOperator ",") us) :
    Passes table skipComma [] us fun _ => True :=
  nextIs_not hnext (.pure trivial)

theorem listed {spelled : Spelling α} {spelled' : Spelling γ} {node : α → Walking β}
    {g : α → β → γ} {same : α → γ → Prop} {values : List α}
    (hnode : ∀ value ts us, spelled value ts us → Passes table (node value) ts us fun result =>
      spelled' (g value result) ts us ∧ same value (g value result))
    (h : Listed spelled values ts us) :
    Passes table (values.mapM fun value => do
      let result ← node value
      skipComma
      return g value result) ts us fun results =>
        Listed spelled' results ts us ∧ Forall₂ same values results := by
  induction h with
  | nil => exact .pure ⟨.nil, .nil⟩
  | @last value ts us hvalue hnext =>
      rw [mapM_cons, mapM_nil, bind_assoc]
      refine bind_last (hnode value ts us hvalue) ?_
      rintro result ⟨hresult, hsame⟩
      rw [bind_assoc]
      refine bind_last (skipComma_not hnext) fun _ _ => ?_
      exact .pure ⟨.last hresult hnext, .cons hsame .nil⟩
  | @more value values comma ts ts' us hvalue hcomma _ ih =>
      rw [mapM_cons, bind_assoc]
      refine bind_of (hnode value ts _ hvalue) ?_
      rintro result ⟨hresult, hsame⟩
      rw [bind_assoc, ← singleton_append]
      refine bind_of (skipComma_of htable hcomma) fun _ _ => ?_
      refine map (ih.mono ?_)
      rintro results ⟨hresults, hall⟩
      exact ⟨.more hresult hcomma hresults, .cons hsame hall⟩

end Table


/-! ### Between tags -/

theorem chained {spelled : Spelling α} {spelled' : Spelling β} {f : α → Walking β}
    {same : α → β → Prop} {values : List α}
    (hf : ∀ value ts us, spelled value ts us →
      Crosses table (f value) ts us fun result => spelled' result ts us ∧ same value result)
    (h : Chained spelled values ts us) :
    Crosses table (values.mapM f) ts us fun results =>
      Chained spelled' results ts us ∧ Forall₂ same values results := by
  induction h with
  | nil => exact .pure ⟨.nil, .nil⟩
  | @cons value values ts ts' us hvalue _ ih =>
      rw [mapM_cons]
      refine bind_of (hf value ts _ hvalue) ?_
      rintro result ⟨hresult, hsame⟩
      refine map (ih.mono ?_)
      rintro results ⟨hresults, hall⟩
      exact ⟨.cons hresult hresults, .cons hsame hall⟩

end Moves

theorem Guided.passes {visit : Visitor} (hguided : Guided table visit) {place : Place} {expr : Expr}
    (h : Spells False place expr ts us) :
    Passes table (do return (← visit expr).1) ts us fun value =>
      Spells True place value ts us ∧ value.kind = expr.kind := by
  intro done walk hwalk
  refine .bind_of (hguided.visits [] place expr ts us h (.inl rfl) done [] walk
    (loaded_nil.mpr hwalk) (forall_mem_nil _) (.inr (forall_mem_nil _))) ?_
  rintro ⟨value, span⟩ next ⟨-, hvalue, hkind, hnext⟩
  exact .pure ⟨⟨hvalue, hkind⟩, hnext⟩

/-! ### From outside to inside and back -/

/-- A tag whose end has not been read. -/
def openedTag (table : List Token) (keyword : Text) (opening : Token) : OpenTag :=
  ⟨enter table opening, opening, keyword, textFrom table (enter table opening) opening.index⟩

section Delimiters

variable (htable : IsTable table)

include htable

theorem Stands.enter_eq (h : Outside table done (token :: us) walk) :
    enter table token = behind table done := by
  rw [enter, significant_take_index htable h.split]

theorem index_of_skipped {index : Nat} (h : Stands table index done (token :: us) [] walk) :
    ((((table.take token.index).drop index).head?).getD token).index = index := by
  obtain ⟨hle, hdrop, -, -, -⟩ := h.next_token htable
  by_cases heq : index = token.index
  · simp [heq]
  · have hlength : token.index ≤ table.length := by
      have hlengths := congrArg length hdrop
      simp only [length_drop, length_append, length_cons, length_take] at hlengths
      omega
    have hlt : index < (table.take token.index).length := by
      rw [length_take]
      omega
    rw [head?_drop, getElem?_eq_getElem hlt, Option.getD_some, getElem_take]
    exact htable.index_eq _ _

theorem walks_openTag {kind : TokenKind} (h : Outside table done (token :: us) walk)
    (htoken : token.isKind kind) :
    Walks (openTag kind) walk fun tag next =>
      tag = openedTag table [] token ∧ Inside table (done ++ [token]) us [] next := by
  refine .bind (walks_seek htable h htoken fun next hnext => .pure ⟨?_, hnext⟩)
  rw [openedTag, h.enter_eq htable, index_of_skipped htable h]
  rfl

theorem walks_blockTag {keyword : Text} {word : Token}
    (h : Outside table done (token :: word :: us) walk) (htoken : token.isKind .blockBegin)
    (hword : word.isName keyword) :
    Walks (blockTag keyword) walk fun tag next =>
      tag = openedTag table keyword token ∧ Inside table (done ++ [token, word]) us [] next := by
  refine Walks.bind_of (walks_openTag htable h htoken) ?_
  rintro tag next ⟨rfl, hnext⟩
  refine Walks.bind_of (Moves.expectName htable hword (done ++ [token]) next hnext) ?_
  rintro _ last ⟨-, hlast⟩
  exact Walks.pure ⟨rfl, by simpa using hlast⟩

omit htable in
theorem Stands.skip {index : Nat} {groups : List Nat} (h : Stands table index done us groups walk)
    (count : Nat) (hskipped : ∀ token ∈ (table.drop index).take count, token.isSignificant = false) :
    Stands table (index + count) done us groups
      { walk with cursor := walk.cursor.advanceBy count } := by
  have hnone : significant ((table.drop index).take count) = [] :=
    filter_eq_nil_iff.mpr (by simpa using hskipped)
  refine ⟨h.tokens_eq, congrArg (· + count) h.index_eq, h.grouping_eq, ?_, ?_⟩
  · rw [take_add, significant_append, hnone, append_nil, h.done_eq]
  · rw [← h.rest_eq, ← take_append_drop count (table.drop index), significant_append, hnone,
      nil_append, drop_drop]

theorem walks_closing {kind : TokenKind} {tag : OpenTag} {colon : Bool}
    (h : Inside table done (token :: us) [] walk) (htoken : token.isKind kind)
    (hcloses : closesTag token) :
    Walks (do
      let (_, closing) ← seek kind
      let after ← onCursor fun cursor =>
        let (taken, cursor) := cursor.takeInsignificant fun token => token.kind == .whitespace
        (.ok taken, cursor)
      return { opening := tag.opening, closing, keyword := tag.keyword, colon, before := tag.before,
               after := textOf after : TagPair }) walk fun pair next =>
        pair = { opening := tag.opening, closing := token, keyword := tag.keyword, colon,
                 before := tag.before,
                 after := textFrom table (token.index + 1) (leave table token) } ∧
        Outside table (done ++ [token]) us next := by
  have hspan : (spanOf (done ++ [token])).2 = token.index + 1 := by simp [spanOf]
  have hleave : leave table token = token.index + 1 + blanksAt table (token.index + 1) := if_pos hcloses
  have hbehind : behind table (done ++ [token]) =
      token.index + 1 + blanksAt table (token.index + 1) := by
    simpa [behind] using hleave
  refine .bind (walks_seek htable h htoken fun next hnext => ?_)
  have hrest := hnext.cursor_rest
  rw [hspan] at hrest
  refine .bind (walks_onCursor rfl (.pure ⟨?_, ?_⟩))
  · simp only [TagPair.mk.injEq, true_and]
    rw [hrest, hleave, textFrom, drop_take, Nat.add_sub_cancel_left]
    refine congrArg (flatMap Token.text) ?_
    exact prefix_iff_eq_take.mp (List.takeWhile_prefix _)
  · have hall : ∀ other ∈ (table.drop (token.index + 1)).take (blanksAt table (token.index + 1)),
        other.isSignificant = false := by
      intro other hother
      have htake : (table.drop (token.index + 1)).takeWhile
          (fun token => !token.isSignificant && token.kind == .whitespace) =
          (table.drop (token.index + 1)).take (blanksAt table (token.index + 1)) :=
        prefix_iff_eq_take.mp (List.takeWhile_prefix _)
      rw [← htake] at hother
      have hboth := mem_takeWhile_imp hother
      simp only [Bool.and_eq_true, Bool.not_eq_true'] at hboth
      exact hboth.1
    rw [Inside, hspan] at hnext
    have hskip := hnext.skip (blanksAt table (token.index + 1)) hall
    rw [Outside, hbehind]
    rw [hrest]
    exact hskip

theorem walks_closeBlock {keyword : Text} {opening closing : Token} {colons : List Token}
    (h : Inside table done (colons ++ closing :: us) [] walk)
    (hcolons : colons = [] ∨ ∃ colon, colons = [colon] ∧ colon.isOperator ":" = true)
    (hclosing : closing.isKind .blockEnd) :
    Walks (closeBlock (openedTag table keyword opening)) walk fun pair next =>
      pair = tagPair table keyword opening (!colons.isEmpty) closing ∧
        Outside table (done ++ (colons ++ [closing])) us next := by
  have hcloses : closesTag closing := by simp [closesTag, hclosing]
  unfold closeBlock closeTag
  rcases hcolons with rfl | ⟨colon, rfl, hcolon⟩
  · have hnext : NotNext (·.isOperator ":") (closing :: us) :=
      notNext_isOperator_of_isKind hclosing (by decide) us
    refine .bind (walks_nextIs h ?_)
    rw [nil_append, any_head?_of_notNext hnext]
    exact walks_closing htable h hclosing hcloses
  · refine .bind (walks_nextIs h ?_)
    have hhit : (([colon] ++ closing :: us).head?.any (·.isOperator ":")) = true := hcolon
    rw [hhit]
    refine Walks.bind_of (Moves.expectOperator htable hcolon done walk h) ?_
    rintro _ next ⟨-, hnext⟩
    refine (walks_closing htable hnext hclosing hcloses).mono ?_
    rintro pair last ⟨rfl, hlast⟩
    exact ⟨rfl, by simpa using hlast⟩

theorem walks_closeVariable {opening closing : Token}
    (h : Inside table done (closing :: us) [] walk) (hclosing : closing.isKind .variableEnd) :
    Walks (closeTag (openedTag table [] opening) .variableEnd) walk fun pair next =>
      pair = tagPair table [] opening false closing ∧ Outside table (done ++ [closing]) us next := by
  have hcloses : closesTag closing := by simp [closesTag, hclosing]
  unfold closeTag
  refine .bind (walks_nextIs h ?_)
  exact walks_closing htable h hclosing hcloses

end Delimiters

/-! ### Whole tags -/

theorem behind_append (hts : ts ≠ []) : behind table (done ++ ts) = (reachOf table ts).2 := by
  rw [behind, getLast?_append_of_ne_nil _ hts, reachOf]
  obtain ⟨front, last, rfl⟩ := eq_nil_or_concat ts |>.resolve_left hts
  simp

theorem reachOf_append_fst (hts : ts ≠ []) :
    (reachOf table (ts ++ ts')).1 = (reachOf table ts).1 := by
  obtain ⟨first, ts, rfl⟩ := exists_cons_of_ne_nil hts
  rfl

theorem reachOf_append_snd (front : List Token) (hts : ts ≠ []) :
    (reachOf table (front ++ ts)).2 = (reachOf table ts).2 := by
  rw [reachOf, getLast?_append_of_ne_nil _ hts, reachOf]

section Whole

variable {marked : Prop} {keyword : Text} {inside : Phrase} {pair : TagPair}

theorem TagSpelled.ne_nil (h : TagSpelled table marked keyword inside pair ts us) : ts ≠ [] := by
  cases h
  simp

variable {layout : Layout}

theorem walks_sealed {start : Nat} {pairs : List TagPair} (h : Outside table done us walk)
    (hts : reachOf table ts = (start, behind table done)) :
    Walks (sealed layout start pairs) walk fun layout' next =>
      Sealed table True layout' pairs ts ∧ Outside table done us next := by
  refine .bind (.inr ⟨walk.cursor.index, walk, rfl, .pure ⟨fun _ => ⟨?_, rfl⟩, h⟩⟩)
  rw [h.index_eq, hts]

theorem Moves.bind_sealed {start : Nat} {all : List Token} {first : Walking α} {middle : α → Prop}
    {pairs : α → List TagPair} {result : α → Layout → β} {good : β → Prop}
    (h : Moves here (Outside table) first ts us middle) (hts : ts ≠ [])
    (hall : reachOf table all = (start, (reachOf table ts).2))
    (hgood : ∀ value layout', middle value → Sealed table True layout' (pairs value) all →
      good (result value layout')) :
    Moves here (Outside table) (do
      let value ← first
      let layout ← sealed layout start (pairs value)
      return result value layout) ts us good := by
  intro done walk hwalk
  refine .bind_of (h done walk hwalk) ?_
  rintro value next ⟨hvalue, hnext⟩
  refine .bind_of (walks_sealed hnext (hall.trans (by rw [behind_append hts]))) ?_
  rintro layout' last ⟨hlayout', hlast⟩
  exact .pure ⟨hgood value layout' hvalue hlayout', hlast⟩

/-- A tag has been opened: what is said in it, and the tokens at its end, which closing it takes. -/
structure Opened (table : List Token) (keyword : Text) (inside : Phrase) (ts us : List Token)
    (tag : OpenTag) (inner last : List Token) : Prop where
  start_eq : tag.start = (reachOf table ts).1
  inside : inside inner (last ++ us)
  ne_nil : last ≠ []
  stop_eq : (reachOf table ts).2 = (reachOf table last).2
  closes : Closes table (closeBlock tag) last us fun pair => ∀ inside' : Phrase,
    inside' inner (last ++ us) → TagSpelled table True keyword inside' pair ts us

theorem Opened.reachOf_eq {tag : OpenTag} {inner last : List Token}
    (h : Opened table keyword inside ts us tag inner last) :
    reachOf table ts = (tag.start, (reachOf table last).2) :=
  Prod.ext h.start_eq.symm h.stop_eq

theorem Opened.reachOf_append {tag : OpenTag} {inner last last' : List Token}
    (h : Opened table keyword inside ts us tag inner last) (more : List Token) (hts : ts ≠ [])
    (hlast : last' ≠ []) :
    reachOf table (ts ++ (more ++ last')) = (tag.start, (reachOf table last').2) := by
  refine Prod.ext ((reachOf_append_fst hts).trans h.start_eq.symm) ?_
  rw [← append_assoc, reachOf_append_snd _ hlast]

variable (htable : IsTable table)

include htable

theorem closes_closeBlock {closing : Token} {colons : List Token} (keyword : Text)
    (opening : Token) (us : List Token)
    (hcolons : colons = [] ∨ ∃ colon, colons = [colon] ∧ colon.isOperator ":" = true)
    (hclosing : closing.isKind .blockEnd) :
    Closes table (closeBlock (openedTag table keyword opening)) (colons ++ [closing]) us fun pair =>
      pair = tagPair table keyword opening (!colons.isEmpty) closing :=
  fun _ _ hwalk => walks_closeBlock htable (by simpa using hwalk) hcolons hclosing

/-- A tag with what is said in it, and whatever is read behind it. -/
theorem crosses_tag {rest : OpenTag → Walking β} {good : β → Prop}
    (htag : TagSpelled table False keyword inside pair ts (ts' ++ us))
    (hrest : ∀ tag inner last, Opened table keyword inside ts (ts' ++ us) tag inner last →
      Closes table (rest tag) (inner ++ (last ++ ts')) us good) :
    Crosses table (blockTag keyword >>= rest) (ts ++ ts') us good := by
  intro done walk hwalk
  cases htag with
  | @mk opening word colons closing inner _ hopening hword hinside hcolons hclosing _ =>
      refine .bind_of (walks_blockTag htable (by simpa using hwalk) hopening hword) ?_
      rintro _ next ⟨rfl, hnext⟩
      have hopened : Opened table keyword inside (opening :: word :: (inner ++ (colons ++ [closing])))
          (ts' ++ us) (openedTag table keyword opening) inner (colons ++ [closing]) := by
        refine ⟨rfl, by simpa using hinside, by simp,
          reachOf_append_snd (opening :: word :: inner) (by simp),
          (closes_closeBlock htable keyword opening _ hcolons hclosing).mono ?_⟩
        rintro _ rfl inside' hinside'
        exact .mk hopening hword (by simpa using hinside') hcolons hclosing fun _ => rfl
      refine (hrest _ _ _ hopened _ next (by simpa using hnext)).mono ?_
      rintro value last ⟨hvalue, hlast⟩
      exact ⟨hvalue, by simpa using hlast⟩

theorem crosses_keywordTag (htag : TagSpelled table False keyword Nothing pair ts us) :
    Crosses table (keywordTag keyword) ts us fun pair =>
      TagSpelled table True keyword Nothing pair ts us := by
  rw [← append_nil ts]
  refine crosses_tag htable htag fun tag inner last hopened => ?_
  obtain rfl := hopened.inside
  simpa using hopened.closes.mono fun pair hpair => hpair Nothing rfl

theorem crosses_single {rest : OpenTag → Walking β} {good : β → Prop}
    (htag : TagSpelled table False keyword inside pair ts us)
    (hrest : ∀ tag inner last, inside inner (last ++ us) →
      (∀ layout, Closes table (single layout tag) last us fun layout' => ∃ pair,
        Sealed table True layout' [pair] ts ∧ ∀ inside' : Phrase, inside' inner (last ++ us) →
          TagSpelled table True keyword inside' pair ts us) →
      Closes table (rest tag) (inner ++ last) us good) :
    Crosses table (blockTag keyword >>= rest) ts us good := by
  have hboth : Crosses table (blockTag keyword >>= rest) (ts ++ []) us good := by
    refine crosses_tag htable htag fun tag inner last hopened => ?_
    rw [append_nil]
    refine hrest tag inner last hopened.inside fun layout => ?_
    have hprogram : single layout tag = closeBlock tag >>= fun pair =>
        sealed layout tag.start [pair] >>= fun layout => pure layout := by simp [single]
    rw [hprogram]
    refine hopened.closes.bind_sealed hopened.ne_nil hopened.reachOf_eq ?_
    exact fun pair layout' htag' hlayout' => ⟨pair, hlayout', htag'⟩
  rwa [append_nil] at hboth

end Whole

end Tags

end JinjaLayout.Alignment
