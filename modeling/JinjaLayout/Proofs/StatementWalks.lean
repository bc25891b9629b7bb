import Mathlib
import JinjaLayout.Proofs.TagWalks

/-!
The walk through statements and templates. It reaches the end of the template unless the tree nests
too deep, and the tree that it leaves behind knows the tokens of every statement.
-/

namespace JinjaLayout.Alignment

open Spelling Grammar List

variable {α : Type}

section Statements

variable {table : List Token}

/-- The visitors find their way through expressions and statements. -/
structure GuidedAll (table : List Token) (visit : Visitors) : Prop where
  expr : ∀ {place expr ts us}, Spells False place expr ts us →
    Passes table (visit.expr expr) ts us fun value =>
      Spells True place value ts us ∧ value.kind = expr.kind
  stmt : ∀ {stmt ts us}, StmtSpells table False stmt ts us →
    Crosses table (visit.stmt stmt) ts us fun value =>
      StmtSpells table True value ts us ∧ value.kind = stmt.kind

variable {visit : Visitors} (hguided : GuidedAll table visit) (htable : IsTable table)
  {ts ts' us : List Token}

/-! ### Bodies -/

include hguided

variable {stmts : List Stmt} {layout : Layout} {target : Expr}

theorem crosses_body (h : Chained (StmtSpells table False) stmts ts us) :
    Crosses table (visit.body stmts) ts us fun stmts' =>
      Chained (StmtSpells table True) stmts' ts us ∧
        Forall₂ (fun stmt stmt' => stmt'.kind = stmt.kind) stmts stmts' :=
  .chained (fun _ _ _ hstmt => hguided.stmt hstmt) h

include htable

theorem crosses_enclosed {β : Type} {keyword stop : Text} {inside : Phrase} {pairs : List TagPair}
    {rest : OpenTag → Walking β} {good : β → Prop}
    (h : EnclosedSpelled table False (StmtSpells table False) keyword stop inside Nothing stmts pairs
      ts us)
    (hrest : ∀ tag inner last, inside inner (last ++ us) →
      (∀ layout, Closes table (enclosed visit layout tag stmts stop) last us fun body => ∃ pairs,
        Sealed table True body.2 pairs ts ∧ ∀ inside' : Phrase, inside' inner (last ++ us) →
          EnclosedSpelled table True (StmtSpells table True) keyword stop inside' Nothing body.1 pairs
            ts us) →
      Closes table (rest tag) (inner ++ last) us good) :
    Crosses table (blockTag keyword >>= rest) ts us good := by
  cases h with
  | @mk first second ts ts' ts'' _ hfirst hstmts hsecond =>
      rw [← append_assoc] at hfirst
      refine crosses_tag htable hfirst fun tag inner last hopened => ?_
      refine hrest tag inner _ (by simpa using hopened.inside) fun layout => ?_
      refine .bind_of hopened.closes fun first' hfirst' => ?_
      refine .bind_of (crosses_body hguided hstmts) fun stmts' hstmts' => ?_
      refine (crosses_keywordTag htable hsecond).bind_sealed (TagSpelled.ne_nil hsecond)
        (hopened.reachOf_append ts' (TagSpelled.ne_nil hfirst) (TagSpelled.ne_nil hsecond)) ?_
      intro second' layout' hsecond' hlayout'
      refine ⟨_, hlayout', fun inside' hinside' => .mk ?_ hstmts'.1 hsecond'⟩
      simpa using hfirst' inside' (by simpa using hinside')

theorem crosses_otherwise {stop : Text} {inside : Phrase} {pairs : List TagPair} {pair : TagPair}
    (h : ElseSpelled table False (StmtSpells table False) stmts pairs ts (ts' ++ us))
    (hstop : TagSpelled table False stop inside pair ts' us) (hne : stop ≠ "else".toList) :
    Crosses table (otherwise visit stmts) ts (ts' ++ us) fun result =>
      ElseSpelled table True (StmtSpells table True) result.1 result.2 ts (ts' ++ us) := by
  intro done walk hwalk
  cases h with
  | none =>
      cases hstop with
      | @mk opening word colons closing ts _ hopening hword hinside hcolons hclosing _ =>
          have hother : word.isName "else" = false :=
            Bool.eq_false_iff.mpr fun helse => hne (isName_unique hword helse)
          refine .bind (.bind (walks_nthFits hwalk (.bind (walks_nthFits hwalk
            (.pure ?_)))))
          have hmiss : (Cursor.fits word .name (some "else")) = false := hother
          simp only [nil_append, cons_append, getElem?_cons_succ,
            getElem?_cons_zero, Option.any_some, hmiss, Bool.and_false, isEmpty_nil]
          exact .pure ⟨.none, by simpa using hwalk⟩
  | @some _ pair ts ts'' _ htag hstmts =>
      rw [append_assoc] at hwalk
      have hfits : ((ts ++ (ts'' ++ (ts' ++ us)))[0]?.any fun token =>
            Cursor.fits token .blockBegin none) = true ∧
          ((ts ++ (ts'' ++ (ts' ++ us)))[1]?.any fun token =>
            Cursor.fits token .name (some "else")) := by
        cases htag with
        | mk hopening hword _ _ _ _ => exact ⟨hopening, hword⟩
      refine .bind (.bind (walks_nthFits hwalk (.bind (walks_nthFits hwalk
        (.pure ?_)))))
      rw [hfits.1, hfits.2, Bool.and_self, Bool.or_true, if_pos rfl]
      refine .bind_of (crosses_keywordTag htable htag done walk hwalk) ?_
      rintro pair' next ⟨hpair', hnext⟩
      refine .bind_of (crosses_body hguided hstmts _ next hnext) ?_
      rintro stmts' last ⟨⟨hstmts', -⟩, hlast⟩
      exact .pure ⟨.some hpair' hstmts', by simpa using hlast⟩

/-! ### What is said in tags -/

omit htable in
theorem passes_optional {place : Place} {value : Option Expr}
    (h : Possibly (Spells False place) value ts us) :
    Passes table (value.mapM visit.expr) ts us fun value' =>
      Possibly (Spells True place) value' ts us := by
  cases h with
  | none => exact .pure .none
  | some hvalue => exact .map ((hguided.expr hvalue).mono fun _ hresult => .some hresult.1)

omit htable in
theorem passes_behind {front : Token → Bool} {read : Walking Unit} {value : Option Expr}
    (hread : ∀ token us, front token → Passes table read [token] us fun _ => True)
    (h : Possibly (Behind front (Spells False .value)) value ts us) :
    Passes table (value.mapM fun value => do read; visit.expr value) ts us fun value' =>
      Possibly (Behind front (Spells True .value)) value' ts us ∧ value'.isSome = value.isSome := by
  cases h with
  | none => exact .pure ⟨.none, rfl⟩
  | some hvalue =>
      cases hvalue with
      | mk htoken hvalue =>
          refine .map (.bind_of (hread _ _ htoken) fun _ _ => ?_)
          exact (hguided.expr hvalue).mono fun _ hresult => ⟨.some (.mk htoken hresult.1), rfl⟩

omit htable in
theorem passes_setTarget (h : SetTarget False target ts us) :
    Passes table (visit.expr target) ts us fun target' => SetTarget True target' ts us := by
  obtain ⟨place, hplace, htarget⟩ := h
  exact (hguided.expr htarget).mono fun _ hresult => ⟨place, hplace, hresult.1⟩

omit hguided in
theorem passes_contextChoice {withContext : Option Bool}
    (h : Words (contextWords withContext) ts us) :
    Passes table (contextChoice withContext) ts us fun _ => True := by
  rcases withContext with _ | _ | _
  · cases h
    exact .pure trivial
  · exact .expectNames htable h
  · exact .expectNames htable h

theorem passes_parameter {node : Expr × Option Expr} (h : ParameterSpelled False node ts us) :
    Passes table (do
      let name ← visit.expr node.1
      let value ← node.2.mapM fun value => do
        expectOperator "="
        visit.expr value
      return (name, value)) ts us fun node' =>
        ParameterSpelled True node' ts us ∧ node'.2.isSome = node.2.isSome := by
  obtain ⟨ts', ts'', rfl, hname, hvalue⟩ := h
  refine .bind_of (hguided.expr hname) ?_
  rintro name' ⟨hname', -⟩
  refine .map ((passes_behind hguided
    (fun _ _ htoken => .expectOperator htable htoken) hvalue).mono ?_)
  rintro value' ⟨hvalue', hsome⟩
  exact ⟨⟨ts', ts'', rfl, hname', hvalue'⟩, hsome⟩

omit hguided htable in
theorem withDefaults_eq (plain : List Expr) (withs : List (Expr × Expr)) :
    withDefaults (plain ++ withs.map Prod.fst) (withs.map Prod.snd) =
      plain.map (·, none) ++ withs.map fun parameter => (parameter.1, some parameter.2) := by
  induction plain with
  | nil =>
      induction withs with
      | nil => rfl
      | cons parameter withs ih => simpa [withDefaults] using ih
  | cons parameter plain ih =>
      cases withs with
      | nil => simpa [withDefaults] using ih
      | cons other withs =>
          have hmore : ¬ (plain ++ (other :: withs).map Prod.fst).length ≤
              (withs.map Prod.snd).length := by
            simp only [length_append, length_map, length_cons]
            omega
          have hfirst : withDefaults (parameter :: (plain ++ (other :: withs).map Prod.fst))
              (other.2 :: withs.map Prod.snd) = (parameter, none) ::
                withDefaults (plain ++ (other :: withs).map Prod.fst)
                  (other.2 :: withs.map Prod.snd) := if_neg hmore
          exact hfirst.trans (congrArg _ ih)

omit hguided htable in
theorem exists_withs {plain : List Expr} {withs : List (Expr × Expr)}
    {nodes : List (Expr × Option Expr)}
    (h : Forall₂ (fun node node' : Expr × Option Expr => node'.2.isSome = node.2.isSome)
      (plain.map (·, none) ++ withs.map fun parameter => (parameter.1, some parameter.2)) nodes) :
    ∃ plain' : List Expr, ∃ withs' : List (Expr × Expr), plain'.length = plain.length ∧
      nodes = plain'.map (·, none) ++ withs'.map fun parameter => (parameter.1, some parameter.2) := by
  induction plain generalizing nodes with
  | nil =>
      induction withs generalizing nodes with
      | nil =>
          cases h
          exact ⟨[], [], rfl, rfl⟩
      | cons parameter withs ih =>
          cases h with
          | @cons _ node _ nodes hnode hnodes =>
              obtain ⟨plain', withs', hplain, rfl⟩ := ih hnodes
              obtain rfl := eq_nil_of_length_eq_zero hplain
              obtain ⟨name, value⟩ := node
              obtain ⟨value, rfl⟩ : ∃ default, value = some default :=
                Option.isSome_iff_exists.mp hnode
              exact ⟨[], (name, value) :: withs', rfl, rfl⟩
  | cons parameter plain ih =>
      cases h with
      | @cons _ node _ nodes hnode hnodes =>
          obtain ⟨plain', withs', hplain, rfl⟩ := ih hnodes
          obtain ⟨name, value⟩ := node
          obtain rfl : value = none := by simpa using hnode
          exact ⟨name :: plain', withs', congrArg (· + 1) hplain, rfl⟩

theorem passes_signature {parameters defaults : List Expr}
    (h : SignatureSpelled False parameters defaults ts us) :
    Passes table (signature visit parameters defaults) ts us fun result =>
      SignatureSpelled True result.1 result.2 ts us := by
  cases h with
  | @mk plain withs opening closing ts _ hopening hnodes hclosing =>
      refine .operator_bind htable hopening ?_
      have hparameter : parameter visit = fun node => do
          let result ← (do
            let name ← visit.expr node.1
            let value ← node.2.mapM fun value => do
              expectOperator "="
              visit.expr value
            return (name, value))
          skipComma
          return result := by
        funext node
        simp [parameter]
      rw [withDefaults_eq, hparameter]
      refine .bind_of (.listed (g := fun _ result => result) htable
        (fun node _ _ hnode => passes_parameter hguided htable hnode) hnodes) ?_
      rintro nodes ⟨hnodes', hsome⟩
      obtain ⟨plain', withs', -, rfl⟩ := exists_withs hsome
      refine .operator_bind htable hclosing (.pure ?_)
      have hfirst : (plain'.map (·, none) ++ withs'.map fun parameter =>
          (parameter.1, some parameter.2) : List (Expr × Option Expr)).map Prod.fst =
          plain' ++ withs'.map Prod.fst := by simp [Function.comp_def]
      have hsecond : (plain'.map (·, none) ++ withs'.map fun parameter =>
            (parameter.1, some parameter.2) : List (Expr × Option Expr)).filterMap Prod.snd ++
          (withs.map Prod.snd).drop (plain ++ withs.map Prod.fst).length =
          withs'.map Prod.snd := by
        simp [filterMap_map, filterMap_append]
      simp only [hfirst, hsecond]
      exact .mk hopening hnodes' hclosing

theorem passes_bound {node : Expr × Expr} (h : BoundSpelled False node ts us) :
    Passes table (do
      let target ← visit.expr node.1
      expectOperator "="
      let value ← visit.expr node.2
      return (target, value)) ts us fun node' => BoundSpelled True node' ts us := by
  obtain ⟨ts', _, rfl, htarget, _, ts'', rfl, ⟨equals, rfl, hequals⟩, hvalue⟩ := h
  refine .bind_of (hguided.expr htarget) ?_
  rintro target' ⟨htarget', -⟩
  refine .operator_bind htable hequals ?_
  refine .map ((hguided.expr hvalue).mono ?_)
  rintro value' ⟨hvalue', -⟩
  exact ⟨ts', _, rfl, htarget', [equals], ts'', rfl, ⟨equals, rfl, hequals⟩, hvalue'⟩

theorem passes_bounds {nodes : List (Expr × Expr)} (h : Listed (BoundSpelled False) nodes ts us) :
    Passes table (nodes.mapM (bound visit)) ts us fun nodes' =>
      Listed (BoundSpelled True) nodes' ts us ∧ nodes'.length = nodes.length := by
  have hbound : bound visit = fun node => do
      let result ← (do
        let target ← visit.expr node.1
        expectOperator "="
        let value ← visit.expr node.2
        return (target, value))
      skipComma
      return result := by
    funext node
    simp [bound]
  rw [hbound]
  have hnode : ∀ node ts us, BoundSpelled False node ts us → Passes table (do
      let target ← visit.expr node.1
      expectOperator "="
      let value ← visit.expr node.2
      return (target, value)) ts us fun node' => BoundSpelled True node' ts us ∧ True :=
    fun node ts us hnode => (passes_bound hguided htable hnode).mono fun _ hresult =>
      ⟨hresult, trivial⟩
  refine (Moves.listed (g := fun _ result => result) htable hnode h).mono ?_
  rintro nodes' ⟨hnodes', hall⟩
  exact ⟨hnodes', hall.length_eq.symm⟩

omit hguided in
theorem passes_importedNames {names : List ImportedName} (h : Listed ImportSpelled names ts us) :
    Passes table (names.forM importedName) ts us fun _ => True := by
  have hname : ∀ name : ImportedName, importedName name = (do
      expectNames (name.name :: name.newName.elim [] fun word => ["as".toList, word])
      skipComma) := by
    rintro ⟨name, _ | word⟩ <;> simp [importedName, expectNames]
  induction h with
  | nil => exact .pure trivial
  | @last name ts us hwords hnext =>
      rw [forM_eq_forM, forM_cons, hname, bind_assoc]
      refine .bind_last (.expectNames htable hwords) fun _ _ => ?_
      exact .bind_last (.skipComma_not hnext) fun _ _ => .pure trivial
  | @more name names comma ts ts' us hwords hcomma _ ih =>
      rw [forM_eq_forM, forM_cons, hname, bind_assoc]
      refine .bind_of (.expectNames htable hwords) fun _ _ => ?_
      exact .bind_of (.skipComma_of htable hcomma) fun _ _ => ih

/-! ### Outputs -/

omit hguided htable in
theorem NodeSpelled.ne_nil {marked : Prop} {part : Expr × Option TagPair}
    (h : NodeSpelled table marked part ts us) : ts ≠ [] := by
  cases h <;> simp

theorem crosses_outputNode {part : Expr × Option TagPair}
    (h : NodeSpelled table False part ts us) :
    Crosses table (outputNode visit part.1) ts us fun result =>
      NodeSpelled table True (result.1, result.2.2) ts us ∧ result.2.1 = (reachOf table ts).1 := by
  intro done walk hwalk
  cases h with
  | @data text layout token us htoken htext _ =>
      have hcloses : closesTag token = false := by
        rw [closesTag, isKind_eq_false htoken (by decide), isKind_eq_false htoken (by decide),
          Bool.or_self]
      have hreach : reachOf table [token] = (enter table token, token.index + 1) := by
        simp [reachOf, leave, hcloses]
      have henter := hwalk.enter_eq htable
      have hindex := index_of_skipped htable hwalk
      refine .bind (walks_seek htable hwalk htoken fun next hnext => .pure ⟨⟨.data htoken
        htext fun _ => ⟨?_, ?_⟩, ?_⟩, ?_⟩)
      · rw [henter]
        rfl
      · rw [hreach, henter, hindex]
      · rw [hreach, henter, hindex]
      · have hbehind : behind table (done ++ [token]) = (spanOf (done ++ [token])).2 := by
          simp [behind, leave, hcloses, spanOf]
        rw [Outside, hbehind]
        exact hnext
  | @expr expr pair opening closing ts us hopening hexpr hclosing _ =>
      have hprogram : outputNode visit expr = (do
          let tag ← openTag .variableBegin
          let expr ← visit.expr expr
          let pair ← closeTag tag .variableEnd
          return (expr, tag.start, some pair)) := by
        cases expr with
        | data =>
            cases hexpr.unfold with
            | group hcore _ _ _ => cases hcore
        | _ => rfl
      rw [hprogram]
      refine .bind_of (walks_openTag htable hwalk hopening) ?_
      rintro _ next ⟨rfl, hnext⟩
      refine .bind_of (hguided.expr hexpr _ next (by simpa using hnext)) ?_
      rintro expr' last ⟨⟨hexpr', -⟩, hlast⟩
      refine .bind_of (walks_closeVariable htable hlast hclosing) ?_
      rintro _ end' ⟨rfl, hend⟩
      exact .pure ⟨⟨.expr hopening hexpr' hclosing fun _ => rfl, rfl⟩, by simpa using hend⟩

theorem crosses_output {parts : List (Expr × Option TagPair)} (hne : parts ≠ [])
    (h : Chained (NodeSpelled table False) parts ts us) :
    Crosses table (output visit (parts.map Prod.fst) layout) ts us fun stmt =>
      StmtSpells table True stmt ts us ∧ stmt.kind = "Output" := by
  intro done walk hwalk
  have hprogram : output visit (parts.map Prod.fst) layout = (do
      let entry ← position
      let nodes ← parts.mapM fun part => outputNode visit part.1
      let start := (nodes.head?.map fun node => node.2.1).getD entry
      let layout ← sealed layout start (nodes.filterMap fun node => node.2.2)
      return .output (nodes.map Prod.fst) layout) := by
    rw [output, mapM_map]
    rfl
  rw [hprogram]
  refine .bind (.inr ⟨walk.cursor.index, walk, rfl, ?_⟩)
  have hnode : ∀ (part : Expr × Option TagPair) ts us, NodeSpelled table False part ts us →
      Crosses table (outputNode visit part.1) ts us fun node =>
        (NodeSpelled table True (node.1, node.2.2) ts us ∧ node.2.1 = (reachOf table ts).1) ∧ True :=
    fun part ts us hpart => (crosses_outputNode hguided htable hpart).mono fun _ hnode =>
      ⟨hnode, trivial⟩
  refine .bind_of (Moves.chained hnode h done walk hwalk) ?_
  rintro nodes next ⟨⟨hnodes, hall⟩, hnext⟩
  have hts : ts ≠ [] := by
    cases h with
    | nil => exact absurd rfl hne
    | cons hpart _ => simp [NodeSpelled.ne_nil hpart]
  have hstart : (nodes.head?.map fun node => node.2.1).getD walk.cursor.index =
      (reachOf table ts).1 := by
    cases hnodes with
    | nil => exact absurd (forall₂_nil_right_iff.mp hall) hne
    | @cons node nodes ts ts' us hfirst hothers =>
        rw [head?_cons, Option.map_some, Option.getD_some, hfirst.2]
        obtain ⟨first, ts, rfl⟩ := exists_cons_of_ne_nil (NodeSpelled.ne_nil hfirst.1)
        rfl
  rw [hstart]
  have hreach : reachOf table ts = ((reachOf table ts).1, behind table (done ++ ts)) := by
    rw [behind_append hts]
  refine .bind_of (walks_sealed hnext hreach) ?_
  rintro layout' last ⟨hlayout', hlast⟩
  have hparts : Chained (NodeSpelled table True)
      (nodes.map fun node => (node.1, node.2.2)) ts us :=
    hnodes.map fun _ _ _ _ hnode => hnode.1
  have hsealed : Sealed table True layout'
      ((nodes.map fun node => (node.1, node.2.2)).filterMap Prod.snd) ts := by
    rwa [filterMap_map]
  have hnodes' : (nodes.map fun node => (node.1, node.2.2)).map Prod.fst = nodes.map Prod.fst :=
    map_map
  have hne' : (nodes.map fun node => (node.1, node.2.2)) ≠ [] := by
    rintro hnil
    rw [map_eq_nil_iff.mp hnil] at hall
    exact hne (forall₂_nil_right_iff.mp hall)
  refine .pure ⟨⟨StmtSpells.fold ?_, rfl⟩, hlast⟩
  rw [← hnodes']
  exact .output hne' hparts hsealed

/-! ### Branches and loops -/

theorem crosses_furtherBranch {part : Branch × TagPair}
    (h : BranchSpelled table False (StmtSpells table False) part ts us) :
    Crosses table (furtherBranch visit part.1) ts us fun part' =>
      BranchSpelled table True (StmtSpells table True) part' ts us := by
  cases h with
  | @mk test stmts layout pair ts ts' us htag hstmts _ =>
      refine crosses_tag htable htag fun tag inner last hopened => ?_
      refine .bind_at (hguided.expr hopened.inside) (by simp) fun test' htest' done walk hwalk => ?_
      rw [append_assoc] at hwalk
      refine .bind_of (hopened.closes done walk hwalk) ?_
      rintro pair' next ⟨hpair', hnext⟩
      refine .bind_of (crosses_body hguided hstmts _ next hnext) ?_
      rintro stmts' end' ⟨⟨hstmts', -⟩, hend⟩
      rw [append_assoc] at hend
      have hall : reachOf table (ts ++ ts') = (tag.start, behind table (done ++ (last ++ ts'))) := by
        rw [behind_append (by simp [hopened.ne_nil])]
        refine Prod.ext ((reachOf_append_fst (TagSpelled.ne_nil htag)).trans hopened.start_eq.symm) ?_
        cases ts' with
        | nil => simpa using hopened.stop_eq
        | cons => rw [reachOf_append_snd _ (by simp), reachOf_append_snd _ (by simp)]
      refine .bind_of (walks_sealed hend hall) ?_
      rintro layout' end' ⟨hlayout', hend⟩
      exact .pure ⟨.mk (hpair' _ htest'.1) hstmts' hlayout', hend⟩

theorem crosses_furtherBranches {parts : List (Branch × TagPair)}
    (h : Chained (BranchSpelled table False (StmtSpells table False)) parts ts us) :
    Crosses table ((parts.map Prod.fst).mapM (furtherBranch visit)) ts us fun parts' =>
      Chained (BranchSpelled table True (StmtSpells table True)) parts' ts us := by
  have hpart : ∀ (part : Branch × TagPair) ts us,
      BranchSpelled table False (StmtSpells table False) part ts us →
      Crosses table (furtherBranch visit part.1) ts us fun part' =>
        BranchSpelled table True (StmtSpells table True) part' ts us ∧ True :=
    fun part ts us hpart => (crosses_furtherBranch hguided htable hpart).mono fun _ hresult =>
      ⟨hresult, trivial⟩
  rw [mapM_map]
  exact (Moves.chained hpart h).mono fun _ => And.left

theorem crosses_branch {first : Branch}
    (h : StmtLayer table False (StmtSpells table False) (.branch first) ts us) :
    Crosses table (branch visit first) ts us fun first' =>
      StmtSpells table True (.branch first') ts us := by
  cases h with
  | @branch test stmts orElse layout pair others last ts ts₁ ts₂ ts₃ ts₄ us branches hfirst hstmts
      hbranches hothers hlast _ =>
      have hfirst' : TagSpelled table False "if" (Spells False .value test) pair ts
          (ts₁ ++ (ts₂ ++ (ts₃ ++ ts₄)) ++ us) := by simpa using hfirst
      refine crosses_tag htable hfirst' fun tag inner close hopened => ?_
      refine .bind_at (hguided.expr hopened.inside) (by simp) fun test' htest' => ?_
      refine .bind_of hopened.closes fun first' hfirst' => ?_
      refine .bind_at (crosses_body hguided hstmts) (by simp) fun stmts' hstmts' => ?_
      refine .bind_at (crosses_furtherBranches hguided htable hbranches) (by simp) ?_
      intro branches' hbranches'
      refine .bind_of (crosses_otherwise hguided htable hothers hlast (by decide)) ?_
      rintro ⟨orElse', others'⟩ hothers'
      have hall : reachOf table (ts ++ (ts₁ ++ (ts₂ ++ (ts₃ ++ ts₄)))) =
          (tag.start, (reachOf table ts₄).2) := by
        simpa using hopened.reachOf_append (ts₁ ++ (ts₂ ++ ts₃)) (TagSpelled.ne_nil hfirst)
          (TagSpelled.ne_nil hlast)
      refine (crosses_keywordTag htable hlast).bind_sealed (TagSpelled.ne_nil hlast) hall ?_
      intro last' layout' hlast' hlayout'
      refine .fold (.branch ?_ hstmts'.1 hbranches' hothers' hlast' hlayout')
      simpa using hfirst' _ htest'.1

theorem crosses_loop {iterable : Expr} {orElse : List Stmt} {test : Option Expr} {nested : Bool}
    (h : StmtLayer table False (StmtSpells table False)
      (.loop target iterable stmts orElse test nested layout) ts us) :
    Crosses table (statementContent visit (.loop target iterable stmts orElse test nested layout)) ts us
      fun stmt => StmtSpells table True stmt ts us ∧ stmt.kind = "For" := by
  cases h with
  | @loop _ _ _ _ _ _ _ pair others last ts ts₁ ts₂ ts₃ us hfirst hstmts hothers hlast _ =>
      have hfirst' := hfirst
      rw [← append_assoc ts₂, ← append_assoc ts₁] at hfirst'
      refine crosses_tag htable hfirst' fun tag inner close hopened => ?_
      obtain ⟨ts₄, _, rfl, htarget, ts₅, _, rfl, hword, ts₆, _, rfl, hiterable, ts₇, ts₈, rfl, htest,
        hnested⟩ := hopened.inside
      simp only [append_assoc]
      refine .bind_at (hguided.expr htarget) (by simp) fun target' htarget' => ?_
      refine .bind_at (.expectWord htable hword) (by simp) fun _ _ => ?_
      refine .bind_at (hguided.expr hiterable) (by simp) fun iterable' hiterable' => ?_
      refine .bind_at (passes_behind hguided (fun _ _ htoken => .expectName htable htoken) htest)
        (by simp) fun test' htest' => .name_if htable hnested ?_
      refine .bind_at hopened.closes (by simp) fun first' hfirst' => ?_
      refine .bind_at (crosses_body hguided hstmts) (by simp) fun stmts' hstmts' => ?_
      refine .bind_of (crosses_otherwise hguided htable hothers hlast (by decide)) ?_
      rintro ⟨orElse', others'⟩ hothers'
      have hall : reachOf table (ts ++ (ts₁ ++ (ts₂ ++ ts₃))) =
          (tag.start, (reachOf table ts₃).2) := by
        simpa using hopened.reachOf_append (ts₁ ++ ts₂) (TagSpelled.ne_nil hfirst)
          (TagSpelled.ne_nil hlast)
      refine (crosses_keywordTag htable hlast).bind_sealed (TagSpelled.ne_nil hlast) hall ?_
      intro last' layout' hlast' hlayout'
      refine ⟨.fold (.loop ?_ hstmts'.1 hothers' hlast' hlayout'), rfl⟩
      simpa using hfirst' _ ⟨ts₄, _, rfl, htarget'.1, ts₅, _, rfl, hword, ts₆, _, rfl, hiterable'.1,
        ts₇, ts₈, rfl, htest'.1, hnested⟩

/-! ### Statements -/

section Content

variable {spelled : Spelling Stmt} {keyword stop : Text} {inside last : Phrase} {stmts : List Stmt}
  {pair : TagPair} {pairs : List TagPair} {layout : Layout}

omit hguided htable in
theorem Words.split {words words' : List Text}
    (h : Forall₂ (fun word token => Token.isName token word = true) (words ++ words') ts) :
    ∃ ts' ts'', ts = ts' ++ ts'' ∧ (∀ us, Words words ts' us) ∧ ∀ us, Words words' ts'' us := by
  induction words generalizing ts with
  | nil => exact ⟨[], ts, rfl, fun _ => .nil, fun _ => h⟩
  | cons word words ih =>
      cases h with
      | cons htoken hothers =>
          obtain ⟨ts', ts'', rfl, hwords, hwords'⟩ := ih hothers
          exact ⟨_ :: ts', ts'', rfl, fun us => .cons htoken (hwords us), hwords'⟩

theorem crosses_block {name : Text} {isScoped isRequired endNamed : Bool}
    (h : EnclosedSpelled table False (StmtSpells table False) "block" "endblock"
      (Words (name :: (wordIf isScoped "scoped" ++ wordIf isRequired "required")))
      (Words (wordIf endNamed name)) stmts pairs ts us) :
    Crosses table (statementContent visit (.block name stmts isScoped isRequired endNamed layout))
      ts us fun stmt => StmtSpells table True stmt ts us ∧ stmt.kind = "Block" := by
  cases h with
  | @mk first second ts ts' ts'' _ hfirst hstmts hsecond =>
      rw [← append_assoc] at hfirst
      refine crosses_tag htable hfirst fun tag inner last hopened => ?_
      have hwords := hopened.inside
      cases hwords with
      | cons hname hothers =>
          obtain ⟨ts₁, ts₂, rfl, hscoped, hrequired⟩ := Words.split hothers
          simp only [cons_append, append_assoc]
          refine .name_bind htable hname (.name_if htable (hscoped _) ?_)
          refine .name_if htable (hrequired _) ?_
          refine .bind_at hopened.closes (by simp) fun first' hfirst' => ?_
          refine .bind_of (crosses_body hguided hstmts) fun stmts' hstmts' => ?_
          have hend : Crosses table (do
              let last ← blockTag "endblock"
              if endNamed then expectName name
              let closing ← closeBlock last
              return .block name stmts' isScoped isRequired endNamed
                (← sealed layout tag.start [first', closing])) (ts'' ++ []) us fun stmt =>
                StmtSpells table True stmt (ts ++ (ts' ++ ts'')) us ∧ stmt.kind = "Block" := by
            refine crosses_tag htable hsecond fun last inner final hlast => ?_
            refine .name_if htable hlast.inside ?_
            rw [append_nil]
            have hall := hopened.reachOf_append ts' (TagSpelled.ne_nil hfirst)
              (TagSpelled.ne_nil hsecond)
            rw [hlast.stop_eq] at hall
            refine hlast.closes.bind_sealed hlast.ne_nil hall ?_
            intro second' layout' hsecond' hlayout'
            refine ⟨.fold (.block (.mk ?_ hstmts'.1 (hsecond' _ hlast.inside)) hlayout'), rfl⟩
            simpa using hfirst' _ (.cons hname hothers)
          rwa [append_nil] at hend

theorem crosses_bind {bindings : List (Expr × Expr)}
    (h : EnclosedSpelled table False (StmtSpells table False) "with" "endwith"
      (Listed (BoundSpelled False) bindings) Nothing stmts pairs ts us) :
    Crosses table (statementContent visit
      (.bind (bindings.map Prod.fst) (bindings.map Prod.snd) stmts layout)) ts us
      fun stmt => StmtSpells table True stmt ts us ∧ stmt.kind = "With" := by
  have hzip : (bindings.map Prod.fst).zip (bindings.map Prod.snd) = bindings := by
    rw [← unzip_fst, ← unzip_snd, zip_unzip]
  refine crosses_enclosed hguided htable h fun tag inner last hbindings henclosed => ?_
  rw [hzip]
  refine .bind_of (passes_bounds hguided htable hbindings) ?_
  rintro nodes ⟨hnodes, hlength⟩
  refine .bind_last (henclosed _) ?_
  rintro ⟨stmts', layout'⟩ ⟨pairs', hlayout', henclosed'⟩
  have hdrop : ∀ f : Expr × Expr → Expr, (bindings.map f).drop nodes.length = [] := by
    intro f
    simp [hlength]
  dsimp only
  rw [hdrop, hdrop, append_nil, append_nil]
  exact .pure ⟨.fold (.bind (henclosed' _ hnodes) hlayout'), rfl⟩

variable {template : Expr} {withContext : Option Bool}

theorem crosses_insert {ignoreMissing : Bool}
    (h : TagSpelled table False "include" (Then (Spells False .value template)
      (Words ((if ignoreMissing then ["ignore".toList, "missing".toList] else []) ++
        contextWords withContext))) pair ts us) :
    Crosses table (statementContent visit (.insert template ignoreMissing withContext layout)) ts us
      fun stmt => StmtSpells table True stmt ts us ∧ stmt.kind = "Include" := by
  refine crosses_single htable h ?_
  rintro tag _ last ⟨ts', ts'', rfl, htemplate, hwords⟩ hsingle
  obtain ⟨ts₁, ts₂, rfl, hmissing, hcontext⟩ := Words.split hwords
  simp only [append_assoc]
  refine .bind_at (hguided.expr htemplate) (by simp) fun template' htemplate' => .bind_if ?_ ?_ ?_
  · rintro rfl
    exact .expectNames htable (hmissing _)
  · rintro rfl
    exact forall₂_nil_left_iff.mp (hmissing us)
  · refine .bind_of (passes_contextChoice htable (hcontext _)) fun _ _ => .bind_last (hsingle _) ?_
    rintro layout' ⟨pair', hlayout', htag'⟩
    exact .pure ⟨.fold (.insert (htag' _ ⟨ts', _, rfl, htemplate'.1, hwords⟩) hlayout'), rfl⟩

theorem crosses_importAs {target : Text}
    (h : TagSpelled table False "import" (Then (Spells False .value template)
      (Words ("as".toList :: target :: contextWords withContext))) pair ts us) :
    Crosses table (statementContent visit (.importAs template target withContext layout)) ts us
      fun stmt => StmtSpells table True stmt ts us ∧ stmt.kind = "Import" := by
  refine crosses_single htable h ?_
  rintro tag _ last ⟨ts', ts'', rfl, htemplate, hwords⟩ hsingle
  have hboth : Words (["as".toList, target] ++ contextWords withContext) ts'' us := hwords
  obtain ⟨ts₁, ts₂, rfl, htarget, hcontext⟩ := Words.split hboth
  simp only [append_assoc]
  refine .bind_at (hguided.expr htemplate) (by simp) fun template' htemplate' => ?_
  refine .bind_of (.expectNames htable (htarget _)) fun _ _ => ?_
  refine .bind_of (passes_contextChoice htable (hcontext _)) fun _ _ => .bind_last (hsingle _) ?_
  rintro layout' ⟨pair', hlayout', htag'⟩
  exact .pure ⟨.fold (.importAs (htag' _ ⟨ts', _, rfl, htemplate'.1, hwords⟩) hlayout'), rfl⟩

theorem crosses_importNames {names : List ImportedName}
    (h : TagSpelled table False "from" (Then (Spells False .value template)
      (Then (Words ["import".toList]) (Then (Listed ImportSpelled names)
        (Words (contextWords withContext))))) pair ts us) :
    Crosses table (statementContent visit (.importNames template names withContext layout)) ts us
      fun stmt => StmtSpells table True stmt ts us ∧ stmt.kind = "FromImport" := by
  refine crosses_single htable h ?_
  rintro tag _ last ⟨ts', _, rfl, htemplate, ts₁, _, rfl, hword, ts₂, ts₃, rfl, hnames, hcontext⟩
    hsingle
  simp only [append_assoc]
  refine .bind_at (hguided.expr htemplate) (by simp) fun template' htemplate' => ?_
  refine .bind_at (.expectWord htable hword) (by simp) fun _ _ => ?_
  refine .bind_at (passes_importedNames htable hnames) (by simp) fun _ _ => ?_
  refine .bind_of (passes_contextChoice htable hcontext) fun _ _ => .bind_last (hsingle _) ?_
  rintro layout' ⟨pair', hlayout', htag'⟩
  exact .pure ⟨.fold (.importNames (htag' _ ⟨ts', _, rfl, htemplate'.1, ts₁, _, rfl, hword, ts₂, ts₃,
    rfl, hnames, hcontext⟩) hlayout'), rfl⟩

theorem crosses_assign {target value : Expr}
    (h : TagSpelled table False "set" (Then (SetTarget False target)
      (Then (Symbol "=") (Spells False .value value))) pair ts us) :
    Crosses table (statementContent visit (.assign target value layout)) ts us
      fun stmt => StmtSpells table True stmt ts us ∧ stmt.kind = "Assign" := by
  refine crosses_single htable h ?_
  rintro tag _ last ⟨ts', _, rfl, htarget, _, ts'', rfl, ⟨equals, rfl, hequals⟩, hvalue⟩ hsingle
  simp only [append_assoc, singleton_append]
  refine .bind_at (passes_setTarget hguided htarget) (by simp) fun target' htarget' => ?_
  refine .operator_bind htable hequals ?_
  refine .bind_of (hguided.expr hvalue) fun value' hvalue' => .bind_last (hsingle _) ?_
  rintro layout' ⟨pair', hlayout', htag'⟩
  exact .pure ⟨.fold (.assign (htag' _ ⟨ts', _, rfl, htarget', [equals], ts'', rfl,
    ⟨equals, rfl, hequals⟩, hvalue'.1⟩) hlayout'), rfl⟩

theorem crosses_capture {target : Expr} {filter : Option Expr}
    (h : EnclosedSpelled table False (StmtSpells table False) "set" "endset"
      (Then (SetTarget False target) (Possibly (Spells False .filter) filter)) Nothing stmts pairs
      ts us) :
    Crosses table (statementContent visit (.capture target filter stmts layout)) ts us
      fun stmt => StmtSpells table True stmt ts us ∧ stmt.kind = "AssignBlock" := by
  refine crosses_enclosed hguided htable h ?_
  rintro tag _ last ⟨ts', ts'', rfl, htarget, hfilter⟩ henclosed
  simp only [append_assoc]
  refine .bind_at (passes_setTarget hguided htarget) (by simp) fun target' htarget' => ?_
  refine .bind_of (passes_optional hguided hfilter) fun filter' hfilter' => .bind_last (henclosed _) ?_
  rintro ⟨stmts', layout'⟩ ⟨pairs', hlayout', henclosed'⟩
  exact .pure ⟨.fold (.capture (henclosed' _ ⟨ts', ts'', rfl, htarget', hfilter'⟩) hlayout'), rfl⟩

theorem crosses_macroBlock {name : Text} {parameters defaults : List Expr}
    (h : EnclosedSpelled table False (StmtSpells table False) "macro" "endmacro"
      (Then (Words [name]) (SignatureSpelled False parameters defaults)) Nothing stmts pairs ts us) :
    Crosses table (statementContent visit (.macroBlock name parameters defaults stmts layout)) ts us
      fun stmt => StmtSpells table True stmt ts us ∧ stmt.kind = "Macro" := by
  refine crosses_enclosed hguided htable h ?_
  rintro tag _ last ⟨ts', ts'', rfl, hname, hsignature⟩ henclosed
  simp only [append_assoc]
  refine .bind_at (.expectWord htable hname) (by simp) fun _ _ => ?_
  refine .bind_of (passes_signature hguided htable hsignature) ?_
  rintro ⟨parameters', defaults'⟩ hsignature'
  refine .bind_last (henclosed _) ?_
  rintro ⟨stmts', layout'⟩ ⟨pairs', hlayout', henclosed'⟩
  exact .pure ⟨.fold (.macroBlock (henclosed' _ ⟨ts', ts'', rfl, hname, hsignature'⟩) hlayout'), rfl⟩

theorem crosses_autoescape {key : Text} {value : Expr} {optionLayout : Layout}
    (h : EnclosedSpelled table False (StmtSpells table False) "autoescape" "endautoescape"
      (Spells False .value value) Nothing stmts pairs ts us) :
    Crosses table (statementContent visit (.autoescape [⟨key, value, optionLayout⟩] stmts layout))
      ts us fun stmt =>
        StmtSpells table True stmt ts us ∧ stmt.kind = "ScopedEvalContextModifier" := by
  refine crosses_enclosed hguided htable h fun tag inner last hvalue henclosed => ?_
  rw [mapM_cons, mapM_nil]
  simp only [bind_assoc, pure_bind]
  refine .bind_of (hguided.expr hvalue) fun value' hvalue' => .bind_last (henclosed _) ?_
  rintro ⟨stmts', layout'⟩ ⟨pairs', hlayout', henclosed'⟩
  exact .pure ⟨.fold (.autoescape (henclosed' _ hvalue'.1) (fun _ => rfl) hlayout'), rfl⟩

omit hguided htable in
theorem isCall_eq_of_kind_eq {expr expr' : Expr} (h : expr'.kind = expr.kind) :
    expr'.isCall = expr.isCall := by
  have hiff : ∀ expr : Expr, expr.isCall = true ↔ expr.kind = "Call" := by
    intro expr
    cases expr <;> simp [Expr.isCall, Expr.kind]
  rw [Bool.eq_iff_iff, hiff, hiff, h]

theorem crosses_callBlock {call : Expr} {parameters defaults : List Expr} (hcall : call.isCall)
    (h : EnclosedSpelled table False (StmtSpells table False) "call" "endcall"
      (Then (fun ts us => SignatureSpelled False parameters defaults ts us ∨
          parameters = [] ∧ defaults = [] ∧ ts = [] ∧ NotNext (·.isOperator "(") us)
        (Spells False .value call)) Nothing stmts pairs ts us) :
    Crosses table (statementContent visit (.callBlock call parameters defaults stmts layout)) ts us
      fun stmt => StmtSpells table True stmt ts us ∧ stmt.kind = "CallBlock" := by
  refine crosses_enclosed hguided htable h ?_
  rintro tag _ last ⟨ts', ts'', rfl, hsignature, hexpr⟩ henclosed
  have hrest : ∀ both : List Expr × List Expr,
      (SignatureSpelled True both.1 both.2 ts' (ts'' ++ (last ++ us)) ∨ both.1 = [] ∧ both.2 = [] ∧
        ts' = [] ∧ NotNext (·.isOperator "(") (ts'' ++ (last ++ us))) →
      Closes table (do
        let call ← visit.expr call
        let body ← enclosed visit layout tag stmts "endcall"
        return Stmt.callBlock call both.1 both.2 body.1 body.2) (ts'' ++ last) us fun stmt =>
          StmtSpells table True stmt ts us ∧ stmt.kind = "CallBlock" := by
    intro both hboth
    refine .bind_of (hguided.expr hexpr) ?_
    rintro call' ⟨hcall', hkind⟩
    refine .bind_last (henclosed _) ?_
    rintro ⟨stmts', layout'⟩ ⟨pairs', hlayout', henclosed'⟩
    refine .pure ⟨.fold (.callBlock ?_ (henclosed' _ ⟨ts', ts'', rfl, hboth, hcall'⟩) hlayout'), rfl⟩
    rwa [isCall_eq_of_kind_eq hkind]
  rw [append_assoc]
  rcases hsignature with hsignature | ⟨rfl, rfl, rfl, hnext⟩
  · have hopening : ∃ opening ts, ts' = opening :: ts ∧ opening.isOperator "(" := by
      cases hsignature with
      | mk hopening _ _ => exact ⟨_, _, rfl, hopening⟩
    obtain ⟨opening, ts, rfl, hopening⟩ := hopening
    refine .nextIs_of hopening (.bind_at (passes_signature hguided htable hsignature) (by simp) ?_)
    exact fun both hboth => hrest both (.inl hboth)
  · exact .nextIs_not (by simpa using hnext) (hrest ([], []) (.inr ⟨rfl, rfl, rfl, hnext⟩))

end Content

omit hguided htable in
theorem exists_autoescape {stmt : Stmt} (h : stmt.kind = "ScopedEvalContextModifier") :
    ∃ options stmts layout, stmt = .autoescape options stmts layout := by
  cases stmt with
  | autoescape options stmts layout => exact ⟨options, stmts, layout, rfl⟩
  | _ => simp [Stmt.kind] at h

omit hguided htable in
theorem span_autoescape {options : List (Keyword Expr)}
    (h : StmtSpells table True (.autoescape options stmts layout) ts us) :
    layout.span = some (reachOf table ts) ∧ ts ≠ [] := by
  cases h.unfold with
  | autoescape henclosed _ hsealed =>
      refine ⟨(hsealed trivial).1, ?_⟩
      cases henclosed with
      | mk hfirst _ _ => simp [TagSpelled.ne_nil hfirst]

omit htable in
theorem crosses_scope {options : List (Keyword Expr)} {innerLayout : Layout}
    (h : StmtSpells table False (.autoescape options stmts innerLayout) ts us) :
    Crosses table (statementContent visit (.scope [.autoescape options stmts innerLayout] layout)) ts us
      fun stmt => StmtSpells table True stmt ts us ∧ stmt.kind = "Scope" := by
  intro done walk hwalk
  have hone : Chained (StmtSpells table False) [.autoescape options stmts innerLayout] (ts ++ []) us :=
    .cons h .nil
  rw [append_nil] at hone
  refine .bind (.inr ⟨walk.cursor.index, walk, rfl, ?_⟩)
  refine .bind_of (crosses_body hguided hone done walk hwalk) ?_
  rintro stmts' next ⟨⟨hstmts', hkinds⟩, hnext⟩
  cases hkinds with
  | @cons _ stmt _ _ hkind hnone =>
      cases hnone
      cases hstmts' with
      | cons hstmt hnone =>
          cases hnone
          rw [append_nil] at hnext ⊢
          obtain ⟨options', stmts', layout', rfl⟩ := exists_autoescape hkind
          obtain ⟨hspan, hne⟩ := span_autoescape hstmt
          refine .bind (.inr ⟨next.cursor.index, next, rfl, .pure ⟨⟨?_, rfl⟩, hnext⟩⟩)
          refine .fold (.scope hstmt fun _ => congrArg some ?_)
          simp only [firstToken?, Stmt.layout, hspan, Option.map_some, Option.getD_some]
          rw [hnext.index_eq, behind_append hne]

omit hguided in
theorem crosses_keyword {keyword : Text} {pair : TagPair} {stmt : Layout → Stmt}
    {good : Stmt → Prop} (h : TagSpelled table False keyword Nothing pair ts us)
    (hgood : ∀ pair layout', TagSpelled table True keyword Nothing pair ts us →
      Sealed table True layout' [pair] ts → good (stmt layout')) :
    Crosses table (do return stmt (← single layout (← blockTag keyword))) ts us good := by
  refine crosses_single htable h ?_
  rintro tag _ last rfl hsingle
  refine .bind_last (hsingle _) ?_
  rintro layout' ⟨pair', hlayout', htag'⟩
  exact .pure (hgood pair' layout' (htag' _ rfl) hlayout')

theorem crosses_value {keyword : Text} {pair : TagPair} {expr : Expr} {stmt : Expr → Layout → Stmt}
    {good : Stmt → Prop} (h : TagSpelled table False keyword (Spells False .value expr) pair ts us)
    (hgood : ∀ expr' pair layout', TagSpelled table True keyword (Spells True .value expr') pair ts us →
      Sealed table True layout' [pair] ts → good (stmt expr' layout')) :
    Crosses table (do
      let tag ← blockTag keyword
      let expr ← visit.expr expr
      return stmt expr (← single layout tag)) ts us good := by
  refine crosses_single htable h fun tag inner last hexpr hsingle => ?_
  refine .bind_of (hguided.expr hexpr) fun expr' hexpr' => .bind_last (hsingle _) ?_
  rintro layout' ⟨pair', hlayout', htag'⟩
  exact .pure (hgood expr' pair' layout' (htag' _ hexpr'.1) hlayout')

theorem crosses_statementContent {stmt : Stmt}
    (h : StmtLayer table False (StmtSpells table False) stmt ts us) :
    Crosses table (statementContent visit stmt) ts us fun stmt' =>
      StmtSpells table True stmt' ts us ∧ stmt'.kind = stmt.kind := by
  cases h with
  | output hne hparts _ => exact crosses_output hguided htable hne hparts
  | print htag _ =>
      refine crosses_single htable htag fun tag inner last hnodes hsingle => ?_
      refine .bind_of (.listed htable (fun _ _ _ hnode => hguided.expr hnode) hnodes) ?_
      rintro nodes' ⟨hnodes', -⟩
      refine .bind_last (hsingle _) ?_
      rintro layout' ⟨pair', hlayout', htag'⟩
      exact .pure ⟨.fold (.print (htag' _ hnodes') hlayout'), rfl⟩
  | extend htag _ =>
      exact crosses_value hguided htable htag fun template' pair' layout' htag' hlayout' =>
        ⟨.fold (.extend htag' hlayout'), rfl⟩
  | block henclosed _ => exact crosses_block hguided htable henclosed
  | insert htag _ => exact crosses_insert hguided htable htag
  | importAs htag _ => exact crosses_importAs hguided htable htag
  | importNames htag _ => exact crosses_importNames hguided htable htag
  | loop hfirst hstmts hothers hlast hsealed =>
      exact crosses_loop hguided htable (.loop hfirst hstmts hothers hlast hsealed)
  | branch hfirst hstmts hbranches hothers hlast hsealed =>
      refine .map ((crosses_branch hguided htable
        (.branch hfirst hstmts hbranches hothers hlast hsealed)).mono ?_)
      exact fun first' hfirst' => ⟨hfirst', rfl⟩
  | bind henclosed _ => exact crosses_bind hguided htable henclosed
  | perform htag _ =>
      exact crosses_value hguided htable htag fun node' pair' layout' htag' hlayout' =>
        ⟨.fold (.perform htag' hlayout'), rfl⟩
  | assign htag _ => exact crosses_assign hguided htable htag
  | capture henclosed _ => exact crosses_capture hguided htable henclosed
  | filterBlock henclosed _ =>
      refine crosses_enclosed hguided htable henclosed fun tag inner last hfilter henclosed => ?_
      refine .bind_of (hguided.expr hfilter) fun filter' hfilter' => .bind_last (henclosed _) ?_
      rintro ⟨stmts', layout'⟩ ⟨pairs', hlayout', henclosed'⟩
      exact .pure ⟨.fold (.filterBlock (henclosed' _ hfilter'.1) hlayout'), rfl⟩
  | macroBlock henclosed _ => exact crosses_macroBlock hguided htable henclosed
  | callBlock hcall henclosed _ => exact crosses_callBlock hguided htable hcall henclosed
  | skip htag _ =>
      exact crosses_keyword htable htag fun pair' layout' htag' hlayout' =>
        ⟨.fold (.skip htag' hlayout'), rfl⟩
  | leave htag _ =>
      exact crosses_keyword htable htag fun pair' layout' htag' hlayout' =>
        ⟨.fold (.leave htag' hlayout'), rfl⟩
  | scope hinner _ => exact crosses_scope hguided hinner
  | autoescape henclosed _ _ => exact crosses_autoescape hguided htable henclosed

end Statements

end JinjaLayout.Alignment
