import Mathlib
import JinjaLayout.Proofs.NestedSpans
import JinjaLayout.Proofs.OwnPairs

/-!
Where the nodes of an annotated tree stand in the token table. Main statement: if the tokens of a
node stand in the table, so do those of its children, and so on down the tree.
-/

namespace JinjaLayout.Spelling

/-- The tokens of the node stand in the table, before all that comes behind them. -/
inductive Located (table : List Token) : Node → Prop where
  | template {template ts last} (h : TemplateSpells table True template ts last) :
      Located table (.template template)
  | part {node ts us} (h : StmtPart table (StmtSpells table True) node ts us)
      (hsuffix : ts ++ us <:+ significant table) : Located table node

variable {table ts us : List Token} {node : Node}

theorem suffix_of_append {all back : List Token} (front : List Token) (h : front ++ back <:+ all) :
    back <:+ all :=
  (List.suffix_append front back).trans h

theorem Wraps.suffix {ts' : List Token} {groups : List (Token × Token)} (h : Wraps ts ts' groups)
    (us : List Token) : ts ++ (groups.map Prod.snd ++ us) <:+ ts' ++ us := by
  induction h generalizing us with
  | bare => exact List.suffix_rfl
  | @paren ts' groups opening closing _ _ _ ih =>
      have hinner := ih (closing :: us)
      simp only [List.map_append, List.map_cons, List.map_nil, List.append_assoc, List.cons_append,
        List.nil_append]
      exact hinner.trans (List.suffix_cons opening _)

theorem ExprPart.row (h : ExprPart (Spells True) node ts us) :
    ∃ nodes, node.Lists nodes ∧ Row (ExprPart (Spells True)) (fun _ => True) nodes ts us := by
  cases h with
  | expr hexpr => exact hexpr.unfold.row
  | entry hentry => exact ⟨_, .children, hentry.row fun _ _ _ _ => .expr⟩
  | keyword hargument => exact ⟨_, .children, hargument.row fun _ _ _ _ => .expr⟩
  | operand hoperand => exact ⟨_, .children, hoperand.row fun _ _ _ _ => .expr⟩
  | empty => exact ⟨_, .children, .free fun _ _ _ => trivial⟩

theorem StmtPart.row (h : StmtPart table (StmtSpells table True) node ts us) :
    ∃ nodes, node.Lists nodes ∧
      Row (StmtPart table (StmtSpells table True)) (fun _ => True) nodes ts us := by
  cases h with
  | part hpart =>
      obtain ⟨nodes, hnodes, hrow⟩ := hpart.row
      exact ⟨nodes, hnodes, hrow.mono fun _ _ _ => .part⟩
  | text htext =>
      cases htext
      exact ⟨_, .children, .free fun _ _ _ => trivial⟩
  | option hvalue _ => exact ⟨_, .children, .one (.part (.expr hvalue))⟩
  | branch hbranch =>
      exact ⟨_, .children, hbranch.row (fun _ _ _ _ hexpr => .part (.expr hexpr)) fun _ _ _ => .stmt⟩
  | stmt hstmt => exact ⟨_, .children, hstmt.unfold.row fun _ _ => trivial⟩

theorem TemplateSpells.located {template : Template} {last : Token}
    (h : TemplateSpells table True template ts last) : Located table (.template template) :=
  .template h

theorem Located.stmt {stmt : Stmt} (h : Located table (.stmt stmt)) :
    ∃ ts us, StmtSpells table True stmt ts us ∧ ts ++ us <:+ significant table := by
  obtain _ | ⟨(⟨⟨⟩⟩ | _ | _ | _ | hstmt), hsuffix⟩ := h
  exact ⟨_, _, hstmt, hsuffix⟩

theorem Row.located {nodes : List Node}
    (h : Row (StmtPart table (StmtSpells table True)) (fun _ => True) nodes ts us)
    (hsuffix : ts ++ us <:+ significant table) : ∀ child ∈ nodes, Located table child := by
  intro child hchild
  obtain ⟨_, _, hpart, hinner⟩ := h.exists_of_mem hchild
  exact .part hpart (hinner.trans hsuffix)

theorem Located.children (h : Located table node) :
    ∀ child ∈ node.children, Located table child := by
  cases h with
  | template hspells =>
      exact Row.located (hspells.body.rowStmts fun _ _ _ => .stmt) (hspells.split ▸ List.suffix_rfl)
  | part hpart hsuffix =>
      obtain ⟨nodes, hnodes, hrow⟩ := hpart.row
      exact fun child hchild => hrow.located hsuffix child ((Lists.perm hnodes).symm.subset hchild)

theorem Located.preorder {depth : Nat} (h : Located table node) {item : Nat × Node}
    (hitem : item ∈ node.preorder depth) : Located table item.2 := by
  induction depth, node using Node.preorder.induct with
  | case1 depth node ih =>
      rw [Node.preorder, List.mem_cons, List.mem_flatMap] at hitem
      rcases hitem with rfl | ⟨⟨child, hchild⟩, -, hitem⟩
      · exact h
      · exact ih ⟨child, hchild⟩ (h.children child hchild) hitem

end JinjaLayout.Spelling
