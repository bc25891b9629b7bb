import Mathlib
import JinjaLayout.Proofs.NodeRows

/-!
Trees in which every node knows its tokens. Main statement: a tree that marked tokens spell is such
a tree.
-/

namespace JinjaLayout

open List

namespace Node

/-- All the nodes that a node is made of. A node holds more of them than it has children if a list of
its parts is longer than the one that goes with it. -/
def inside : Node → List Node
  | stmt (.bind targets values body _) =>
      targets.map expr ++ values.map expr ++ body.map stmt
  | stmt (.macroBlock _ parameters defaults body _) =>
      parameters.map expr ++ defaults.map expr ++ body.map stmt
  | stmt (.callBlock call parameters defaults body _) =>
      expr call :: (parameters.map expr ++ defaults.map expr ++ body.map stmt)
  | branch (.mk test body others orElse _) =>
      expr test :: (body.map stmt ++ others.map branch ++ orElse.map stmt)
  | node => node.children

/-- The node and all that it is made of know their tokens. -/
inductive IsMarked : Node → Prop where
  | mk {node : Node} (hspan : node.layout.span.isSome)
      (h : ∀ child ∈ node.inside, IsMarked child) : IsMarked node

theorem isMarked_iff {node : Node} : node.IsMarked ↔
    node.layout.span.isSome ∧ ∀ child ∈ node.inside, child.IsMarked := by
  constructor
  · rintro ⟨hspan, h⟩
    exact ⟨hspan, h⟩
  · rintro ⟨hspan, h⟩
    exact .mk hspan h

end Node

namespace Spelling

open Node

variable {table ts us : List Token} {spelled : Spelling Stmt} {node : Node}

theorem Chained.forall_mem {α : Type} {spelled : Spelling α} {values : List α} {good : α → Prop}
    (h : Chained spelled values ts us) (hgood : ∀ value ts us, spelled value ts us → good value) :
    ∀ value ∈ values, good value := by
  induction h with
  | nil => simp
  | cons hvalue _ ih => simpa using ⟨hgood _ _ _ hvalue, ih⟩

theorem ExprPart.isMarked {spelled : Place → Spelling Expr} (h : ExprPart spelled node ts us)
    (hspelled : ∀ place expr ts us, spelled place expr ts us → (Node.expr expr).IsMarked) :
    node.IsMarked := by
  cases h with
  | expr hexpr => exact hspelled _ _ _ _ hexpr
  | entry hentry =>
      cases hentry with
      | mk hkey _ hvalue hmarked =>
          refine .mk (Option.isSome_of_eq_some (hmarked trivial)) ?_
          simpa [inside, children] using ⟨hspelled _ _ _ _ hkey, hspelled _ _ _ _ hvalue⟩
  | keyword hargument =>
      cases hargument with
      | keyword _ _ hvalue hmarked =>
          refine .mk (Option.isSome_of_eq_some (hmarked trivial)) ?_
          simpa [inside, children] using hspelled _ _ _ _ hvalue
  | operand hoperand =>
      cases hoperand with
      | mk _ hvalue hmarked =>
          refine .mk (Option.isSome_of_eq_some (hmarked trivial)) ?_
          simpa [inside, children] using hspelled _ _ _ _ hvalue
  | empty _ hspan =>
      exact .mk (Option.isSome_of_eq_some hspan) (by simp [inside, children, ofExpr])

theorem Spells.isMarked {place : Place} {expr : Expr} (h : Spells True place expr ts us) :
    (Node.expr expr).IsMarked := by
  refine induct (motive := fun _ expr _ _ => (Node.expr expr).IsMarked) ?_ h
  intro place expr ts us hlayer
  obtain ⟨nodes, hnodes, hrow⟩ := hlayer.row
  refine .mk (Option.isSome_of_eq_some hlayer.span_eq) fun child hchild => ?_
  obtain ⟨_, _, hpart, -⟩ := hrow.exists_of_mem ((Lists.perm hnodes).symm.subset hchild)
  exact hpart.isMarked fun _ _ _ _ => And.right

/-! ### Statements -/

theorem SignatureSpelled.mem_ofSignature {parameters defaults : List Expr}
    (h : SignatureSpelled True parameters defaults ts us) :
    ∀ child ∈ parameters.map Node.expr ++ defaults.map Node.expr,
      child ∈ ofSignature parameters defaults := by
  cases h with
  | @mk plain withs =>
      simp only [ofSignature, Alignment.withDefaults_eq, forall_mem_append, forall_mem_map,
        mem_flatMap]
      refine ⟨⟨fun item hitem => ⟨(item, none), ?_⟩, fun item hitem => ⟨(item.1, some item.2), ?_⟩⟩,
        fun item hitem => ⟨(item.1, some item.2), ?_⟩⟩
      · simp [hitem]
      all_goals exact ⟨mem_append_right _ (mem_map_of_mem hitem), by simp⟩

theorem StmtLayer.mem_children {stmt : Stmt} (h : StmtLayer table True spelled stmt ts us) :
    ∀ child ∈ (Node.stmt stmt).inside, child ∈ (Node.stmt stmt).children := by
  cases h with
  | @bind bindings =>
      simp only [inside, children, ofStmt, zip_map', forall_mem_append, forall_mem_map]
      refine ⟨⟨fun item hitem => ?_, fun item hitem => ?_⟩, fun stmt hstmt =>
        mem_append_right _ (mem_map_of_mem hstmt)⟩
      all_goals
        refine mem_append_left _ (mem_flatMap.mpr ⟨item, ?_, by simp⟩)
        exact mem_map.mpr ⟨item, hitem, rfl⟩
  | macroBlock henclosed _ =>
      obtain ⟨⟨-, -, ⟨_, _, -, -, hsignature⟩, -, -, -⟩, -, -⟩ := henclosed
      exact forall_mem_append.mpr
        ⟨fun child hchild => mem_append_left _ (hsignature.mem_ofSignature child hchild),
          fun child => mem_append_right _⟩
  | callBlock _ henclosed _ =>
      obtain ⟨⟨-, -, ⟨_, _, -, hsignature | ⟨rfl, rfl, -⟩, -⟩, -, -, -⟩, -, -⟩ := henclosed
      · simp only [inside, children, ofStmt, mem_append, mem_cons]
        rintro child (rfl | hchild | hbody)
        · simp
        · exact .inl (hsignature.mem_ofSignature child (mem_append.mpr hchild))
        · simp [hbody]
      · simp [inside, children, ofStmt, ofSignature, withDefaults]
  | _ => exact fun _ => id

theorem StmtPart.isMarked (h : StmtPart table spelled node ts us)
    (hspelled : ∀ stmt ts us, spelled stmt ts us → (Node.stmt stmt).IsMarked) : node.IsMarked := by
  cases h with
  | part hpart => exact hpart.isMarked fun _ _ _ _ => Spells.isMarked
  | text htext =>
      cases htext with
      | data _ _ hmarked =>
          refine .mk (Option.isSome_of_eq_some (hmarked trivial).2) ?_
          simp [inside, children, ofExpr]
  | option hvalue hspan =>
      exact .mk (Option.isSome_of_eq_some (hspan.trans hvalue.unfold.span_eq))
        (forall_mem_singleton.mpr hvalue.isMarked)
  | branch hbranch =>
      have hrow : Row (fun node _ _ => node.IsMarked) (fun _ => True) _ _ _ :=
        hbranch.row (fun _ _ _ _ => Spells.isMarked) hspelled
      cases hbranch with
      | mk _ _ hsealed =>
          refine .mk (Option.isSome_of_eq_some (hsealed trivial).1) fun child hchild => ?_
          obtain ⟨_, _, hmarked, -⟩ := hrow.exists_of_mem (by simpa [inside, children] using hchild)
          exact hmarked
  | stmt hstmt => exact hspelled _ _ _ hstmt

theorem StmtSpells.isMarked {stmt : Stmt} (h : StmtSpells table True stmt ts us) :
    (Node.stmt stmt).IsMarked := by
  refine induct (motive := fun stmt _ _ => (Node.stmt stmt).IsMarked) ?_ h
  intro stmt ts us hlayer
  have hrow : Row _ (fun _ => True) _ _ _ := hlayer.row fun _ _ => trivial
  refine .mk (Option.isSome_of_eq_some hlayer.span_eq) fun child hchild => ?_
  obtain ⟨_, _, hpart, -⟩ := hrow.exists_of_mem (hlayer.mem_children child hchild)
  exact hpart.isMarked fun _ _ _ => And.right

end Spelling

end JinjaLayout
