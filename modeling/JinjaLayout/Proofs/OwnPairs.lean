import Mathlib
import JinjaLayout.Proofs.FormedTemplates
import JinjaLayout.Proofs.Marked

/-!
Which nodes store pairs of tokens. A tree that is read stores none. Template text, the parts of
displays, calls and comparisons, and the scope around an `autoescape` have no pairs of their own.
-/

namespace JinjaLayout

open List

namespace Node

/-! ### All the nodes of a tree -/

/-- The property holds of the node and of all that it is made of. -/
inductive Everywhere (good : Node → Prop) : Node → Prop where
  | mk {node : Node} (hnode : good node) (h : ∀ child ∈ node.inside, Everywhere good child) :
      Everywhere good node

variable {good : Node → Prop} {node : Node}

theorem Everywhere.mono {good' : Node → Prop} (himp : ∀ node, good node → good' node)
    (h : node.Everywhere good) : node.Everywhere good' := by
  induction h with
  | mk hnode _ ih => exact .mk (himp _ hnode) ih

theorem Everywhere.holds (h : node.Everywhere good) : good node := by
  obtain ⟨hnode, _⟩ := h
  exact hnode

theorem Everywhere.of_inside (h : node.Everywhere good) :
    ∀ child ∈ node.inside, child.Everywhere good := by
  obtain ⟨_, h⟩ := h
  exact h

theorem forall_mem_ofArguments {arguments : Arguments Expr} :
    (∀ child ∈ ofArguments arguments, good child) ↔
      (∀ value ∈ arguments.positional, good (expr value)) ∧
        (∀ argument ∈ arguments.keywords, good (keyword argument)) ∧
          (∀ value ∈ arguments.star, good (expr value)) ∧
            ∀ value ∈ arguments.doubleStar, good (expr value) := by
  simp only [ofArguments, forall_mem_append, forall_mem_map, Option.mem_toList,
    Option.mem_def, and_assoc]

theorem mem_of_mem_ofSignature {parameters defaults : List Expr} {child : Node}
    (h : child ∈ ofSignature parameters defaults) :
    child ∈ parameters.map expr ++ defaults.map expr := by
  simp only [ofSignature, mem_flatMap, mem_cons, mem_map, Option.mem_toList] at h
  obtain ⟨⟨parameter, value⟩, hmem, rfl | ⟨item, hitem, rfl⟩⟩ := h
  · simp [(mem_withDefaults hmem).1]
  · simp [(mem_withDefaults hmem).2 item hitem]

theorem mem_inside_of_mem_children {child : Node} (h : child ∈ node.children) :
    child ∈ node.inside := by
  unfold inside
  split
  · simp only [children, ofStmt, mem_append, mem_flatMap, mem_cons,
      not_mem_nil, or_false] at h
    obtain ⟨⟨target, value⟩, hmem, rfl | rfl⟩ | hbody := h
    · simp [(of_mem_zip hmem).1]
    · simp [(of_mem_zip hmem).2]
    · simp [hbody]
  · rcases mem_append.mp h with hparameter | hbody
    · exact mem_append_left _ (mem_of_mem_ofSignature hparameter)
    · exact mem_append_right _ hbody
  · rcases mem_append.mp h with hparameter | hrest
    · exact mem_cons_of_mem _ (mem_append_left _ (mem_of_mem_ofSignature hparameter))
    · rcases mem_cons.mp hrest with rfl | hbody
      · exact mem_cons_self
      · exact mem_cons_of_mem _ (mem_append_right _ hbody)
  · rcases mem_cons.mp h with rfl | hbody
    · exact mem_cons_self
    · simp [hbody]
  · exact h

theorem Everywhere.of_mem_preorder (h : node.Everywhere good) {depth : Nat} {entry : Nat × Node}
    (hentry : entry ∈ node.preorder depth) : good entry.2 := by
  induction h generalizing depth with
  | mk hnode _ ih =>
      rw [preorder, mem_cons, mem_flatMap] at hentry
      obtain rfl | ⟨⟨child, hchild⟩, -, hentry⟩ := hentry
      · exact hnode
      · exact ih child (mem_inside_of_mem_children hchild) hentry

/-! ### Trees that were read -/

def StoresNothing (node : Node) : Prop :=
  node.layout.pairs = []

theorem pairs_of_isLine {layout : Layout} (h : layout.IsLine) : layout.pairs = [] := by
  obtain ⟨line, rfl⟩ := h
  rfl

theorem everywhere_of_isLine (hline : node.layout.IsLine)
    (h : ∀ child ∈ node.inside, child.Everywhere StoresNothing) : node.Everywhere StoresNothing :=
  .mk (pairs_of_isLine hline) h

theorem everywhere_keyword {argument : Keyword Expr} (hline : argument.layout.IsLine)
    (h : (expr argument.value).Everywhere StoresNothing) :
    (keyword argument).Everywhere StoresNothing :=
  everywhere_of_isLine hline (by simpa [inside, children] using h)

theorem everywhere_ofArguments {arguments : Arguments Expr}
    (hvalues : ∀ value ∈ arguments.values, (expr value).Everywhere StoresNothing)
    (hlines : arguments.AreOnLines) :
    ∀ child ∈ ofArguments arguments, child.Everywhere StoresNothing := by
  simp only [Arguments.values, forall_mem_append, forall_mem_map] at hvalues
  obtain ⟨⟨⟨hpositional, hkeywords⟩, hstar⟩, hdoubleStar⟩ := hvalues
  simp only [ofArguments, forall_mem_append, forall_mem_map]
  exact ⟨⟨⟨hpositional, fun argument hmem => everywhere_keyword (hlines argument hmem)
    (hkeywords argument hmem)⟩, hstar⟩, hdoubleStar⟩

end Node

open Node

variable {expr : Expr}

theorem Expr.IsFormed.storesNothing {role : Role} (h : expr.IsFormed role) :
    (Node.expr expr).Everywhere StoresNothing := by
  induction h with
  | name | const | target => exact .mk rfl (by simp [inside, children, ofExpr])
  | tuple _ ih | list _ ih | concat _ ih | subscripts _ ih | targets _ ih =>
      exact .mk rfl (forall_mem_map.mpr ih)
  | dict _ _ hlines ihkeys ihvalues =>
      refine .mk rfl (forall_mem_map.mpr fun entry hentry => ?_)
      refine everywhere_of_isLine (hlines entry hentry) ?_
      simpa [inside, children] using ⟨ihkeys entry hentry, ihvalues entry hentry⟩
  | conditional _ _ _ ihtest ihtrue ihfalse =>
      exact .mk rfl (by simpa [inside, children, ofExpr] using ⟨ihtrue, ihtest, ihfalse⟩)
  | binary _ _ ihleft ihright =>
      exact .mk rfl (by simpa [inside, children, ofExpr] using ⟨ihleft, ihright⟩)
  | unary _ ih | inline _ _ ih | attr _ ih =>
      exact .mk rfl (by simpa [inside, children, ofExpr] using ih)
  | compare _ _ hlines ihfirst ihvalues =>
      refine .mk rfl (forall_mem_cons.mpr ⟨ihfirst, ?_⟩)
      refine forall_mem_map.mpr fun operand hoperand => ?_
      refine everywhere_of_isLine (hlines operand hoperand) ?_
      simpa [inside, children] using ihvalues operand hoperand
  | dotted _ _ ih =>
      have hindex : ∀ {value line}, (Node.expr (.const value (.onLine line))).Everywhere
          StoresNothing := .mk rfl (by simp [inside, children, ofExpr])
      exact .mk rfl (by simpa [inside, children, ofExpr] using ⟨ih, hindex⟩)
  | item _ _ ihoperand ihindex =>
      exact .mk rfl (by simpa [inside, children, ofExpr] using ⟨ihoperand, ihindex⟩)
  | test _ _ hlines ihoperand ihvalues | call _ _ hlines ihoperand ihvalues =>
      exact .mk rfl (forall_mem_cons.mpr ⟨ihoperand, everywhere_ofArguments ihvalues hlines⟩)
  | filter _ _ _ hlines ihoperand ihvalues =>
      exact .mk rfl (forall_mem_cons.mpr ⟨ihoperand, everywhere_ofArguments ihvalues hlines⟩)
  | blockFilter _ hlines ihvalues => exact .mk rfl (everywhere_ofArguments ihvalues hlines)
  | subscript _ ih | index _ ih => exact ih
  | slice _ _ _ ihstart ihstop ihstep =>
      refine .mk rfl (forall_mem_map.mpr ?_)
      simp only [forall_mem_append, Option.mem_toList]
      exact ⟨⟨ihstart, ihstop⟩, ihstep⟩

theorem Expr.IsSetTarget.storesNothing (h : expr.IsSetTarget) :
    (Node.expr expr).Everywhere StoresNothing := by
  obtain htarget | ⟨ident, key, line, rfl⟩ := h
  · exact htarget.2.storesNothing
  · exact .mk rfl (by simp [inside, children, ofExpr])

theorem Expr.IsParameter.storesNothing (h : expr.IsParameter) :
    (Node.expr expr).Everywhere StoresNothing := by
  obtain ⟨-, ident, line, rfl⟩ := h
  exact .mk rfl (by simp [inside, children, ofExpr])

theorem Expr.IsPiece.storesNothing (h : expr.IsPiece) :
    (Node.expr expr).Everywhere StoresNothing := by
  obtain hvalue | ⟨text, line, rfl⟩ := h
  · exact hvalue.storesNothing
  · exact .mk rfl (by simp [inside, children, ofExpr])

theorem Stmt.exists_of_scope {stmts : List Stmt} {layout : Layout}
    (h : (Stmt.scope stmts layout).HasForm) :
    ∃ option inner innerLayout, stmts = [.autoescape [option] inner innerLayout] ∧ layout.IsLine ∧
      innerLayout.IsLine ∧ option.layout.IsLine ∧ option.value.IsFormed .value := by
  rcases stmts with _ | ⟨stmt, _ | ⟨second, more⟩⟩
  · exact False.elim h
  · cases stmt with
    | autoescape options inner innerLayout =>
        rcases options with _ | ⟨option, _ | ⟨other, others⟩⟩
        · exact False.elim h
        · exact ⟨option, inner, innerLayout, rfl, h⟩
        · exact False.elim h
    | _ => exact False.elim h
  · simp [HasForm] at h

theorem Stmt.IsFormed.storesNothing {stmt : Stmt} (h : stmt.IsFormed) :
    (Node.stmt stmt).Everywhere StoresNothing := by
  induction h with
  | @mk stmt hform _ _ ih =>
      cases stmt with
      | output nodes layout =>
          obtain ⟨hline, -, hnodes⟩ := hform
          exact everywhere_of_isLine hline
            (forall_mem_map.mpr fun node hnode => (hnodes node hnode).storesNothing)
      | print nodes layout =>
          obtain ⟨hline, hnodes⟩ := hform
          exact everywhere_of_isLine hline
            (forall_mem_map.mpr fun node hnode => (hnodes node hnode).storesNothing)
      | extend | insert | importAs | importNames | perform =>
          obtain ⟨hline, hexpr⟩ := hform
          exact everywhere_of_isLine hline
            (by simpa [inside, children, ofStmt] using hexpr.storesNothing)
      | block name stmts isScoped isRequired endNamed layout =>
          refine everywhere_of_isLine hform (forall_mem_map.mpr ?_)
          exact ih stmts (by simp [bodies])
      | loop target iterable stmts orElse test nested layout =>
          obtain ⟨hline, htarget, hiterable, htest⟩ := hform
          refine everywhere_of_isLine hline ?_
          simp only [inside, children, ofStmt, cons_append, forall_mem_cons,
            forall_mem_append, forall_mem_map, Option.mem_toList]
          exact ⟨htarget.2.storesNothing, hiterable.storesNothing,
            ⟨fun expr hexpr => (htest expr hexpr).storesNothing, ih stmts (by simp [bodies])⟩,
            ih orElse (by simp [bodies])⟩
      | branch first =>
          obtain ⟨test, stmts, others, orElse, layout⟩ := first
          obtain ⟨hline, htest, hothers⟩ := hform
          refine everywhere_of_isLine hline ?_
          simp only [inside, children, ofStmt, cons_append, forall_mem_cons,
            forall_mem_append, forall_mem_map]
          refine ⟨htest.storesNothing, ⟨ih stmts (by simp [bodies]), ?_⟩, ih orElse (by simp [bodies])⟩
          intro other hother
          obtain ⟨hotherLine, hotherTest, hnone, hnoElse⟩ := hothers other hother
          have hbody := ih other.body
            (mem_cons_of_mem _ (mem_cons_of_mem _ (mem_map_of_mem hother)))
          obtain ⟨otherTest, otherStmts, _, _, otherLayout⟩ := other
          obtain rfl : _ = [] := hnone
          obtain rfl : _ = [] := hnoElse
          refine everywhere_of_isLine hotherLine ?_
          simpa [inside] using ⟨hotherTest.storesNothing, hbody⟩
      | bind targets values stmts layout =>
          obtain ⟨hline, -, htargets, hvalues⟩ := hform
          refine everywhere_of_isLine hline ?_
          simp only [inside, forall_mem_append, forall_mem_map]
          exact ⟨⟨fun target htarget => (htargets target htarget).2.storesNothing,
            fun value hvalue => (hvalues value hvalue).storesNothing⟩, ih stmts (by simp [bodies])⟩
      | assign target value layout =>
          obtain ⟨hline, htarget, hvalue⟩ := hform
          exact everywhere_of_isLine hline (by
            simpa [inside, children, ofStmt] using ⟨htarget.storesNothing, hvalue.storesNothing⟩)
      | capture target filter stmts layout =>
          obtain ⟨hline, htarget, hfilter⟩ := hform
          refine everywhere_of_isLine hline ?_
          simp only [inside, children, ofStmt, cons_append, forall_mem_cons,
            forall_mem_append, forall_mem_map, Option.mem_toList]
          exact ⟨htarget.storesNothing, fun expr hexpr => (hfilter expr hexpr).storesNothing,
            ih stmts (by simp [bodies])⟩
      | filterBlock filter stmts layout =>
          obtain ⟨hline, hfilter⟩ := hform
          refine everywhere_of_isLine hline (forall_mem_cons.mpr ⟨hfilter.storesNothing, ?_⟩)
          exact forall_mem_map.mpr (ih stmts (by simp [bodies]))
      | macroBlock name parameters defaults stmts layout =>
          obtain ⟨hline, hparameters, -, hdefaults⟩ := hform
          refine everywhere_of_isLine hline ?_
          simp only [inside, forall_mem_append, forall_mem_map]
          exact ⟨⟨fun expr hexpr => (hparameters expr hexpr).storesNothing,
            fun expr hexpr => (hdefaults expr hexpr).storesNothing⟩, ih stmts (by simp [bodies])⟩
      | callBlock call parameters defaults stmts layout =>
          obtain ⟨hline, -, hcall, hparameters, -, hdefaults⟩ := hform
          refine everywhere_of_isLine hline ?_
          simp only [inside, forall_mem_cons, forall_mem_append, forall_mem_map]
          exact ⟨hcall.storesNothing, ⟨fun expr hexpr => (hparameters expr hexpr).storesNothing,
            fun expr hexpr => (hdefaults expr hexpr).storesNothing⟩, ih stmts (by simp [bodies])⟩
      | skip | leave => exact everywhere_of_isLine hform (by simp [inside, children, ofStmt])
      | scope stmts layout =>
          obtain ⟨option, inner, innerLayout, rfl, hline, hinner, hoption, hvalue⟩ :=
            exists_of_scope hform
          refine everywhere_of_isLine hline (forall_mem_singleton.mpr ?_)
          refine everywhere_of_isLine hinner ?_
          simp only [inside, children, ofStmt, forall_mem_append, forall_mem_map,
            forall_mem_singleton]
          exact ⟨everywhere_keyword hoption hvalue.storesNothing, ih inner (by simp [bodies])⟩
      | autoescape => exact hform.elim

theorem Template.IsFormed.storesNothing {template : Template} (h : template.IsFormed) :
    ∀ stmt ∈ template.body, (Node.stmt stmt).Everywhere StoresNothing :=
  fun stmt hstmt => (h.stmts stmt hstmt).storesNothing

/-! ### Trees that are annotated -/

/-- Nodes that have no tokens of their own store no pair, and an empty tuple has none but around
tokens. -/
def Node.StoresOwn : Node → Prop
  | .template node => node.layout.pairs = []
  | .entry node => node.layout.pairs = []
  | .keyword node => node.layout.pairs = []
  | .operand node => node.layout.pairs = []
  | .expr (.data _ layout) => layout.pairs = []
  | .expr (.tuple [] _ layout) =>
      layout.pairs ≠ [] → ∃ span, layout.span = some span ∧ span.1 < span.2
  | .stmt (.scope _ layout) => layout.pairs = []
  | _ => True

theorem Node.StoresNothing.storesOwn {node : Node} (h : node.StoresNothing) : node.StoresOwn := by
  unfold StoresOwn
  split
  case h_6 => exact fun hne => absurd h hne
  case h_8 => trivial
  all_goals exact h

end JinjaLayout
