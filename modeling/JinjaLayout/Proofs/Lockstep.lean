import Mathlib
import JinjaLayout.Alignment.Statement
import JinjaLayout.Proofs.BareSpelling
import JinjaLayout.Proofs.OwnPairs
import JinjaLayout.Proofs.Writable

/-!
The walk through a tree beside the walk through the same tree without any layout. Main statement:
what an expression is annotated with hangs on its bare tree only; if every node has found its
tokens, the result has a text; and if the tree stores no pairs, the nodes of the result without tokens
of their own store none.
-/

namespace JinjaLayout.Alignment

open Node List

/-! ### Computations side by side -/

/-- A monad in which two computations can be compared: `InStep first second related` says that they
have the same effects, and results that are related. -/
class Lockstep (m : Type → Type) [Monad m] where
  InStep {α β : Type} : m α → m β → (α → β → Prop) → Prop
  mono {α β : Type} {first : m α} {second : m β} {related other : α → β → Prop} :
    InStep first second related → (∀ a b, related a b → other a b) → InStep first second other
  pure {α β : Type} {a : α} {b : β} {related : α → β → Prop} :
    related a b → InStep (pure a) (pure b) related
  bind {α β γ δ : Type} {first : m α} {second : m β} {related : α → β → Prop} {f : α → m γ}
    {g : β → m δ} {other : γ → δ → Prop} :
    InStep first second related → (∀ a b, related a b → InStep (f a) (g b) other) →
      InStep (first >>= f) (second >>= g) other
  refl {α : Type} (both : m α) : InStep both both Eq

export Lockstep (InStep)

instance {ε : Type} : Lockstep (Except ε) where
  InStep first second related :=
    (∃ fault, first = .error fault ∧ second = .error fault) ∨
      ∃ a b, first = .ok a ∧ second = .ok b ∧ related a b
  mono h himp := h.imp id fun ⟨a, b, hfirst, hsecond, hrelated⟩ =>
    ⟨a, b, hfirst, hsecond, himp a b hrelated⟩
  pure h := .inr ⟨_, _, rfl, rfl, h⟩
  bind h hnext := by
    obtain ⟨fault, rfl, rfl⟩ | ⟨a, b, rfl, rfl, hrelated⟩ := h
    · exact .inl ⟨fault, rfl, rfl⟩
    · exact hnext a b hrelated
  refl both := by
    cases both with
    | error fault => exact .inl ⟨fault, rfl, rfl⟩
    | ok a => exact .inr ⟨a, a, rfl, rfl, rfl⟩

instance {σ : Type} {m : Type → Type} [Monad m] [Lockstep m] : Lockstep (StateT σ m) where
  InStep first second related :=
    ∀ state, InStep (first state) (second state) fun a b => related a.1 b.1 ∧ a.2 = b.2
  mono h himp state := Lockstep.mono (h state) fun a b hrelated => ⟨himp _ _ hrelated.1, hrelated.2⟩
  pure h state := Lockstep.pure ⟨h, rfl⟩
  bind h hnext state := by
    refine Lockstep.bind (h state) ?_
    rintro ⟨a, state⟩ ⟨b, _⟩ ⟨hrelated, rfl⟩
    exact hnext a b hrelated state
  refl both state := Lockstep.mono (Lockstep.refl (both state)) fun a b h => h ▸ ⟨rfl, rfl⟩

section Rules

variable {m : Type → Type} [Monad m] [Lockstep m] {α β γ δ σ : Type}

theorem InStep.after (both : m α) {f : α → m γ} {g : α → m δ} {related : γ → δ → Prop}
    (h : ∀ a, InStep (f a) (g a) related) : InStep (both >>= f) (both >>= g) related :=
  Lockstep.bind (Lockstep.refl both) fun a _ heq => heq ▸ h a

theorem InStep.lift {first : m α} {second : m β} {related : α → β → Prop}
    (h : InStep first second related) :
    InStep (liftM first : StateT σ m α) (liftM second : StateT σ m β) related :=
  fun _ => Lockstep.bind h fun _ _ hrelated => Lockstep.pure ⟨hrelated, rfl⟩

theorem InStep.liftRun (both : m α) (state : σ) :
    InStep ((liftM both : StateT σ m α) state) ((liftM both : StateT σ m α) state)
      fun a b => a = b ∧ a.2 = state :=
  InStep.after both fun _ => Lockstep.pure ⟨rfl, rfl⟩

theorem InStep.run {first : StateT σ m α} {second : StateT σ m β} {related : α → β → Prop}
    (h : InStep first second related) (state : σ) :
    InStep (first.run state) (second.run state) fun a b => related a.1 b.1 ∧ a.2 = b.2 :=
  h state

theorem InStep.ite {condition : Prop} [Decidable condition] {first first' : m α}
    {second second' : m β} {related : α → β → Prop} (h : InStep first second related)
    (h' : InStep first' second' related) :
    InStep (if condition then first else first') (if condition then second else second') related := by
  split
  · exact h
  · exact h'

theorem InStep.mapM [LawfulMonad m] {f : α → m γ} {g : β → m δ} {wipe : α → β}
    {related : α → γ → δ → Prop} (all : List α → List γ → List δ → Prop)
    (h : ∀ tree, InStep (f tree) (g (wipe tree)) (related tree)) (hnil : all [] [] [])
    (hcons : ∀ {tree trees a as b bs}, related tree a b → all trees as bs →
      all (tree :: trees) (a :: as) (b :: bs)) {trees : List α} :
    InStep (trees.mapM f) ((trees.map wipe).mapM g) (all trees) := by
  induction trees with
  | nil => exact Lockstep.pure hnil
  | cons tree trees ih =>
      rw [map_cons, mapM_cons, mapM_cons]
      refine Lockstep.bind (h tree) fun _ _ htree => Lockstep.bind ih fun _ _ htrees => ?_
      exact Lockstep.pure (hcons htree htrees)

theorem InStep.afterIf {condition : Bool} (act : m Unit) {f : Unit → m α} {g : Unit → m β}
    {related : α → β → Prop} (h : InStep (f ()) (g ()) related) :
    InStep (if condition = true then act >>= f else f ())
      (if condition = true then act >>= g else g ()) related :=
  InStep.ite (InStep.after act fun _ => h) h

theorem InStep.walked {first : Covering α} {second : Covering β} {related : α → β → Prop}
    (h : InStep first second related) :
    InStep (do return (← first.run {}).1 : Walking α) (do return (← second.run {}).1) related :=
  Lockstep.bind (InStep.run h {}) fun _ _ hrelated => Lockstep.pure hrelated.1

theorem InStep.covering {first : Covering α} {second : Covering β} {related : α → β → Prop}
    (h : InStep first second related) :
    InStep (covering first) (covering second) fun a b => related a.1 b.1 ∧ a.2 = b.2 := by
  refine Lockstep.bind (InStep.lift (InStep.run h {})) ?_
  rintro ⟨a, extent⟩ ⟨b, _⟩ ⟨hrelated, rfl⟩
  exact InStep.after _ fun _ => Lockstep.pure ⟨hrelated, rfl⟩

end Rules

/-! ### What is compared -/

/-- What is compared of trees: the bare tree, the tree with only the layout that is written, what
holds of all its nodes, and whether the tree has a text. -/
structure Facet (α : Type) where
  bare : α → α
  trimmed : α → α
  all : (Node → Prop) → α → Prop
  written : α → Prop

abbrev IsFresh (node : Node) : Prop :=
  node.Everywhere StoresNothing

/-- The tree stores pairs only where it may. -/
abbrev IsTidy (node : Node) : Prop :=
  node.Everywhere StoresOwn

theorem isTidy_of_isFresh {node : Node} (h : IsFresh node) : IsTidy node :=
  h.mono fun _ => StoresNothing.storesOwn

namespace Facet

variable {α β : Type} (facet : Facet α)

/-- A result for a tree and one for its bare tree. Parts that have found no tokens are left as they
were, so only results that know all their tokens are written in the same way. -/
structure Fits (tree result plain : α) : Prop where
  bare : facet.bare result = facet.bare tree
  same : facet.bare plain = facet.bare tree
  trimmed : facet.all IsMarked plain → facet.trimmed result = facet.trimmed plain
  written : facet.all IsMarked plain → facet.written plain
  tidy : facet.all IsFresh tree → facet.all IsTidy result

/-- Lists, compared item by item. -/
@[simps -fullyApplied bare trimmed, simps all written]
def list : Facet (List α) where
  bare := List.map facet.bare
  trimmed := List.map facet.trimmed
  all good items := ∀ item ∈ items, facet.all good item
  written items := ∀ item ∈ items, facet.written item

/-- What may be missing. -/
@[simps -fullyApplied bare trimmed, simps all written]
def option : Facet (Option α) where
  bare := Option.map facet.bare
  trimmed := Option.map facet.trimmed
  all good value := ∀ item ∈ value, facet.all good item
  written value := ∀ item ∈ value, facet.written item

/-- Two parts. -/
@[simps]
def prod (other : Facet β) : Facet (α × β) where
  bare := Prod.map facet.bare other.bare
  trimmed := Prod.map facet.trimmed other.trimmed
  all good both := facet.all good both.1 ∧ other.all good both.2
  written both := facet.written both.1 ∧ other.written both.2

/-- No parts. -/
@[simps]
def nothing : Facet Unit where
  bare := id
  trimmed := id
  all _ _ := True
  written _ := True

/-- How a node is made of its parts and a layout, of which `trim` says what is written. -/
structure Shape (trim : Layout → Layout) (whole : Facet β) (build : α → Layout → β) : Prop where
  bare parts layout : whole.bare (build parts layout) = build (facet.bare parts) {}
  trimmed parts layout : whole.trimmed (build parts layout) = build (facet.trimmed parts) (trim layout)
  marked {parts layout} : whole.all IsMarked (build parts layout) → facet.all IsMarked parts
  written {parts layout} : facet.written parts → whole.written (build parts layout)
  fresh {parts layout} : whole.all IsFresh (build parts layout) → facet.all IsFresh parts
  tidy {parts layout} : facet.all IsTidy parts → whole.all StoresOwn (build parts layout) →
    whole.all IsTidy (build parts layout)

variable {facet} {other : Facet β}

theorem Fits.nil : facet.list.Fits [] [] [] := by
  constructor <;> simp

theorem Fits.cons {tree result plain : α} {trees results plains : List α}
    (h : facet.Fits tree result plain) (hs : facet.list.Fits trees results plains) :
    facet.list.Fits (tree :: trees) (result :: results) (plain :: plains) where
  bare := congrArg₂ List.cons h.bare hs.bare
  same := congrArg₂ List.cons h.same hs.same
  trimmed hmarked := by
    rw [list_all, forall_mem_cons] at hmarked
    exact congrArg₂ List.cons (h.trimmed hmarked.1) (hs.trimmed hmarked.2)
  written hmarked := by
    rw [list_all, forall_mem_cons] at hmarked
    exact forall_mem_cons.mpr ⟨h.written hmarked.1, hs.written hmarked.2⟩
  tidy hfresh := by
    rw [list_all, forall_mem_cons] at hfresh
    exact forall_mem_cons.mpr ⟨h.tidy hfresh.1, hs.tidy hfresh.2⟩

theorem Fits.append {trees results plains trees' results' plains' : List α}
    (h : facet.list.Fits trees results plains) (h' : facet.list.Fits trees' results' plains') :
    facet.list.Fits (trees ++ trees') (results ++ results') (plains ++ plains') where
  bare := by simpa using congrArg₂ List.append h.bare h'.bare
  same := by simpa using congrArg₂ List.append h.same h'.same
  trimmed hmarked := by
    rw [list_all, forall_mem_append] at hmarked
    simpa using congrArg₂ List.append (h.trimmed hmarked.1) (h'.trimmed hmarked.2)
  written hmarked := by
    rw [list_all, forall_mem_append] at hmarked
    exact forall_mem_append.mpr ⟨h.written hmarked.1, h'.written hmarked.2⟩
  tidy hfresh := by
    rw [list_all, forall_mem_append] at hfresh
    exact forall_mem_append.mpr ⟨h.tidy hfresh.1, h'.tidy hfresh.2⟩

theorem Fits.none : facet.option.Fits none none none := by
  constructor <;> simp

theorem Fits.some {tree result plain : α} (h : facet.Fits tree result plain) :
    facet.option.Fits (some tree) (some result) (some plain) where
  bare := congrArg Option.some h.bare
  same := congrArg Option.some h.same
  trimmed hmarked := congrArg Option.some (h.trimmed (hmarked plain rfl))
  written hmarked := by simpa using h.written (hmarked plain rfl)
  tidy hfresh := by simpa using h.tidy (hfresh tree rfl)

theorem Fits.pair {tree result plain : α} {tree' result' plain' : β}
    (h : facet.Fits tree result plain) (h' : other.Fits tree' result' plain') :
    (facet.prod other).Fits (tree, tree') (result, result') (plain, plain') where
  bare := congrArg₂ Prod.mk h.bare h'.bare
  same := congrArg₂ Prod.mk h.same h'.same
  trimmed hmarked := congrArg₂ Prod.mk (h.trimmed hmarked.1) (h'.trimmed hmarked.2)
  written hmarked := ⟨h.written hmarked.1, h'.written hmarked.2⟩
  tidy hfresh := ⟨h.tidy hfresh.1, h'.tidy hfresh.2⟩

theorem fits_nothing : nothing.Fits () () () :=
  ⟨rfl, rfl, fun _ => rfl, fun _ => trivial, fun _ => trivial⟩

section Shapes

variable {trim : Layout → Layout} {build : α → Layout → β} {tree result plain : α}
  {layout layout' layout₀ : Layout}

theorem Shape.fits_of_marked (hshape : facet.Shape trim other build)
    (h : facet.Fits tree result plain)
    (hlayout : facet.all IsMarked plain → trim layout' = trim layout₀)
    (hown : other.all IsFresh (build tree layout) → other.all StoresOwn (build result layout')) :
    other.Fits (build tree layout) (build result layout') (build plain layout₀) where
  bare := by rw [hshape.bare, hshape.bare, h.bare]
  same := by rw [hshape.bare, hshape.bare, h.same]
  trimmed hmarked := by
    have hparts := hshape.marked hmarked
    rw [hshape.trimmed, hshape.trimmed, h.trimmed hparts, hlayout hparts]
  written hmarked := hshape.written (h.written (hshape.marked hmarked))
  tidy hfresh := hshape.tidy (h.tidy (hshape.fresh hfresh)) (hown hfresh)

theorem Shape.fits (hshape : facet.Shape trim other build) (h : facet.Fits tree result plain)
    (hlayout : trim layout' = trim layout₀)
    (hown : other.all IsFresh (build tree layout) → other.all StoresOwn (build result layout') := by
      exact fun _ => trivial) :
    other.Fits (build tree layout) (build result layout') (build plain layout₀) :=
  hshape.fits_of_marked h (fun _ => hlayout) hown

end Shapes

def Loose (facet : Facet α) : Prop :=
  ∀ tree, facet.Fits tree tree (facet.bare tree)

theorem Loose.list (h : facet.Loose) : facet.list.Loose := by
  intro trees
  induction trees with
  | nil => exact .nil
  | cons tree trees ih => exact .cons (h tree) ih

theorem Loose.option (h : facet.Loose) : facet.option.Loose := by
  intro tree
  cases tree with
  | none => exact .none
  | some tree => exact .some (h tree)

end Facet

section Keeps

variable {m : Type → Type} [Monad m] [LawfulMonad m] [Lockstep m] {α β γ : Type} {facet : Facet α}

def Keeps (facet : Facet α) (annotate : α → m α) : Prop :=
  ∀ tree, InStep (annotate tree) (annotate (facet.bare tree)) (facet.Fits tree)

/-- What annotates trees, and gives something with them, does not look at their layout. -/
def KeepsBeside (facet : Facet α) (annotate : α → m (α × γ)) : Prop :=
  ∀ tree, InStep (annotate tree) (annotate (facet.bare tree)) fun result plain =>
    facet.Fits tree result.1 plain.1 ∧ result.2 = plain.2

/-- What annotates two trees does not look at their layout. -/
def KeepsBoth (first : Facet α) (second : Facet β) (annotate : α × β → m (α × β)) : Prop :=
  ∀ trees, InStep (annotate trees) (annotate (Prod.map first.bare second.bare trees))
    fun results plains =>
      first.Fits trees.1 results.1 plains.1 ∧ second.Fits trees.2 results.2 plains.2

theorem Keeps.mapM {annotate : α → m α} (h : Keeps facet annotate) :
    Keeps facet.list (mapM annotate) :=
  fun _ => InStep.mapM facet.list.Fits h .nil .cons

theorem Keeps.optionMapM {annotate : α → m α} (h : Keeps facet annotate) :
    Keeps facet.option (Option.mapM annotate) := by
  intro tree
  cases tree with
  | none => exact Lockstep.pure .none
  | some tree =>
      rw [Facet.option_bare, Option.map_some, Option.mapM_some, Option.mapM_some, map_eq_pure_bind,
        map_eq_pure_bind]
      exact Lockstep.bind (h tree) fun _ _ htree => Lockstep.pure (Facet.Fits.some htree)

theorem KeepsBeside.mapM {annotate : α → m (α × γ)} (h : KeepsBeside facet annotate)
    (trees : List α) :
    InStep (trees.mapM annotate) ((trees.map facet.bare).mapM annotate) fun results plains =>
      facet.list.Fits trees (results.map Prod.fst) (plains.map Prod.fst) ∧
        results.map Prod.snd = plains.map Prod.snd :=
  InStep.mapM (fun trees results plains =>
      facet.list.Fits trees (results.map Prod.fst) (plains.map Prod.fst) ∧
        results.map Prod.snd = plains.map Prod.snd) h ⟨.nil, rfl⟩ fun htree htrees =>
    ⟨.cons htree.1 htrees.1, congrArg₂ cons htree.2 htrees.2⟩

theorem KeepsBoth.mapM {second : Facet β} {annotate : α × β → m (α × β)}
    (h : KeepsBoth facet second annotate) (trees : List (α × β)) :
    InStep (trees.mapM annotate) ((trees.map (Prod.map facet.bare second.bare)).mapM annotate)
      fun results plains =>
        facet.list.Fits (trees.map Prod.fst) (results.map Prod.fst) (plains.map Prod.fst) ∧
          second.list.Fits (trees.map Prod.snd) (results.map Prod.snd) (plains.map Prod.snd) :=
  InStep.mapM (fun trees results plains =>
      facet.list.Fits (trees.map Prod.fst) (results.map Prod.fst) (plains.map Prod.fst) ∧
        second.list.Fits (trees.map Prod.snd) (results.map Prod.snd) (plains.map Prod.snd))
    h ⟨.nil, .nil⟩ fun htree htrees =>
    ⟨.cons htree.1 htrees.1, .cons htree.2 htrees.2⟩

end Keeps

/-! ### Parentheses around nothing -/

def Extent.HasTokens (extent : Extent) : Prop :=
  ∃ start, extent.start = some start ∧ start < extent.stop

theorem Extent.hasTokens_takeOuter (extent : Extent) (index : Nat) :
    (extent.takeOuter index).HasTokens := by
  refine ⟨_, rfl, ?_⟩
  cases extent.start with
  | none => exact lt_max_of_lt_right (Nat.lt_succ_self index)
  | some start => exact lt_max_of_lt_right (Nat.lt_succ_of_le (min_le_left index start))

section Runs

variable {α β γ δ : Type} {extent : Extent} {related : γ × Extent → δ × Extent → Prop}

theorem InStep.bindRun {first : Covering α} {second : Covering β} {f : α → Covering γ}
    {g : β → Covering δ} {between : α × Extent → β × Extent → Prop}
    (h : InStep (first extent) (second extent) between)
    (hnext : ∀ a b, between a b → InStep (f a.1 a.2) (g b.1 b.2) related) :
    InStep ((first >>= f) extent) ((second >>= g) extent) related :=
  Lockstep.bind h hnext

theorem InStep.afterLift {walking : Walking α} {f : α → Covering γ} {g : α → Covering δ}
    (h : ∀ value, InStep (f value extent) (g value extent) related) :
    InStep ((liftM walking >>= f) extent) ((liftM walking >>= g) extent) related := by
  refine InStep.bindRun (InStep.liftRun walking extent) ?_
  rintro ⟨value, _⟩ _ ⟨rfl, rfl⟩
  exact h value

theorem InStep.afterGet {f : Extent → Covering γ} {g : Extent → Covering δ}
    (h : InStep (f extent extent) (g extent extent) related) :
    InStep ((get >>= f) extent) ((get >>= g) extent) related :=
  h

theorem InStep.afterModify {change : Extent → Extent} {f : Unit → Covering γ} {g : Unit → Covering δ}
    (h : InStep (f () (change extent)) (g () (change extent)) related) :
    InStep ((modify change >>= f) extent) ((modify change >>= g) extent) related :=
  h

/-- Whatever the computation gives is good with the tokens that are then taken. -/
def Leaves (act : Covering α) (extent : Extent) (good : α → Extent → Prop) : Prop :=
  InStep (act extent) (act extent) fun result same => good result.1 result.2 ∧ result = same

end Runs

theorem leaves_closeGroups (bound : Nat) (extent : Extent) :
    Leaves (closeGroups bound) extent fun innermost extent' =>
      extent.HasTokens ∨ innermost.isSome → extent'.HasTokens := by
  induction bound generalizing extent with
  | zero => exact Lockstep.pure ⟨by simp, rfl⟩
  | succ bound ih =>
      refine InStep.afterLift fun walk => InStep.afterGet ?_
      cases groupAround? walk extent with
      | none => exact Lockstep.pure ⟨by simp, rfl⟩
      | some opening =>
          refine InStep.afterLift fun closing => InStep.afterLift fun _ => InStep.afterModify ?_
          refine InStep.bindRun (ih _) ?_
          rintro result _ ⟨hextent, rfl⟩
          exact Lockstep.pure ⟨fun _ => hextent (.inl (Extent.hasTokens_takeOuter _ _)), rfl⟩

theorem leaves_closeAllGroups (extent : Extent) :
    Leaves closeAllGroups extent fun innermost extent' =>
      innermost.isSome → extent'.HasTokens :=
  InStep.afterLift fun _ => Lockstep.mono (leaves_closeGroups _ extent) fun _ _ h =>
    ⟨fun hsome => h.1 (.inr hsome), h.2⟩

/-! ### Expressions -/

section Expressions

open Writing

/-- Expressions that may nest the given number of levels. -/
@[simps -fullyApplied bare trimmed, simps all written]
def exprs (levels : Nat) : Facet Expr where
  bare := Expr.bare
  trimmed := Expr.trimmed
  all good tree := good (.expr tree)
  written := WritableAt levels

/-- The left sides of binary operators, whose operands stand on one level. -/
@[simps -fullyApplied bare trimmed, simps all written]
def leftSides (levels : Nat) : Facet Expr where
  bare := Expr.bare
  trimmed := Expr.trimmed
  all good tree := good (.expr tree)
  written tree := ∀ part ∈ spine tree, WritableAt levels part

/-- Keys with their values. -/
@[simps -fullyApplied bare trimmed, simps all written]
def entries (levels : Nat) : Facet (Entry Expr) where
  bare := Entry.bare
  trimmed := Entry.trimmed
  all good tree := good (.entry tree)
  written tree := WritableAt levels tree.key ∧ WritableAt levels tree.value

@[simps -fullyApplied bare trimmed, simps all written]
def namedArguments (levels : Nat) : Facet (Keyword Expr) where
  bare := Keyword.bare
  trimmed := Keyword.trimmed
  all good tree := good (.keyword tree)
  written tree := WritableAt levels tree.value

/-- Comparisons of a chain. -/
@[simps -fullyApplied bare trimmed, simps all written]
def operands (levels : Nat) : Facet (Operand Expr) where
  bare := Operand.bare
  trimmed := Operand.trimmed
  all good tree := good (.operand tree)
  written tree := WritableAt levels tree.value

@[simps -fullyApplied bare trimmed, simps all written]
def callParts (levels : Nat) : Facet (Arguments Expr) where
  bare := Arguments.bare
  trimmed := Arguments.trimmed
  all good tree := ∀ child ∈ ofArguments tree, good child
  written tree := ∀ part ∈ argumentValues tree, WritableAt levels part

variable {levels : Nat}

/-! ### Shapes -/

theorem shape_node {α β : Type} {parts : Facet α} {whole : Facet β} {trim : Layout → Layout}
    {build : α → Layout → β} (node : β → Node)
    (hwhole : ∀ good tree, whole.all good tree = good (node tree))
    (hbare : ∀ values layout, whole.bare (build values layout) = build (parts.bare values) {})
    (htrimmed : ∀ values layout,
      whole.trimmed (build values layout) = build (parts.trimmed values) (trim layout))
    (hinside : ∀ good values layout,
      (∀ child ∈ (node (build values layout)).inside, good child) ↔ parts.all good values)
    (hwritten : ∀ values layout, parts.written values → whole.written (build values layout)) :
    parts.Shape trim whole build where
  bare := hbare
  trimmed := htrimmed
  marked h := (hinside _ _ _).mp (isMarked_iff.mp (hwhole _ _ ▸ h)).2
  written := hwritten _ _
  fresh h := (hinside _ _ _).mp (hwhole _ _ ▸ h).of_inside
  tidy h hown := by
    rw [hwhole] at hown ⊢
    exact .mk hown ((hinside _ _ _).mpr h)

theorem shape_namedArgument (key : Text) :
    (exprs levels).Shape (fun layout => { span := layout.span }) (namedArguments levels)
      fun value layout => ⟨key, value, layout⟩ :=
  shape_node .keyword (fun _ _ => rfl) (fun _ _ => rfl) (fun _ _ => rfl)
    (by simp [inside, children]) fun _ _ => id

theorem shape_operand (op : CompareOp) :
    (exprs levels).Shape (fun _ => {}) (operands levels) fun value layout => ⟨op, value, layout⟩ :=
  shape_node .operand (fun _ _ => rfl) (fun _ _ => rfl) (fun _ _ => rfl)
    (by simp [inside, children]) fun _ _ => id

theorem shape_entry : ((exprs levels).prod (exprs levels)).Shape (fun _ => {}) (entries levels)
    fun parts layout => ⟨parts.1, parts.2, layout⟩ :=
  shape_node .entry (fun _ _ => rfl) (fun _ _ => rfl) (fun _ _ => rfl)
    (by simp [inside, children]) fun _ _ => id

theorem fits_arguments {tree result plain : Arguments Expr}
    (hpositional : (exprs levels).list.Fits tree.positional result.positional plain.positional)
    (hkeywords : (namedArguments levels).list.Fits tree.keywords result.keywords plain.keywords)
    (hstar : (exprs levels).option.Fits tree.star result.star plain.star)
    (hdouble : (exprs levels).option.Fits tree.doubleStar result.doubleStar plain.doubleStar) :
    (callParts levels).Fits tree result plain := by
  have hparts := hpositional.pair (hkeywords.pair (hstar.pair hdouble))
  cases tree; cases result; cases plain
  refine ⟨?_, ?_, fun hmarked => ?_, fun hmarked => ?_, fun hfresh => ?_⟩
  · simpa [Arguments.bare, bareExprs_eq_map, bareKeywords_eq_map, bareOption_eq_map] using hparts.bare
  · simpa [Arguments.bare, bareExprs_eq_map, bareKeywords_eq_map, bareOption_eq_map] using hparts.same
  · have htrimmed := hparts.trimmed (by simpa [forall_mem_ofArguments] using hmarked)
    simpa [Arguments.trimmed, trimmedExprs_eq_map, trimmedKeywords_eq_map, trimmedOption_eq_map]
      using htrimmed
  · have hwritten := hparts.written (by simpa [forall_mem_ofArguments] using hmarked)
    simpa [argumentValues, or_imp, forall_and, and_assoc] using hwritten
  · simpa [forall_mem_ofArguments] using hparts.tidy (by simpa [forall_mem_ofArguments] using hfresh)

theorem shape_expr {α : Type} {parts : Facet α} {build : α → Layout → Expr}
    (hbare : ∀ values layout, (build values layout).bare = build (parts.bare values) {})
    (htrimmed : ∀ values layout,
      (build values layout).trimmed = build (parts.trimmed values) layout.trimmed)
    (hinside : ∀ good values layout,
      (∀ child ∈ ofExpr (build values layout), good child) ↔ parts.all good values)
    (hwritten : ∀ values layout, parts.written values →
      ∀ part ∈ pieces (build values layout), WritableAt levels part) :
    parts.Shape .trimmed (exprs (levels + 1)) build :=
  shape_node .expr (fun _ _ => rfl) hbare htrimmed hinside fun values layout h =>
    writableAt_succ_iff.mpr (hwritten values layout h)

theorem shape_leaf {build : Layout → Expr} (hbare : ∀ layout, (build layout).bare = build {})
    (htrimmed : ∀ layout, (build layout).trimmed = build layout.trimmed)
    (hinside : ∀ layout, ofExpr (build layout) = []) (hpieces : ∀ layout, pieces (build layout) = []) :
    Facet.nothing.Shape .trimmed (exprs (levels + 1)) fun _ layout => build layout :=
  shape_expr (fun _ => hbare) (fun _ => htrimmed) (by simp [hinside]) (by simp [hpieces])

theorem shape_data (text : Text) :
    Facet.nothing.Shape .trimmedText (exprs (levels + 1)) fun _ layout => .data text layout :=
  shape_node .expr (fun _ _ => rfl) (fun _ _ => rfl) (fun _ _ => rfl)
    (by simp [inside, children, ofExpr]) fun _ _ _ => writableAt_succ_iff.mpr (by simp [pieces])

theorem shape_tuple (context : Context) :
    (exprs levels).list.Shape .trimmed (exprs (levels + 1))
      fun items layout => .tuple items context layout :=
  shape_expr (by simp [Expr.bare, bareExprs_eq_map]) (by simp [Expr.trimmed, trimmedExprs_eq_map])
    (by simp [ofExpr]) (by simp [pieces])

theorem shape_list :
    (exprs levels).list.Shape .trimmed (exprs (levels + 1)) fun items layout => .list items layout :=
  shape_expr (by simp [Expr.bare, bareExprs_eq_map]) (by simp [Expr.trimmed, trimmedExprs_eq_map])
    (by simp [ofExpr]) (by simp [pieces])

theorem shape_concat :
    (exprs levels).list.Shape .trimmed (exprs (levels + 1)) fun items layout => .concat items layout :=
  shape_expr (by simp [Expr.bare, bareExprs_eq_map]) (by simp [Expr.trimmed, trimmedExprs_eq_map])
    (by simp [ofExpr]) (by simp [pieces])

theorem shape_dict :
    (entries levels).list.Shape .trimmed (exprs (levels + 1)) fun items layout => .dict items layout :=
  shape_expr (by simp [Expr.bare, bareEntries_eq_map])
    (by simp [Expr.trimmed, trimmedEntries_eq_map]) (by simp [ofExpr])
    (by simp +contextual [pieces, or_imp, forall_and])

theorem shape_conditional :
    ((exprs levels).prod ((exprs levels).prod (exprs levels).option)).Shape .trimmed
      (exprs (levels + 1))
      fun parts layout => .conditional parts.2.1 parts.1 parts.2.2 layout :=
  shape_expr (by simp [Expr.bare, bareOption_eq_map]) (by simp [Expr.trimmed, trimmedOption_eq_map])
    (by simp [ofExpr]) (by simp +contextual [pieces])

theorem shape_binary (op : BinaryOp) :
    ((leftSides levels).prod (exprs levels)).Shape .trimmed (exprs (levels + 1))
      fun parts layout => .binary op parts.1 parts.2 layout :=
  shape_expr (by simp [Expr.bare]) (by simp [Expr.trimmed]) (by simp [ofExpr])
    (by simp +contextual [pieces, or_imp])

theorem shape_leftSide (op : BinaryOp) :
    ((leftSides levels).prod (exprs levels)).Shape .trimmed (leftSides levels)
      fun parts layout => .binary op parts.1 parts.2 layout :=
  shape_node .expr (fun _ _ => rfl) (by simp [Expr.bare]) (by simp [Expr.trimmed])
    (by simp [inside, children, ofExpr]) (by simp +contextual [spine, or_imp])

theorem shape_unary (op : UnaryOp) (inline : Bool) :
    (exprs levels).Shape .trimmed (exprs (levels + 1))
      fun operand layout => .unary op operand inline layout := by
  refine shape_expr (by simp [Expr.bare]) (by simp [Expr.trimmed]) (by simp [ofExpr]) ?_
  intro operand layout hwritten
  cases op with
  | not => exact WritableAt.not hwritten inline layout
  | neg | pos => simpa [pieces] using hwritten

theorem shape_compare :
    ((exprs levels).prod (operands levels).list).Shape .trimmed (exprs (levels + 1))
      fun parts layout => .compare parts.1 parts.2 layout :=
  shape_expr (by simp [Expr.bare, bareOperands_eq_map])
    (by simp [Expr.trimmed, trimmedOperands_eq_map]) (by simp [ofExpr]) (by simp [pieces])

theorem shape_attr (key : Text) :
    (exprs levels).Shape .trimmed (exprs (levels + 1)) fun operand layout => .attr operand key layout :=
  shape_expr (by simp [Expr.bare]) (by simp [Expr.trimmed]) (by simp [ofExpr]) (by simp [pieces])

theorem shape_item (dotted : Bool) :
    ((exprs levels).prod (exprs levels)).Shape .trimmed (exprs (levels + 1))
      fun parts layout => .item parts.1 parts.2 dotted layout := by
  refine shape_expr (by simp [Expr.bare]) (by simp [Expr.trimmed]) (by simp [ofExpr]) ?_
  intro parts layout hwritten
  exact forall_mem_cons.mpr ⟨hwritten.1, WritableAt.indexPieces hwritten.2 dotted⟩

theorem shape_slice :
    ((exprs levels).option.prod ((exprs levels).option.prod (exprs levels).option)).Shape .trimmed
      (exprs (levels + 1))
      fun parts layout => .slice parts.1 parts.2.1 parts.2.2 layout :=
  shape_expr (by simp [Expr.bare, bareOption_eq_map]) (by simp [Expr.trimmed, trimmedOption_eq_map])
    (by simp [ofExpr, or_imp, forall_and])
    (by simp +contextual [pieces, or_imp])

theorem shape_filter (name : Text) :
    ((exprs levels).option.prod (callParts levels)).Shape .trimmed (exprs (levels + 1))
      fun parts layout => .filter parts.1 name parts.2 layout :=
  shape_expr (by simp [Expr.bare, bareOption_eq_map]) (by simp [Expr.trimmed, trimmedOption_eq_map])
    (by simp [ofExpr, or_imp, forall_and])
    (by simp +contextual [pieces, or_imp])

theorem shape_test (name : Text) :
    ((exprs levels).prod (callParts levels)).Shape .trimmed (exprs (levels + 1))
      fun parts layout => .test parts.1 name parts.2 layout :=
  shape_expr (by simp [Expr.bare]) (by simp [Expr.trimmed]) (by simp [ofExpr])
    (by simp +contextual [pieces])

theorem shape_call :
    ((exprs levels).prod (callParts levels)).Shape .trimmed (exprs (levels + 1))
      fun parts layout => .call parts.1 parts.2 layout :=
  shape_expr (by simp [Expr.bare]) (by simp [Expr.trimmed]) (by simp [ofExpr])
    (by simp +contextual [pieces])

/-! ### Parts that are left -/

theorem not_isMarked_bare (tree : Expr) : ¬(Node.expr tree.bare).IsMarked := by
  rintro ⟨hspan, _⟩
  cases tree <;> simp [Node.layout, Expr.bare, Expr.layout] at hspan

theorem loose_exprs : (exprs levels).Loose := by
  intro tree
  refine ⟨rfl, tree.bare_bare, fun hmarked => ?_, fun hmarked => ?_, isTidy_of_isFresh⟩
  all_goals exact absurd hmarked (not_isMarked_bare tree)

theorem loose_namedArguments : (namedArguments levels).Loose := by
  rintro ⟨key, value, layout⟩
  have hunmarked : ¬(Node.keyword (Keyword.mk key value layout).bare).IsMarked := by
    rintro ⟨hspan, _⟩
    simp [Node.layout, Keyword.bare] at hspan
  refine ⟨rfl, Keyword.bare_bare _, fun hmarked => ?_, fun hmarked => ?_, isTidy_of_isFresh⟩
  all_goals exact absurd hmarked hunmarked

theorem loose_callParts : (callParts levels).Loose := by
  rintro ⟨positional, keywords, star, doubleStar⟩
  simp only [callParts_bare, Arguments.bare, bareExprs_eq_map, bareKeywords_eq_map,
    bareOption_eq_map]
  exact fits_arguments (loose_exprs.list positional) (loose_namedArguments.list keywords)
    (loose_exprs.option star) (loose_exprs.option doubleStar)

/-! ### The walk -/

variable {visit : Visitor} (hvisit : KeepsBeside (exprs levels) visit)

include hvisit

theorem keeps_part : Keeps (exprs levels) (part visit) := by
  intro tree
  refine Lockstep.bind (InStep.lift (hvisit tree)) ?_
  rintro ⟨result, span⟩ ⟨plain, _⟩ ⟨hfits, rfl⟩
  exact InStep.after _ fun _ => Lockstep.pure hfits

theorem keeps_parts : Keeps (exprs levels).list (parts visit) := by
  refine Keeps.mapM fun tree => Lockstep.bind (keeps_part hvisit tree) fun _ _ hfits => ?_
  exact InStep.after _ fun _ => Lockstep.pure hfits

theorem keeps_optionalPart : Keeps (exprs levels).option (optionalPart visit) := by
  intro tree
  cases tree with
  | none => exact Lockstep.pure .none
  | some tree =>
      exact Lockstep.bind (keeps_part hvisit tree) fun _ _ hfits =>
        Lockstep.pure (Facet.Fits.some hfits)

theorem keeps_starred (stars : Text) : Keeps (exprs levels) (starred visit stars) := by
  intro tree
  refine InStep.after _ fun _ => Lockstep.bind (keeps_part hvisit tree) fun _ _ hfits => ?_
  exact InStep.after _ fun _ => Lockstep.pure hfits

theorem keeps_keyword : Keeps (namedArguments levels) (keyword visit) := by
  rintro ⟨key, value, layout⟩
  refine Lockstep.bind (InStep.covering (InStep.after _ fun _ => InStep.after _ fun _ =>
    keeps_part hvisit value)) ?_
  rintro ⟨value, span⟩ ⟨plain, _⟩ ⟨hfits, rfl⟩
  exact Lockstep.pure ((shape_namedArgument key).fits hfits rfl Everywhere.holds)

theorem inStep_starredHere (tree : Option Expr) :
    InStep (starredHere visit tree) (starredHere visit (tree.map Expr.bare)) fun result plain =>
      (∃ expr, plain = some expr) ∧ (exprs levels).option.Fits tree result plain ∨
        result = none ∧ plain = none := by
  cases tree with
  | none => exact Lockstep.pure (.inr ⟨rfl, rfl⟩)
  | some tree =>
      refine InStep.after _ fun next => InStep.ite ?_ (Lockstep.pure (.inr ⟨rfl, rfl⟩))
      exact Lockstep.bind (keeps_starred hvisit "*" tree) fun _ plain hfits =>
        Lockstep.pure (.inl ⟨⟨plain, rfl⟩, .some hfits⟩)

theorem keeps_single : Keeps (namedArguments levels) (keywords.single visit) := by
  intro tree
  refine Lockstep.bind (keeps_keyword hvisit tree) fun _ _ hfits => ?_
  exact InStep.after _ fun _ => Lockstep.pure hfits

theorem inStep_keywords (star : Option Expr) (nodes : List (Keyword Expr)) :
    InStep (keywords visit star nodes)
      (keywords visit (star.map Expr.bare) (nodes.map Keyword.bare))
      fun result plain => (namedArguments levels).list.Fits nodes result.1 plain.1 ∧
        (exprs levels).option.Fits star result.2 plain.2 := by
  induction nodes with
  | nil =>
      refine Lockstep.bind ((keeps_starred hvisit "*").optionMapM star) fun _ _ hstar => ?_
      exact Lockstep.pure ⟨.nil, hstar⟩
  | cons node nodes ih =>
      refine Lockstep.bind (inStep_starredHere hvisit star) ?_
      rintro result plain (⟨⟨expr, rfl⟩, hstar⟩ | ⟨rfl, rfl⟩)
      · obtain ⟨result, rfl⟩ : ∃ other, result = some other := by
          cases result with
          | none => simpa using hstar.bare.trans hstar.same.symm
          | some other => exact ⟨other, rfl⟩
        refine Lockstep.bind ((keeps_single hvisit).mapM (node :: nodes)) fun _ _ hnodes => ?_
        exact Lockstep.pure ⟨hnodes, hstar⟩
      · refine Lockstep.bind (keeps_single hvisit node) fun _ _ hnode => ?_
        refine Lockstep.bind ih ?_
        rintro ⟨others, star⟩ ⟨others₀, star₀⟩ ⟨hothers, hstar⟩
        exact Lockstep.pure ⟨.cons hnode hothers, hstar⟩

theorem keepsBeside_callArguments : KeepsBeside (callParts levels) (callArguments visit) := by
  rintro ⟨positional, named, star, doubleStar⟩
  rw [callParts_bare, Arguments.bare, bareExprs_eq_map, bareKeywords_eq_map, bareOption_eq_map,
    bareOption_eq_map]
  refine InStep.after _ fun opening => ?_
  refine Lockstep.bind (keeps_parts hvisit positional) fun _ _ hpositional => ?_
  refine Lockstep.bind (inStep_keywords hvisit star named) ?_
  rintro ⟨named, star⟩ ⟨named₀, star₀⟩ ⟨hnamed, hstar⟩
  refine Lockstep.bind ((keeps_starred hvisit "**").optionMapM doubleStar) fun _ _ hdouble => ?_
  refine InStep.after _ fun closing => Lockstep.pure ⟨?_, rfl⟩
  exact fits_arguments hpositional hnamed hstar hdouble

theorem keepsBeside_optionalArguments :
    KeepsBeside (callParts levels) (optionalArguments visit) := by
  intro tree
  refine InStep.after _ fun next => InStep.ite ?_ (Lockstep.pure ⟨loose_callParts tree, rfl⟩)
  refine Lockstep.bind (keepsBeside_callArguments hvisit tree) ?_
  rintro ⟨result, pair⟩ ⟨plain, _⟩ ⟨hfits, rfl⟩
  exact Lockstep.pure ⟨hfits, rfl⟩

theorem keepsBeside_testArguments : KeepsBeside (callParts levels) (testArguments visit) := by
  intro tree
  refine InStep.after _ fun next => InStep.ite ?_ ?_
  · refine Lockstep.bind (keepsBeside_callArguments hvisit tree) ?_
    rintro ⟨result, pair⟩ ⟨plain, _⟩ ⟨hfits, rfl⟩
    exact Lockstep.pure ⟨hfits, rfl⟩
  · rcases tree with ⟨_ | ⟨first, others⟩, named, star, doubleStar⟩
    · exact Lockstep.pure ⟨loose_callParts _, rfl⟩
    · rw [callParts_bare, Arguments.bare, bareExprs_eq_map, bareKeywords_eq_map, bareOption_eq_map,
        bareOption_eq_map]
      refine Lockstep.bind (keeps_part hvisit first) fun _ _ hfirst => Lockstep.pure ⟨?_, rfl⟩
      exact fits_arguments (.cons hfirst (loose_exprs.list others)) (loose_namedArguments.list named)
        (loose_exprs.option star) (loose_exprs.option doubleStar)

theorem keeps_operand : Keeps (operands levels) (operand visit) := by
  rintro ⟨op, value, layout⟩
  refine Lockstep.bind (InStep.covering (InStep.after _ fun _ => keeps_part hvisit value)) ?_
  rintro ⟨value, span⟩ ⟨plain, _⟩ ⟨hfits, rfl⟩
  exact Lockstep.pure ((shape_operand op).fits hfits rfl Everywhere.holds)

theorem keeps_entry : Keeps (entries levels) (entry visit) := by
  rintro ⟨key, value, layout⟩
  have hparts : InStep (do
      let key ← part visit key
      consumeOperator ":"
      let value ← part visit value
      return (key, value)) (do
      let key ← part visit key.bare
      consumeOperator ":"
      let value ← part visit value.bare
      return (key, value)) fun result plain =>
        (exprs levels).Fits key result.1 plain.1 ∧ (exprs levels).Fits value result.2 plain.2 := by
    refine Lockstep.bind (keeps_part hvisit key) fun _ _ hkey => InStep.after _ fun _ => ?_
    exact Lockstep.bind (keeps_part hvisit value) fun _ _ hvalue => Lockstep.pure ⟨hkey, hvalue⟩
  refine Lockstep.bind (InStep.covering hparts) ?_
  rintro ⟨⟨key, value⟩, span⟩ ⟨⟨key₀, value₀⟩, _⟩ ⟨⟨hkey, hvalue⟩, rfl⟩
  exact InStep.after _ fun _ =>
    Lockstep.pure (shape_entry.fits (hkey.pair hvalue) rfl Everywhere.holds)

theorem keeps_operatorAndRight (op : BinaryOp) :
    Keeps (exprs levels) (operatorAndRight visit op) := by
  intro tree
  refine InStep.ite ?_ ?_
  all_goals exact InStep.after _ fun _ => keeps_part hvisit tree

theorem keeps_concatenated : Keeps (exprs levels).list (concatenated visit) := by
  intro trees
  cases trees with
  | nil => exact Lockstep.pure .nil
  | cons first others =>
      refine Lockstep.bind (keeps_part hvisit first) fun _ _ hfirst => ?_
      have hitem : Keeps (exprs levels) fun item => (do
          consumeOperator "~"
          part visit item : Covering Expr) :=
        fun tree => InStep.after _ fun _ => keeps_part hvisit tree
      exact Lockstep.bind (hitem.mapM others) fun _ _ hothers => Lockstep.pure (.cons hfirst hothers)

omit hvisit in
theorem fits_leftSides {tree result plain : Expr} (h : (exprs levels).Fits tree result plain) :
    (leftSides levels).Fits tree result plain :=
  ⟨h.bare, h.same, h.trimmed, fun hmarked => WritableAt.spine (h.written hmarked), h.tidy⟩

/-- The same span and pairs are stored. Where tokens were taken, the span holds them. -/
def Finished (extent : Extent) (layout layout₀ : Layout) (pairs : List TagPair)
    (result plain : (Layout × (Nat × Nat)) × Extent) : Prop :=
  ∃ span extent', (extent.HasTokens → span.1 < span.2) ∧
    result = (({ layout with span := some span, pairs }, span), extent') ∧
    plain = (({ layout₀ with span := some span, pairs }, span), extent')

omit hvisit in
theorem inStep_finish (layout layout₀ : Layout) (pairs : List TagPair) (extent : Extent) :
    InStep (finish layout pairs extent) (finish layout₀ pairs extent)
      (Finished extent layout layout₀ pairs) := by
  refine InStep.afterGet (InStep.afterLift fun _ => Lockstep.pure ⟨_, _, ?_, rfl, rfl⟩)
  rintro ⟨start, hstart, hlt⟩
  simp [hstart, hlt]

theorem keepsBeside_leftSide : KeepsBeside (leftSides levels) (leftSide visit) := by
  intro tree
  induction tree using leftSide.induct with
  | case1 op left right layout ih =>
      refine Lockstep.bind ih ?_
      rintro ⟨left, span⟩ ⟨left₀, _⟩ ⟨hleft, rfl⟩
      refine InStep.walked (InStep.after _ fun _ => ?_)
      refine Lockstep.bind (keeps_operatorAndRight hvisit op right) fun _ _ hright => ?_
      refine InStep.after _ fun _ extent => InStep.bindRun (inStep_finish _ _ [] extent) ?_
      rintro _ _ ⟨span, extent, -, rfl, rfl⟩
      exact Lockstep.pure ⟨⟨(shape_leftSide op).fits (hleft.pair hright) rfl, rfl⟩, rfl⟩
  | case2 tree hbinary =>
      have hleft : leftSide visit tree = visit tree := leftSide.eq_2 visit tree hbinary
      have hplain : leftSide visit tree.bare = visit tree.bare := by
        refine leftSide.eq_2 visit tree.bare fun op left right layout hbare => ?_
        cases tree with
        | binary => exact hbinary _ _ _ _ rfl
        | _ => simp [Expr.bare] at hbare
      rw [leftSides_bare, hleft, hplain]
      exact Lockstep.mono (hvisit tree) fun _ _ h => ⟨fits_leftSides h.1, h.2⟩

theorem keeps_leftPart : Keeps (leftSides levels) (part (leftSide visit)) := by
  intro tree
  refine Lockstep.bind (InStep.lift (keepsBeside_leftSide hvisit tree)) ?_
  rintro ⟨result, span⟩ ⟨plain, _⟩ ⟨hfits, rfl⟩
  exact InStep.after _ fun _ => Lockstep.pure hfits

def located (expr : Expr) (span : Option (Nat × Nat)) (pairs : List TagPair) : Expr :=
  expr.withLayout { expr.layout with span, pairs }

omit hvisit in
theorem isTuple_located (expr : Expr) (span : Option (Nat × Nat)) (pairs : List TagPair) :
    (located expr span pairs).bare.isTuple = expr.isTuple := by
  cases expr <;> rfl

/-- The parentheses that belong to an expression: only tuples have any, and only around tokens. -/
structure AreOwn (expr : Expr) (span : Option (Nat × Nat)) (own : List TagPair) : Prop where
  isTuple : expr.isTuple = false → own = []
  exists_span : own ≠ [] → ∃ range, span = some range ∧ range.1 < range.2

omit hvisit in
theorem storesOwn_tuple (items : List Expr) {context : Context} {layout : Layout}
    (h : layout.pairs ≠ [] → ∃ span, layout.span = some span ∧ span.1 < span.2) :
    StoresOwn (.expr (.tuple items context layout)) := by
  cases items with
  | nil => exact h
  | cons first others => trivial

/-- An expression whose parts are annotated, and its pairs, beside those for the bare tree. -/
def Filled (levels : Nat) (tree : Expr) (result plain : Expr × List TagPair) : Prop :=
  result.2 = plain.2 ∧ ∀ span own, AreOwn result.1 span own → (exprs (levels + 1)).Fits tree
    (located result.1 span (result.2 ++ own)) (located plain.1 span (result.2 ++ own))

theorem inStep_content (tree : Expr) :
    InStep (content visit tree) (content visit tree.bare) (Filled levels tree) := by
  have hpart := keeps_part hvisit
  cases tree with
  | name ident context layout =>
      refine InStep.after _ fun _ => Lockstep.pure ⟨rfl, fun span own _ => ?_⟩
      exact (shape_leaf (fun _ => rfl) (fun _ => rfl) (fun _ => rfl) fun _ => rfl).fits Facet.fits_nothing rfl
  | member ident key layout =>
      refine InStep.after _ fun _ => InStep.after _ fun _ => InStep.after _ fun _ =>
        Lockstep.pure ⟨rfl, fun span own _ => ?_⟩
      exact (shape_leaf (fun _ => rfl) (fun _ => rfl) (fun _ => rfl) fun _ => rfl).fits Facet.fits_nothing rfl
  | const value layout =>
      refine InStep.after _ fun _ => Lockstep.pure ⟨rfl, fun span own _ => ?_⟩
      exact (shape_leaf (fun _ => rfl) (fun _ => rfl) (fun _ => rfl) fun _ => rfl).fits Facet.fits_nothing rfl
  | data text layout =>
      refine InStep.after _ fun found => InStep.after _ fun _ =>
        Lockstep.pure ⟨rfl, fun span own hown => ?_⟩
      exact (shape_data text).fits Facet.fits_nothing rfl fun _ => hown.isTuple rfl
  | tuple items context layout =>
      rw [Expr.bare, bareExprs_eq_map]
      exact Lockstep.bind (keeps_parts hvisit items) fun _ _ hitems =>
        Lockstep.pure ⟨rfl, fun span own hown => (shape_tuple context).fits hitems rfl fun _ =>
          storesOwn_tuple _ hown.exists_span⟩
  | list items layout =>
      rw [Expr.bare, bareExprs_eq_map]
      refine InStep.after _ fun _ => Lockstep.bind (keeps_parts hvisit items) fun _ _ hitems => ?_
      exact InStep.after _ fun _ =>
        Lockstep.pure ⟨rfl, fun span own _ => shape_list.fits hitems rfl⟩
  | dict items layout =>
      rw [Expr.bare, bareEntries_eq_map]
      refine InStep.after _ fun _ =>
        Lockstep.bind ((keeps_entry hvisit).mapM items) fun _ _ hitems => ?_
      exact InStep.after _ fun _ =>
        Lockstep.pure ⟨rfl, fun span own _ => shape_dict.fits hitems rfl⟩
  | conditional test whenTrue whenFalse layout =>
      rw [Expr.bare, bareOption_eq_map]
      have helse : Keeps (exprs levels) fun expr => (do
          consumeName "else"
          part visit expr : Covering Expr) :=
        fun tree => InStep.after _ fun _ => hpart tree
      refine Lockstep.bind (hpart whenTrue) fun _ _ htrue => InStep.after _ fun _ => ?_
      refine Lockstep.bind (hpart test) fun _ _ htest => ?_
      refine Lockstep.bind (helse.optionMapM whenFalse) fun _ _ hfalse => ?_
      exact Lockstep.pure
        ⟨rfl, fun span own _ => shape_conditional.fits (htrue.pair (htest.pair hfalse)) rfl⟩
  | binary op left right layout =>
      refine Lockstep.bind (keeps_leftPart hvisit left) fun _ _ hleft => ?_
      exact Lockstep.bind (keeps_operatorAndRight hvisit op right) fun _ _ hright =>
        Lockstep.pure ⟨rfl, fun span own _ => (shape_binary op).fits (hleft.pair hright) rfl⟩
  | unary op operand inline layout =>
      refine InStep.after _ fun _ => Lockstep.bind (hpart operand) fun _ _ hoperand => ?_
      exact Lockstep.pure ⟨rfl, fun span own _ => (shape_unary op inline).fits hoperand rfl⟩
  | concat items layout =>
      rw [Expr.bare, bareExprs_eq_map]
      exact Lockstep.bind (keeps_concatenated hvisit items) fun _ _ hitems =>
        Lockstep.pure ⟨rfl, fun span own _ => shape_concat.fits hitems rfl⟩
  | compare first others layout =>
      rw [Expr.bare, bareOperands_eq_map]
      refine Lockstep.bind (hpart first) fun _ _ hfirst => ?_
      exact Lockstep.bind ((keeps_operand hvisit).mapM others) fun _ _ hothers =>
        Lockstep.pure ⟨rfl, fun span own _ => shape_compare.fits (hfirst.pair hothers) rfl⟩
  | attr operand key layout =>
      refine Lockstep.bind (hpart operand) fun _ _ hoperand => ?_
      exact InStep.after _ fun _ => InStep.after _ fun _ =>
        Lockstep.pure ⟨rfl, fun span own _ => (shape_attr key).fits hoperand rfl⟩
  | item operand index dotted layout =>
      refine Lockstep.bind (hpart operand) fun _ _ hoperand => InStep.after _ fun _ => ?_
      refine Lockstep.bind (hpart index) fun _ _ hindex => ?_
      exact InStep.afterIf _ (Lockstep.pure
        ⟨rfl, fun span own _ => (shape_item dotted).fits (hoperand.pair hindex) rfl⟩)
  | slice start stop step layout =>
      rw [Expr.bare, bareOption_eq_map, bareOption_eq_map, bareOption_eq_map]
      have hoptional := keeps_optionalPart hvisit
      refine Lockstep.bind (hoptional start) fun _ _ hstart => InStep.after _ fun _ => ?_
      refine Lockstep.bind (hoptional stop) fun _ _ hstop => InStep.after _ fun _ => ?_
      exact Lockstep.bind (hoptional step) fun _ _ hstep => Lockstep.pure
        ⟨rfl, fun span own _ => shape_slice.fits (hstart.pair (hstop.pair hstep)) rfl⟩
  | filter operand name arguments layout =>
      rw [Expr.bare, bareOption_eq_map]
      refine Lockstep.bind (keeps_optionalPart hvisit operand) fun result plain hoperand => ?_
      have hsome : result.isSome = plain.isSome := by
        simpa using congrArg Option.isSome (hoperand.bare.trans hoperand.same.symm)
      rw [hsome]
      refine InStep.ite ?_ ?_
      all_goals
        refine InStep.after _ fun _ => InStep.after _ fun _ =>
          Lockstep.bind (keepsBeside_optionalArguments hvisit arguments) ?_
        rintro ⟨result, pairs⟩ ⟨plain, _⟩ ⟨harguments, rfl⟩
        exact Lockstep.pure
          ⟨rfl, fun span own _ => (shape_filter name).fits (hoperand.pair harguments) rfl⟩
  | test operand name arguments layout =>
      refine Lockstep.bind (hpart operand) fun _ _ hoperand => InStep.after _ fun _ => ?_
      refine InStep.after _ fun negated => InStep.afterIf _ (InStep.after _ fun _ => ?_)
      refine Lockstep.bind (keepsBeside_testArguments hvisit arguments) ?_
      rintro ⟨result, pairs⟩ ⟨plain, _⟩ ⟨harguments, rfl⟩
      exact Lockstep.pure
        ⟨rfl, fun span own _ => (shape_test name).fits (hoperand.pair harguments) rfl⟩
  | call operand arguments layout =>
      refine Lockstep.bind (hpart operand) fun _ _ hoperand => ?_
      refine Lockstep.bind (keepsBeside_callArguments hvisit arguments) ?_
      rintro ⟨result, pair⟩ ⟨plain, _⟩ ⟨harguments, rfl⟩
      exact Lockstep.pure
        ⟨rfl, fun span own _ => shape_call.fits (hoperand.pair harguments) rfl⟩

theorem keepsBeside_grouped : KeepsBeside (exprs (levels + 1)) (grouped visit) := by
  intro tree
  refine InStep.walked (InStep.after _ fun _ => Lockstep.bind (inStep_content hvisit tree) ?_)
  rintro ⟨result, pairs⟩ ⟨plain, _⟩ ⟨rfl, hfilled⟩
  have htuple : result.isTuple = plain.isTuple := by
    have hfits := hfilled none [] ⟨fun _ => rfl, absurd rfl⟩
    rw [← isTuple_located result none (pairs ++ []), ← isTuple_located plain none (pairs ++ [])]
    exact congrArg Expr.isTuple (hfits.bare.trans hfits.same.symm)
  intro extent
  dsimp only
  rw [← htuple]
  refine InStep.bindRun (leaves_closeAllGroups extent) ?_
  rintro ⟨innermost, extent⟩ _ ⟨hextent, rfl⟩
  refine InStep.bindRun (inStep_finish _ _ _ extent) ?_
  rintro _ _ ⟨span, extent, hspan, rfl, rfl⟩
  refine Lockstep.pure ⟨⟨hfilled (some span) _ ⟨fun hplain => by simp [hplain], fun hne => ?_⟩, rfl⟩, rfl⟩
  refine ⟨span, rfl, hspan (hextent ?_)⟩
  cases innermost with
  | none => simp at hne
  | some pair => rfl

omit hvisit in
theorem keepsBeside_expression (levels : Nat) :
    KeepsBeside (exprs levels) (expression levels) := by
  induction levels with
  | zero => exact fun _ _ => .inl ⟨.tooDeep, rfl, rfl⟩
  | succ levels ih => exact keepsBeside_grouped ih

end Expressions

end JinjaLayout.Alignment
