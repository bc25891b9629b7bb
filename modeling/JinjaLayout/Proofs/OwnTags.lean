import Mathlib
import JinjaLayout.Proofs.NestedSpans

/-!
An annotated tree is written with its own tags. Main statement: whichever way the writer looks for a
pair (by its place, by its keyword or by the tokens around an expression), it finds the one from the
source, so that the environment does not matter for the text.
-/

namespace JinjaLayout

open Spelling List

namespace Spelling

theorem Chained.split {α : Type} {spelled : Spelling α} {values others : List α} {ts us : List Token}
    (h : Chained spelled (values ++ others) ts us) :
    ∃ ts' ts'', ts = ts' ++ ts'' ∧ Chained spelled values ts' (ts'' ++ us) ∧
      Chained spelled others ts'' us := by
  induction values generalizing ts with
  | nil => exact ⟨[], ts, rfl, .nil, h⟩
  | cons first values ih =>
      cases h with
      | @cons _ _ front rest _ hfirst hvalues =>
          obtain ⟨ts', ts'', rfl, hvalues', hothers⟩ := ih hvalues
          rw [append_assoc] at hfirst
          exact ⟨front ++ ts', ts'', by simp, .cons hfirst hvalues', hothers⟩

section Outputs

variable {table : List Token} {parts : List (Expr × Option TagPair)} {expr : Expr} {pair : TagPair}
  {ts us : List Token}

theorem closings_sublist_of_chained (h : Chained (NodeSpelled table True) parts ts us) :
    ((parts.filterMap Prod.snd).map TagPair.closing).Sublist ts := by
  induction h with
  | nil => exact .slnil
  | cons hnode _ ih =>
      cases hnode with
      | data _ _ _ => exact ih.trans (sublist_append_right ..)
      | expr _ _ _ hmarked =>
          rw [filterMap_cons_some (by rfl), map_cons, ← singleton_append]
          refine .append ?_ ih
          simp [hmarked trivial, tagPair]

theorem Spells.between {opening closing : Token} (h : Spells True .value expr ts us)
    (hincreasing : Alignment.Increasing (opening :: (ts ++ [closing]))) :
    ∃ start stop, expr.layout.span = some (start, stop) ∧ opening.index < start ∧ start < stop ∧
      stop ≤ closing.index := by
  have hinner := (pairwise_cons.mp hincreasing).2
  have hbefore : (spanOf [opening]).2 ≤ (spanOf ts).1 :=
    Alignment.spanOf_le (hincreasing.sublist (by simp)) (by simp) h.ne_nil
  have hbehind : (spanOf ts).2 ≤ (spanOf [closing]).1 := Alignment.spanOf_le hinner h.ne_nil (by simp)
  exact ⟨_, _, h.span_eq, hbefore, Alignment.spanOf_lt (pairwise_append.mp hinner).1 h.ne_nil, hbehind⟩

theorem outputPair_of_mem (h : Chained (NodeSpelled table True) parts ts us)
    (hincreasing : Alignment.Increasing ts) (hmem : (expr, some pair) ∈ parts) (count index : Nat) :
    Writing.outputPair (parts.filterMap Prod.snd) count index expr = some pair := by
  obtain ⟨done, rest, rfl⟩ := append_of_mem hmem
  obtain ⟨ts', ts'', rfl, hdone, hothers⟩ := h.split
  cases hothers with
  | cons hnode _ =>
      cases hnode with
      | @expr _ _ opening closing inner _ _ hexpr _ hmarked =>
          obtain ⟨-, hrest, hbefore⟩ := pairwise_append.mp hincreasing
          obtain ⟨start, stop, hspan, hstart, hlt, hstop⟩ :=
            hexpr.between (pairwise_append.mp hrest).1
          -- the tags before this one end before the expression begins
          have hnone : ∀ other ∈ done.filterMap Prod.snd,
              ¬(decide (other.opening.index < start) && decide (stop ≤ other.closing.index)) := by
            intro other hother
            have hless := hbefore _ ((closings_sublist_of_chained hdone).subset
              (mem_map_of_mem hother)) opening (by simp)
            simp only [Bool.and_eq_true, decide_eq_true_eq, not_and]
            omega
          rw [Writing.outputPair, hspan, filterMap_append, filterMap_cons_some (by rfl)]
          dsimp only
          rw [find?_append, find?_eq_none.mpr hnone, Option.none_or]
          refine find?_cons_of_pos ?_
          simp [hmarked trivial, tagPair, hstart, hstop]

end Outputs

section Keywords

variable {table ts us : List Token} {keyword : Text} {inside : Phrase} {pair : TagPair}

theorem TagSpelled.keyword_eq (h : TagSpelled table True keyword inside pair ts us) :
    pair.keyword = keyword := by
  cases h with
  | mk _ _ _ _ _ hmarked => rw [hmarked trivial, tagPair]

variable {spelled : Spelling Stmt} {stmts : List Stmt} {pairs : List TagPair}

theorem ElseSpelled.keyword_eq (h : ElseSpelled table True spelled stmts pairs ts us) :
    ∀ pair ∈ pairs, pair.keyword = "else".toList := by
  cases h with
  | none => simp
  | some htag _ => simp [htag.keyword_eq]

theorem BranchSpelled.keyword_eq {branches : List (Branch × TagPair)}
    (h : Chained (BranchSpelled table True spelled) branches ts us) :
    ∀ pair ∈ branches.map Prod.snd, pair.keyword = "elif".toList := by
  refine forall_mem_map.mpr (h.forall_mem fun part ts us hpart => ?_)
  cases hpart with
  | mk htag _ _ => exact htag.keyword_eq

/-- The pairs of a loop or a branch, each found by its keyword; an `else` only where there is one. -/
theorem pairOf_of_keywords {start stop : Text} {first last : TagPair} {middle others : List TagPair}
    (hwords : [start, "elif".toList, "else".toList, stop].Nodup) (hfirst : first.keyword = start)
    (hmiddle : ∀ pair ∈ middle, pair.keyword = "elif".toList)
    (hothers : ∀ pair ∈ others, pair.keyword = "else".toList) (hlast : last.keyword = stop) :
    Writing.pairOf (first :: middle ++ others ++ [last]) start = some first ∧
      Writing.pairOf (first :: middle ++ others ++ [last]) "else" = others.head? ∧
      Writing.pairOf (first :: middle ++ others ++ [last]) stop = some last := by
  have hmiss : ∀ (word other : Text) (pairs : List TagPair), other ≠ word →
      (∀ pair ∈ pairs, pair.keyword = other) →
      (pairs.find? fun pair => pair.keyword == word) = none := by
    intro word other pairs hne hpairs
    refine find?_eq_none.mpr fun pair hpair => ?_
    simpa [hpairs pair hpair] using hne
  simp only [nodup_cons, mem_cons, not_mem_nil, or_false, not_or] at hwords
  obtain ⟨⟨helif, helse, hstop⟩, ⟨-, helifStop⟩, helseStop, -⟩ := hwords
  have hothersElse : (others.find? fun pair => pair.keyword == "else".toList) = others.head? := by
    cases others with
    | nil => rfl
    | cons pair others => exact find?_cons_of_pos (by simp [hothers pair mem_cons_self])
  refine ⟨?_, ?_, ?_⟩
  · simp [Writing.pairOf, hfirst]
  · rw [Writing.pairOf, find?_append, find?_append,
      find?_cons_of_neg (by simpa [hfirst] using helse), hmiss _ _ _ (by decide) hmiddle,
      hothersElse, Option.none_or, find?_singleton, if_neg (by simpa [hlast] using Ne.symm helseStop),
      Option.or_none]
  · rw [Writing.pairOf, find?_append, find?_append,
      find?_cons_of_neg (by simpa [hfirst] using hstop), hmiss _ _ _ helifStop hmiddle,
      hmiss _ _ _ helseStop hothers, Option.none_or, Option.none_or, find?_singleton,
      if_pos (by simp [hlast])]

end Keywords

end Spelling

namespace Writing

variable {table ts us : List Token} {env env' : Environment} {write write' : Writers}

def Found (pairs : List TagPair) (count : Nat) (node : Expr) : Prop :=
  node.layout.isAnnotated = true ∧
    (node.isData ∨ ∃ pair, ∀ index, outputPair pairs count index node = some pair)

theorem found_of_chained {parts : List (Expr × Option TagPair)}
    (h : Chained (NodeSpelled table True) parts ts us) (hincreasing : Alignment.Increasing ts) (count : Nat) :
    ∀ node ∈ parts.map Prod.fst, Found (parts.filterMap Prod.snd) count node := by
  have hspelled : ∀ part ∈ parts, ∃ ts us, NodeSpelled table True part ts us :=
    h.forall_mem fun _ ts us hpart => ⟨ts, us, hpart⟩
  refine forall_mem_map.mpr fun part hmem => ?_
  obtain ⟨ts', us', hpart⟩ := hspelled part hmem
  cases hpart with
  | data _ _ hmarked => exact ⟨by simp [Expr.layout, Layout.isAnnotated, hmarked trivial], .inl rfl⟩
  | expr _ hexpr _ _ =>
      exact ⟨by simp [Layout.isAnnotated, hexpr.span_eq],
        .inr ⟨_, outputPair_of_mem h hincreasing hmem count⟩⟩

/-- The writers agree on the statement if its tokens stand in order. -/
abbrev Agrees (write write' : Writers) : Spelling Stmt :=
  fun stmt ts _ => Alignment.Increasing ts → write.stmt stmt = write'.stmt stmt

variable {stmts : List Stmt}

theorem mapM_congr_of_chained {f f' : Stmt → Option (List Fragment)}
    (h : Chained (fun stmt ts _ => Alignment.Increasing ts → f stmt = f' stmt) stmts ts us)
    (hincreasing : Alignment.Increasing ts) : stmts.mapM f = stmts.mapM f' := by
  induction h with
  | nil => rfl
  | cons hstmt _ ih =>
      obtain ⟨hfirst, hrest, -⟩ := pairwise_append.mp hincreasing
      rw [mapM_cons, mapM_cons, hstmt hfirst, ih hrest]

theorem body_congr (h : Chained (Agrees write write') stmts ts us)
    (hincreasing : Alignment.Increasing ts) : write.body stmts = write'.body stmts := by
  rw [Writers.body, Writers.body, mapM_congr_of_chained h hincreasing]

theorem otherwise_congr (env env' : Environment) {pairs all : List TagPair}
    (h : ElseSpelled table True (Agrees write write') stmts pairs ts us)
    (hpair : pairOf all "else" = pairs.head?) (hincreasing : Alignment.Increasing ts) :
    otherwise env write all stmts = otherwise env' write' all stmts := by
  unfold otherwise
  rw [hpair]
  cases h with
  | none => rfl
  | some _ hstmts =>
      rw [body_congr hstmts (pairwise_append.mp hincreasing).2.1]
      rfl

theorem enclosed_congr (env env' : Environment) {keyword stop : Text} {inside last : Phrase}
    {pairs : List TagPair} {layout : Layout}
    (h : EnclosedSpelled table True (Agrees write write') keyword stop inside last stmts pairs ts us)
    (hlayout : layout.pairs = pairs) (hincreasing : Alignment.Increasing ts)
    (content : List Fragment) (stopText : Text) :
    enclosed env write layout content stmts stopText =
      enclosed env' write' layout content stmts stopText := by
  cases h with
  | mk _ hstmts _ =>
      obtain ⟨-, hrest, -⟩ := pairwise_append.mp hincreasing
      rw [enclosed, enclosed, hlayout, body_congr hstmts (pairwise_append.mp hrest).1]
      rfl

section Congr

variable (hexpr : write.expr = write'.expr)

include hexpr

theorem bare_congr : write.bare = write'.bare := by
  funext strength expr
  rw [Writers.bare, Writers.bare, hexpr]

theorem outputFragments_congr {pairs : List TagPair} {count index : Nat} {nodes : List Expr}
    (hnodes : ∀ node ∈ nodes, Found pairs count node) :
    outputFragments env write pairs count index nodes =
      outputFragments env' write' pairs count index nodes := by
  induction nodes generalizing index with
  | nil => rfl
  | cons node nodes ih =>
      obtain ⟨hannotated, hfound⟩ := hnodes node mem_cons_self
      have hrest : ∀ index, outputFragments env write pairs count index nodes =
          outputFragments env' write' pairs count index nodes :=
        fun index => ih fun other hother => hnodes other (mem_cons_of_mem _ hother)
      cases node with
      | data text layout =>
          have hraw : ∀ env, needsRaw env text layout = false := fun env => by
            simp [needsRaw, show layout.isAnnotated = true from hannotated]
          simp only [outputFragments, dataFragments, hraw, hrest]
          rfl
      | _ =>
          obtain ⟨pair, hpair⟩ := hfound.resolve_left Bool.false_ne_true
          simp only [outputFragments, hpair, bare_congr hexpr, hrest]
          rfl

theorem guarded_congr (env env' : Environment) {test : Expr} {stmts : List Stmt} {pair : TagPair}
    (h : Chained (Agrees write write') stmts ts us) (hincreasing : Alignment.Increasing ts)
    (keyword : Text) :
    guarded env write (some pair) keyword test stmts =
      guarded env' write' (some pair) keyword test stmts := by
  rw [guarded, guarded, bare_congr hexpr, body_congr h hincreasing]
  rfl

theorem further_congr (env env' : Environment) {branches : List (Branch × TagPair)}
    (h : Chained (BranchSpelled table True (Agrees write write')) branches ts us)
    (hincreasing : Alignment.Increasing ts) :
    ((branches.map Prod.fst).mapM fun other =>
        guarded env write other.layout.pairs[0]? "elif" other.test other.body) =
      (branches.map Prod.fst).mapM fun other =>
        guarded env' write' other.layout.pairs[0]? "elif" other.test other.body := by
  induction h with
  | nil => rfl
  | cons hbranch _ ih =>
      obtain ⟨hfirst, hrest, -⟩ := pairwise_append.mp hincreasing
      cases hbranch with
      | @mk test stmts layout pair _ _ _ _ hstmts hsealed =>
          have hpair : layout.pairs[0]? = some pair := by rw [(hsealed trivial).2, getElem?_cons_zero]
          rw [map_cons, mapM_cons, mapM_cons, ih hrest]
          change guarded env write layout.pairs[0]? "elif" test stmts >>= _ =
            guarded env' write' layout.pairs[0]? "elif" test stmts >>= _
          rw [hpair, guarded_congr hexpr env env' hstmts (pairwise_append.mp hfirst).2.1]

/-- What a statement is written as does not hang on the environment, nor on that of the statements
of its bodies. -/
theorem statementContent_congr {stmt : Stmt}
    (h : StmtLayer table True (Agrees write write') stmt ts us) (hincreasing : Alignment.Increasing ts) :
    statementContent env write stmt = statementContent env' write' stmt := by
  have hbare := bare_congr hexpr
  have hbound : boundText write = boundText write' := by
    funext node
    rw [boundText, boundText, hbare, hexpr]
  cases h with
  | output _ hparts hsealed =>
      rw [statementContent, statementContent, (hsealed trivial).2]
      exact outputFragments_congr hexpr (found_of_chained hparts hincreasing _)
  | print _ hsealed | insert _ hsealed | importAs _ hsealed | importNames _ hsealed =>
      simp only [statementContent, hexpr, (hsealed trivial).2]
      rfl
  | extend _ hsealed | perform _ hsealed | assign _ hsealed =>
      simp only [statementContent, hbare, (hsealed trivial).2]
      rfl
  | skip _ hsealed | leave _ hsealed =>
      simp only [statementContent, (hsealed trivial).2]
      rfl
  | block henclosed hsealed =>
      cases henclosed with
      | mk _ hstmts _ =>
          obtain ⟨-, hrest, -⟩ := pairwise_append.mp hincreasing
          simp only [statementContent, (hsealed trivial).2,
            body_congr hstmts (pairwise_append.mp hrest).1]
          rfl
  | loop hfirst hstmts hothers hlast hsealed =>
      obtain ⟨-, hrest, -⟩ := pairwise_append.mp hincreasing
      obtain ⟨hbody, hrest, -⟩ := pairwise_append.mp hrest
      have helse := (pairwise_append.mp hrest).1
      obtain ⟨hfor, hpair, hendfor⟩ := pairOf_of_keywords (by decide) hfirst.keyword_eq
        (forall_mem_nil _) hothers.keyword_eq hlast.keyword_eq
      rw [singleton_append] at hfor hpair hendfor
      simp only [statementContent, hbare, hexpr, (hsealed trivial).2, body_congr hstmts hbody,
        otherwise_congr env env' hothers hpair helse, hfor, hendfor]
      rfl
  | branch hfirst hstmts hbranches hothers hlast hsealed =>
      obtain ⟨-, hrest, -⟩ := pairwise_append.mp hincreasing
      obtain ⟨hbody, hrest, -⟩ := pairwise_append.mp hrest
      obtain ⟨hfurther, hrest, -⟩ := pairwise_append.mp hrest
      have helse := (pairwise_append.mp hrest).1
      obtain ⟨hif, hpair, hendif⟩ := pairOf_of_keywords (by decide) hfirst.keyword_eq
        (BranchSpelled.keyword_eq hbranches) hothers.keyword_eq hlast.keyword_eq
      simp only [statementContent, branchFragments, (hsealed trivial).2, hif, hendif,
        guarded_congr hexpr env env' hstmts hbody, otherwise_congr env env' hothers hpair helse,
        further_congr hexpr env env' hbranches hfurther]
      rfl
  | bind henclosed hsealed | capture henclosed hsealed | filterBlock henclosed hsealed
  | macroBlock henclosed hsealed | callBlock _ henclosed hsealed
  | autoescape henclosed _ hsealed =>
      simp only [statementContent, hexpr, hbare, hbound,
        enclosed_congr env env' henclosed (hsealed trivial).2 hincreasing]
  | scope hinner _ => exact body_congr (.cons (by simpa using hinner) .nil) (by simpa using hincreasing)

end Congr

theorem statement_congr {stmt : Stmt} (h : StmtSpells table True stmt ts us)
    (hincreasing : Alignment.Increasing ts) (levels : Nat) :
    statement env levels stmt = statement env' levels stmt := by
  induction levels generalizing stmt ts us with
  | zero => rfl
  | succ levels ih =>
      have hlayer : StmtLayer table True (Agrees ⟨expression levels, statement env levels⟩
          ⟨expression levels, statement env' levels⟩) stmt ts us :=
        h.unfold.mono fun _ _ _ hinner hsorted => ih hinner hsorted
      have hcontent : statementContent env ⟨expression levels, statement env levels⟩ stmt =
          statementContent env' ⟨expression levels, statement env' levels⟩ stmt :=
        statementContent_congr (by rfl) hlayer hincreasing
      rw [statement, statement, hcontent]

theorem dump_congr {template : Template} {last : Token} (htable : IsTable table)
    (h : TemplateSpells table True template ts last) : dump env template = dump env' template := by
  have hincreasing : Alignment.Increasing ts := by
    have hall := htable.pairwise_significant
    rw [h.split] at hall
    exact (pairwise_append.mp hall).1
  have hbody : template.body.mapM (statement env nestingLimit) =
      template.body.mapM (statement env' nestingLimit) := by
    refine mapM_congr_of_chained (h.body.mono fun _ _ _ hstmt hsorted => ?_) hincreasing
    exact statement_congr hstmt hsorted nestingLimit
  rw [dump, dump, fragments, fragments, hbody]

end Writing

namespace Template

theorem exists_dump_of_parseAnnotated {env : Environment} {name : Option String} {source : Text}
    {template : Template} {table : TokenTable}
    (h : parseAnnotated env name source = .ok (template, table)) :
    ∃ text, Writing.dump env template = some text := by
  obtain ⟨tree, hparse⟩ := exists_parse_of_parseAnnotated h
  obtain ⟨read, htokens, htable, ts, last, hspells⟩ := exists_tokens_of_parse hparse
  rw [parseAnnotated_of_parse hparse htokens name] at h
  rcases annotate_cases_of_spells htable hspells rfl env with
    ⟨fault, hfault, -⟩ | ⟨result, -, text, hresult, -, -, htext, -⟩
  · obtain ⟨error, herror⟩ := annotateWith_of_error { read with name } hfault
    rw [herror] at h
    cases h
  · rw [annotateWith_of_ok { read with name } hresult] at h
    cases h
    exact ⟨text, htext⟩

/-- An annotated template carries its own delimiters: it has one text, in whichever environment it is
written. -/
theorem dump_forgets_environment (env : Environment) (name : Option String) (source : Text)
    (template : Template) (table : TokenTable)
    (h : parseAnnotated env name source = .ok (template, table)) :
    ∃ text, dump env template = .ok text ∧ ∀ env', dump env' template = .ok text := by
  obtain ⟨htable, ts, last, hspells⟩ := exists_spells_of_parseAnnotated h
  obtain ⟨text, htext⟩ := exists_dump_of_parseAnnotated h
  refine ⟨text, by rw [dump, htext, Option.elim_some], fun env' => ?_⟩
  have hsame : Writing.dump env' template = Writing.dump env template :=
    Writing.dump_congr htable hspells
  rw [dump, hsame, htext, Option.elim_some]

/-- Square delimiters, chomped blanks, an empty `else` and a comment, written with the stock ones. -/
theorem dump_forgets_environment_of_square :
    ∃ template table text,
      parseAnnotated { blockStart := "[%".toList, blockEnd := "%]".toList } none
        "[%- if (a) -%] {# #}{{ a }}[% else %][% endif %]".toList = .ok (template, table) ∧
      dump { blockStart := "[%".toList, blockEnd := "%]".toList } template = .ok text ∧
      dump {} template = .ok text := by
  have hshallow : (parseAnnotated { blockStart := "[%".toList, blockEnd := "%]".toList } none
      "[%- if (a) -%] {# #}{{ a }}[% else %][% endif %]".toList).toBool = true := by
    decide +kernel
  cases hparse : parseAnnotated { blockStart := "[%".toList, blockEnd := "%]".toList } none
      "[%- if (a) -%] {# #}{{ a }}[% else %][% endif %]".toList with
  | error error =>
      rw [hparse] at hshallow
      exact absurd hshallow Bool.false_ne_true
  | ok annotated =>
      obtain ⟨text, htext, hall⟩ :=
        dump_forgets_environment _ none _ annotated.1 annotated.2 hparse
      exact ⟨annotated.1, annotated.2, text, rfl, htext, hall {}⟩

end Template

end JinjaLayout
