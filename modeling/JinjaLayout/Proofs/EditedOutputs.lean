import Mathlib
import JinjaLayout.Proofs.StoredPairs

/-!
Outputs whose nodes were edited. Main statement: whatever nodes are deleted, moved or put in, an
expression from the source is written in the tag that it had there; a tag is written twice only if
there are as many expressions as before and a fresh one stands where the source has one that is kept.
-/

namespace JinjaLayout

open Spelling List

/-- The nodes of an output after edits. A node that is put in is fresh. -/
inductive Edits (nodes : List Expr) : List Expr → Prop where
  | refl : Edits nodes nodes
  | delete {front node back} (h : Edits nodes (front ++ node :: back)) : Edits nodes (front ++ back)
  | reorder {edited edited'} (h : Edits nodes edited) (hperm : edited.Perm edited') :
      Edits nodes edited'
  | insert {front node back} (h : Edits nodes (front ++ back))
      (hfresh : node.layout.isAnnotated = false) : Edits nodes (front ++ node :: back)

theorem Edits.subperm {nodes edited : List Expr} (h : Edits nodes edited) :
    (edited.filter fun node => node.layout.isAnnotated).Subperm nodes := by
  induction h with
  | refl => exact filter_sublist.subperm
  | @delete front node back _ ih =>
      have hless : (front ++ back).Sublist (front ++ node :: back) :=
        (sublist_cons_self ..).append_left _
      exact (hless.filter _).subperm.trans ih
  | reorder _ hperm ih => exact (hperm.filter _).symm.subperm.trans ih
  | insert _ hfresh ih =>
      rw [filter_append, filter_cons_of_neg (by simp [hfresh]), ← filter_append]
      exact ih

namespace Writing

/-- The nodes of an output, each with the pair that is written around it. Text has none. -/
def inPairs (pairs : List TagPair) (count : Nat) : Nat → List Expr → List (Expr × Option TagPair)
  | _, [] => []
  | index, node :: nodes =>
      if node.isData then (node, none) :: inPairs pairs count index nodes
      else (node, outputPair pairs count index node) :: inPairs pairs count (index + 1) nodes

def nodeFragments (env : Environment) (write : Writers) :
    Expr × Option TagPair → Option (List Fragment)
  | (.data text layout, _) => some (dataFragments env text layout)
  | (expr, pair) => do
      let text ← write.bare Strength.condition expr
      return tagStart env .variable pair ++ .text text :: tagEnd env .variable pair

theorem outputFragments_eq (env : Environment) (write : Writers) (pairs : List TagPair)
    (count index : Nat) (nodes : List Expr) :
    outputFragments env write pairs count index nodes =
      ((inPairs pairs count index nodes).mapM (nodeFragments env write)).map flatten := by
  induction nodes generalizing index with
  | nil => rfl
  | cons node nodes ih =>
      cases node <;>
        simp [outputFragments, inPairs, nodeFragments, Expr.isData, ih, Option.map_eq_bind,
          Option.bind_assoc]

section

variable (pairs : List TagPair) (count index : Nat) (nodes : List Expr)

theorem map_fst_inPairs : (inPairs pairs count index nodes).map Prod.fst = nodes := by
  induction nodes generalizing index with
  | nil => rfl
  | cons node nodes ih => cases hdata : node.isData <;> simp [inPairs, hdata, ih]

theorem filterMap_inPairs : (inPairs pairs count index nodes).filterMap Prod.snd =
    ((nodes.filter fun node => !node.isData).zipIdx index).filterMap fun place =>
      outputPair pairs count place.2 place.1 := by
  induction nodes generalizing index with
  | nil => rfl
  | cons node nodes ih =>
      cases hdata : node.isData <;> simp [inPairs, hdata, ih, filterMap_cons]

theorem mem_inPairs {node : Expr} {pair : Option TagPair} (hdata : node.isData = false)
    (h : (node, pair) ∈ inPairs pairs count index nodes) :
    ∃ place, pair = outputPair pairs count place node := by
  induction nodes generalizing index with
  | nil => simp [inPairs] at h
  | cons first nodes ih =>
      unfold inPairs at h
      split at h
      · obtain ⟨rfl, rfl⟩ | h := by simpa using h
        · simp_all
        · exact ih _ h
      · obtain ⟨rfl, rfl⟩ | h := by simpa using h
        · exact ⟨index, rfl⟩
        · exact ih _ h

end

structure IsSource (source : List (Expr × TagPair)) : Prop where
  found : ∀ part ∈ source, part.1.layout.isAnnotated = true ∧
    ∀ count index, outputPair (source.map Prod.snd) count index part.1 = some part.2
  nodup : (source.map Prod.snd).Nodup

section

variable {source : List (Expr × TagPair)} {exprs : List Expr}

theorem IsSource.eq_of_pair (h : IsSource source) {i j : Nat} {part part' : Expr × TagPair}
    (hi : source[i]? = some part) (hj : source[j]? = some part') (hpair : part.2 = part'.2) : i = j := by
  refine (getElem?_inj (l := source.map Prod.snd) ?_ h.nodup).mp ?_
  · simpa using (List.getElem?_eq_some_iff.mp hi).1
  · simp [hi, hj, hpair]

theorem IsSource.nodup_fst (h : IsSource source) : (source.map Prod.fst).Nodup := by
  refine h.nodup.of_map.map_on fun part hpart part' hpart' hexpr => Prod.ext hexpr ?_
  have hpair := (h.found part hpart).2 0 0
  rw [hexpr, (h.found part' hpart').2 0 0] at hpair
  exact (Option.some.inj hpair).symm

theorem outputPair_of_fresh {pairs : List TagPair} {count index : Nat} {expr : Expr} {pair : TagPair}
    (hfresh : expr.layout.isAnnotated = false) :
    outputPair pairs count index expr = some pair ↔ pairs.length = count ∧ pairs[index]? = some pair := by
  have hspan : expr.layout.span = none := by simpa [Layout.isAnnotated] using hfresh
  simp [outputPair, hspan]

theorem nodup_filterMap_zipIdx {α β : Type} {values : List α} {f : α × Nat → Option β} :
    (values.zipIdx.filterMap f).Nodup ↔ ∀ i j a b, values[i]? = some a → values[j]? = some b →
      ∀ c, f (a, i) = some c → f (b, j) = some c → i = j := by
  rw [Nodup, pairwise_filterMap]
  constructor
  · intro hpairwise i j a b hi hj c ha hb
    by_contra hij
    have : Std.Symm fun place place' => ∀ c ∈ f place, ∀ c' ∈ f place', c ≠ c' :=
      ⟨fun _ _ hne c hc c' hc' => (hne c' hc' c hc).symm⟩
    exact hpairwise.forall (mk_mem_zipIdx_iff_getElem?.mpr hi)
      (mk_mem_zipIdx_iff_getElem?.mpr hj) (by simp [hij]) c ha c hb rfl
  · intro honce
    refine (nodup_zipIdx_map_snd values).of_map.pairwise_of_forall_ne ?_
    rintro ⟨a, i⟩ ha ⟨b, j⟩ hb hne c hc _ hc' rfl
    rw [mk_mem_zipIdx_iff_getElem?] at ha hb
    obtain rfl := honce i j a b ha hb c hc hc'
    exact hne (by rw [Option.some.inj (ha.symm.trans hb)])

theorem eq_of_nodup_filter {p : Expr → Bool} {i j : Nat} {expr : Expr} (h : (exprs.filter p).Nodup)
    (hi : exprs[i]? = some expr) (hj : exprs[j]? = some expr) (hexpr : p expr) : i = j := by
  rw [← zipIdx_map_fst 0 exprs, filter_map] at h
  have hmem : ∀ k : Nat, exprs[k]? = some expr →
      (expr, k) ∈ exprs.zipIdx.filter (p ∘ Prod.fst) := by
    intro k hk
    exact mem_filter.mpr ⟨mk_mem_zipIdx_iff_getElem?.mpr hk, hexpr⟩
  exact congrArg Prod.snd (inj_on_of_nodup_map h (hmem i hi) (hmem j hj) rfl)

/-- A pair is written twice exactly if a fresh expression takes the place of one that is kept. -/
theorem IsSource.nodup_iff (h : IsSource source)
    (hkept : ∀ expr ∈ exprs, expr.layout.isAnnotated → expr ∈ source.map Prod.fst)
    (honce : (exprs.filter fun expr => expr.layout.isAnnotated).Nodup) :
    (exprs.zipIdx.filterMap fun place =>
        outputPair (source.map Prod.snd) exprs.length place.2 place.1).Nodup ↔
      ((source.map Prod.snd).length = exprs.length → ∀ (place : Nat) kept fresh,
        (source.map Prod.fst)[place]? = some kept → exprs[place]? = some fresh →
          fresh.layout.isAnnotated = false → kept ∉ exprs) := by
  rw [nodup_filterMap_zipIdx]
  constructor
  · intro hnodup hcount place kept fresh hplace hfresh hnot hmem
    obtain ⟨⟨_, pair⟩, hpart, rfl⟩ := Option.map_eq_some_iff.mp (getElem?_map ▸ hplace)
    obtain ⟨other, hother⟩ := mem_iff_getElem?.mp hmem
    obtain ⟨hannotated, hpair⟩ := h.found _ (mem_of_getElem? hpart)
    obtain rfl : other = place := by
      refine hnodup other place _ _ hother hfresh pair (hpair _ _) ?_
      exact (outputPair_of_fresh hnot).mpr ⟨hcount, by simp [hpart]⟩
    rw [Option.some.inj (hother.symm.trans hfresh), hnot] at hannotated
    cases hannotated
  · intro hapart i j a b hi hj pair ha hb
    -- where an expression is from the source, its pair has a place there
    have hplace : ∀ expr place, expr ∈ exprs → expr.layout.isAnnotated = true →
        outputPair (source.map Prod.snd) exprs.length place expr = some pair →
          ∃ k : Nat, source[k]? = some (expr, pair) := by
      intro expr place hmem hannotated hpair
      obtain ⟨⟨_, _⟩, hpart, rfl⟩ := mem_map.mp (hkept expr hmem hannotated)
      obtain rfl : _ = pair := Option.some.inj (((h.found _ hpart).2 _ _).symm.trans hpair)
      exact mem_iff_getElem?.mp hpart
    -- a fresh expression takes the pair at its own place
    have hfresh : ∀ {k place : Nat} {kept fresh}, source[k]? = some (kept, pair) → kept ∈ exprs →
        exprs[place]? = some fresh → fresh.layout.isAnnotated = false →
          outputPair (source.map Prod.snd) exprs.length place fresh ≠ some pair := by
      intro k place kept fresh hk hmem hplace hfresh hpair
      obtain ⟨hcount, hat⟩ := (outputPair_of_fresh hfresh).mp hpair
      obtain ⟨part, hpart, rfl⟩ := Option.map_eq_some_iff.mp (getElem?_map ▸ hat)
      obtain rfl := h.eq_of_pair hk hpart rfl
      exact hapart hcount _ _ _ (by simp [hk]) hplace hfresh hmem
    have hamem := mem_of_getElem? hi
    have hbmem := mem_of_getElem? hj
    cases hannotated : a.layout.isAnnotated <;> cases hannotated' : b.layout.isAnnotated
    · have hat := ((outputPair_of_fresh hannotated).mp ha).2
      have hat' := ((outputPair_of_fresh hannotated').mp hb).2
      exact (List.getElem?_inj (List.getElem?_eq_some_iff.mp hat).1 h.nodup).mp (hat.trans hat'.symm)
    · obtain ⟨k, hk⟩ := hplace b j hbmem hannotated' hb
      exact (hfresh hk hbmem hi hannotated ha).elim
    · obtain ⟨k, hk⟩ := hplace a i hamem hannotated ha
      exact (hfresh hk hamem hj hannotated' hb).elim
    · obtain ⟨k, hk⟩ := hplace a i hamem hannotated ha
      obtain ⟨k', hk'⟩ := hplace b j hbmem hannotated' hb
      obtain rfl := h.eq_of_pair hk hk' rfl
      obtain ⟨rfl, -⟩ := Prod.mk.inj (Option.some.inj (hk.symm.trans hk'))
      exact eq_of_nodup_filter honce hi hj hannotated

end

theorem exists_isSource {table ts us : List Token} {nodes : List Expr} {layout : Layout}
    (h : StmtSpells table True (.output nodes layout) ts us) (hincreasing : Alignment.Increasing ts) :
    ∃ source, IsSource source ∧ source.map Prod.fst = nodes.filter (fun node => !node.isData) ∧
      source.map Prod.snd = layout.pairs := by
  cases h.unfold with
  | @output parts _ _ _ _ hparts hsealed =>
      let tagged : Expr × Option TagPair → Option (Expr × TagPair) := fun part => part.2.map (part.1, ·)
      have hsnd : (parts.filterMap tagged).map Prod.snd = parts.filterMap Prod.snd := by
        simp [tagged, map_filterMap]
      refine ⟨parts.filterMap tagged, ⟨?_, ?_⟩, ?_, ?_⟩
      · rintro ⟨expr, pair⟩ hmem
        obtain ⟨⟨_, _⟩, hpart, hpair⟩ := mem_filterMap.mp hmem
        obtain ⟨_, rfl, ⟨⟩⟩ := Option.map_eq_some_iff.mp hpair
        rw [hsnd]
        exact ⟨(found_of_chained hparts hincreasing 0 _ (mem_map_of_mem hpart)).1,
          outputPair_of_mem hparts hincreasing hpart⟩
      · rw [hsnd]
        have hclosings : ((parts.filterMap Prod.snd).map TagPair.closing).Nodup :=
          (hincreasing.sublist (closings_sublist_of_chained hparts)).imp fun hless heq =>
            hless.ne (congrArg Token.index heq)
        exact hclosings.of_map
      · rw [map_filterMap, filter_map, ← filterMap_eq_filter, map_filterMap]
        refine filterMap_congr (hparts.forall_mem fun part ts us hpart => ?_)
        cases hpart with
        | data => rfl
        | expr _ hexpr _ _ => simp [tagged, Option.guard, hexpr.isData_eq_false]
      · rw [hsnd, (hsealed trivial).2]

end Writing

namespace Template

open Writing

/-- Outputs after edits. Each node is written in one pair or in none. An expression from the source
has the pair that stood around it there. No pair is written twice, unless there are as many
expressions as pairs and a fresh one stands at the place of one that was kept. -/
theorem edited_pairs_nodup_iff (env : Environment) (name : Option String) (source : Text)
    (template : Template) (table : TokenTable)
    (h : parseAnnotated env name source = .ok (template, table)) (depth : Nat) (nodes : List Expr)
    (layout : Layout)
    (hitem : (depth, Node.stmt (.output nodes layout)) ∈ (Node.template template).preorder 0)
    (edited : List Expr) (hedits : Edits nodes edited) :
    let exprs := edited.filter fun node => !node.isData
    let parts := inPairs layout.pairs exprs.length 0 edited
    (parts.map Prod.fst = edited ∧
      ∀ env' levels, statement env' (levels + 1) (.output edited layout) =
        (parts.mapM (nodeFragments env' ⟨expression levels, statement env' levels⟩)).map
          List.flatten) ∧
      (∀ part ∈ parts, part.1.layout.isAnnotated = true → part.1.isData = false →
        ∃ pair, part.2 = some pair ∧
          (part.1, pair) ∈ (nodes.filter fun node => !node.isData).zip layout.pairs ∧
          pair.IsPaired table.tokens ∧ Encloses pair part.1) ∧
      ((parts.filterMap Prod.snd).Nodup ↔ (layout.pairs.length = exprs.length →
        ∀ (place : Nat) kept fresh, (nodes.filter fun node => !node.isData)[place]? = some kept →
          exprs[place]? = some fresh → fresh.layout.isAnnotated = false → kept ∉ exprs)) := by
  intro exprs parts
  obtain ⟨htable, _, last, hspells⟩ := exists_spells_of_parseAnnotated h
  obtain ⟨ts, us, hstmt, hsuffix⟩ := (hspells.located.preorder hitem).stmt
  obtain ⟨source, hsource, hfst, hsnd⟩ := exists_isSource hstmt
    (htable.pairwise_significant.sublist ((List.sublist_append_left ..).trans hsuffix.sublist))
  have hless : (exprs.filter fun expr => expr.layout.isAnnotated).Subperm (source.map Prod.fst) := by
    rw [hfst, List.filter_comm]
    exact hedits.subperm.filter _
  have hkept : ∀ expr ∈ exprs, expr.layout.isAnnotated = true → expr ∈ source.map Prod.fst :=
    fun expr hexpr hannotated => hless.subset (List.mem_filter.mpr ⟨hexpr, hannotated⟩)
  refine ⟨⟨map_fst_inPairs .., fun env' levels => ?_⟩, ?_, ?_⟩
  · rw [← outputFragments_eq, statement, statementContent, List.countP_eq_length_filter]
    simp [isFresh, exprs]
  · rintro ⟨expr, found⟩ hpart hannotated hdata
    obtain ⟨place, hfound⟩ := mem_inPairs _ _ _ _ hdata hpart
    have hmem : expr ∈ edited := map_fst_inPairs layout.pairs exprs.length 0 edited ▸
      List.mem_map_of_mem hpart
    obtain ⟨⟨_, pair⟩, hown, rfl⟩ := List.mem_map.mp
      (hkept expr (List.mem_filter.mpr ⟨hmem, by simp [hdata]⟩) hannotated)
    have hzip := List.zip_of_prod hfst hsnd ▸ hown
    refine ⟨pair, hfound.trans (hsnd ▸ (hsource.found _ hown).2 _ _), hzip, ?_⟩
    exact List.forall₂_zip (hstmt.pairs_output htable hsuffix) hzip
  · rw [filterMap_inPairs, ← hfst, ← hsnd]
    obtain ⟨others, hperm, hsublist⟩ := hless
    exact hsource.nodup_iff hkept (hperm.nodup_iff.mp (hsource.nodup_fst.sublist hsublist))

theorem exists_output {α : Type} (source : Text) (a : α)
    (f : Template → Expr → List Expr → Layout → α)
    (h : ((parseAnnotated {} none source).toOption.bind fun annotated =>
      match annotated.1.body with
      | [.output (first :: nodes) layout] => some (f annotated.1 first nodes layout)
      | _ => none) = some a) :
    ∃ template table first nodes layout, parseAnnotated {} none source = .ok (template, table) ∧
      (1, Node.stmt (.output (first :: nodes) layout)) ∈ (Node.template template).preorder 0 ∧
      f template first nodes layout = a := by
  cases hparse : parseAnnotated {} none source with
  | error error => simp [hparse, Except.toOption] at h
  | ok annotated =>
      rw [hparse] at h
      dsimp only [Except.toOption, Option.bind_some] at h
      split at h
      · rename_i first nodes layout hbody
        have hchild : Node.stmt (.output (first :: nodes) layout) ∈
            (Node.template annotated.1).children := mem_map_of_mem (hbody ▸ mem_cons_self)
        exact ⟨annotated.1, annotated.2, first, nodes, layout, rfl,
          Node.mem_preorder_of_child hchild (Node.mem_preorder_self _ _), Option.some.inj h⟩
      · cases h

/-- An expression that is put in has no pair, and the others keep theirs. -/
theorem edited_pairs_nodup_of_added :
    ∃ template table first nodes layout,
      parseAnnotated {} none "x {{- a }} y {{ b -}} z".toList = .ok (template, table) ∧
      let edited := Expr.name "c".toList .load {} :: first :: nodes
      Edits (first :: nodes) edited ∧
      ((inPairs layout.pairs (edited.filter fun node => !node.isData).length 0 edited).filterMap
        Prod.snd).Nodup ∧
      dump {} { template with body := [.output edited layout] } =
        .ok "{{ c }}x {{- a }} y {{ b -}} z".toList := by
  obtain ⟨template, table, first, nodes, layout, hparse, hitem, hrun⟩ := exists_output
    "x {{- a }} y {{ b -}} z".toList (.ok "{{ c }}x {{- a }} y {{ b -}} z".toList, false)
    (fun template first nodes layout =>
      let edited := Expr.name "c".toList .load {} :: first :: nodes
      (dump {} { template with body := [.output edited layout] },
        decide (layout.pairs.length = (edited.filter fun node => !node.isData).length)))
    (by decide +kernel)
  obtain ⟨hdump, hcount⟩ := Prod.mk.inj hrun
  have hedits : Edits (first :: nodes) (Expr.name "c".toList .load {} :: first :: nodes) :=
    @Edits.insert _ [] _ _ .refl rfl
  refine ⟨template, table, first, nodes, layout, hparse, hedits, ?_, hdump⟩
  refine (edited_pairs_nodup_iff {} none _ template table hparse 1 _ layout hitem _ hedits).2.2.mpr ?_
  exact fun h => (of_decide_eq_false hcount h).elim

/-- A fresh expression stands where the source has one that is kept, and takes its pair. -/
theorem pair_written_twice_at_place :
    ∃ template table first nodes layout,
      parseAnnotated {} none "{{ a }}{{- b -}}".toList = .ok (template, table) ∧
      let edited := nodes ++ [Expr.name "c".toList .load {}]
      Edits (first :: nodes) edited ∧
      ¬((inPairs layout.pairs (edited.filter fun node => !node.isData).length 0 edited).filterMap
        Prod.snd).Nodup ∧
      dump {} { template with body := [.output edited layout] } =
        .ok "{{- b -}}{{- c -}}".toList := by
  obtain ⟨template, table, first, nodes, layout, hparse, -, hrun⟩ := exists_output
    "{{ a }}{{- b -}}".toList (.ok "{{- b -}}{{- c -}}".toList, false)
    (fun template first nodes layout =>
      let edited := nodes ++ [Expr.name "c".toList .load {}]
      (dump {} { template with body := [.output edited layout] },
        decide ((inPairs layout.pairs (edited.filter fun node => !node.isData).length 0
          edited).filterMap Prod.snd).Nodup))
    (by decide +kernel)
  obtain ⟨hdump, htwice⟩ := Prod.mk.inj hrun
  refine ⟨template, table, first, nodes, layout, hparse, ?_, of_decide_eq_false htwice, hdump⟩
  have hdelete : Edits (first :: nodes) nodes := @Edits.delete _ [] first nodes .refl
  exact @Edits.insert _ nodes _ [] (by rwa [List.append_nil]) rfl

end Template

end JinjaLayout
