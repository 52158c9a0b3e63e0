import Mathlib.Data.List.Induction
import Mathlib.SetTheory.Cardinal.Arithmetic
import TableQuery.Proofs.Answers
import TableQuery.Proofs.References

/-! The names in an answer. The table of some values depends on their names only through which of
them are equal, and has every column at its place if columns of one name are the same. -/
namespace TableQuery

open List Table Column

variable {α : Type} {S : Set String} {name : String}

def EqualAlike (xs ys : List String) : Prop :=
  ∃ f g : String → String, xs.map f = ys ∧ ys.map g = xs

/-- Different names of a list are replaced by different ones as well if all names are. -/
theorem exists_injective {names : List String} {f : String → String}
    (hf : Set.InjOn f { n | n ∈ names }) :
    ∃ g : String → String, g.Injective ∧ ∀ n ∈ names, g n = f n := by
  have hFew : Cardinal.mk { n | n ∈ names } < Cardinal.mk String :=
    (Cardinal.lt_aleph0_iff_set_finite.2 names.finite_toSet).trans_le (Cardinal.aleph0_le_mk String)
  obtain ⟨g, hg⟩ := Cardinal.extend_function_of_lt ⟨_, hf.injective⟩ hFew ⟨Equiv.refl String⟩
  exact ⟨g, g.injective, fun n hn => hg ⟨n, hn⟩⟩

theorem map_fst_setNamed (pairs : List (String × α)) (name : String) (a : α) :
    (setNamed pairs name a).map (·.1) =
      if name ∈ pairs.map (·.1) then pairs.map (·.1) else pairs.map (·.1) ++ [name] := by
  induction pairs with
  | nil => rfl
  | cons p rest ih =>
    by_cases hName : p.1 = name
    · simp [setNamed, hName]
    · simp only [setNamed, beq_iff_eq, hName, if_false, map_cons, ih, mem_cons,
        Ne.symm hName, false_or]
      split <;> rfl

theorem names_setNamed {pairs : List (String × α)} (hPairs : ∀ p ∈ pairs, p.1 ∈ S)
    (hName : name ∈ S) (a : α) : ∀ p ∈ setNamed pairs name a, p.1 ∈ S := by
  intro p hp
  have hMem := mem_map_of_mem (f := (·.1)) hp
  rw [map_fst_setNamed] at hMem
  split at hMem
  · obtain ⟨q, hq, hEqual⟩ := mem_map.1 hMem
    exact hEqual ▸ hPairs q hq
  · rcases mem_append.1 hMem with hMem | hMem
    · obtain ⟨q, hq, hEqual⟩ := mem_map.1 hMem
      exact hEqual ▸ hPairs q hq
    · exact mem_singleton.1 hMem ▸ hName

theorem nodup_setNamed {pairs : List (String × α)} (h : (pairs.map (·.1)).Nodup) (name : String)
    (a : α) : ((setNamed pairs name a).map (·.1)).Nodup := by
  rw [map_fst_setNamed]
  split
  · exact h
  · rename_i hName
    refine nodup_append.2 ⟨h, pairwise_singleton _ name, fun m hm n hn hEqual => ?_⟩
    exact hName (mem_singleton.1 hn ▸ hEqual ▸ hm)

section Renamed

variable {f : String → String} (hf : f.Injective)
include hf

theorem beq_renamed (m n : String) : (f m == f n) = (m == n) := by
  rw [Bool.eq_iff_iff, beq_iff_eq, beq_iff_eq]
  exact hf.eq_iff

theorem setNamed_renamed (pairs : List (String × α)) (name : String) (a : α) :
    setNamed (pairs.map (Prod.map f id)) (f name) a =
      (setNamed pairs name a).map (Prod.map f id) := by
  induction pairs with
  | nil => rfl
  | cons p rest ih =>
    simp only [map_cons, setNamed, Prod.map, beq_renamed hf]
    split
    · rfl
    · rw [ih]
      rfl

end Renamed

namespace Table

variable {t : Table} {v : Value}

def renamed (f : String → String) (t : Table) : Table :=
  { t with columns := t.columns.map (Prod.map f id) }

section Renamed

variable {f : String → String} (hf : f.Injective) (t : Table) (name : String)
include hf

theorem named_renamed : (t.renamed f).named (f name) = t.named name := by
  have hFilter : (fun c => c.1 == f name) ∘ Prod.map f id = fun c : String × Data => c.1 == name :=
    funext fun c => beq_renamed hf c.1 name
  rw [named, renamed, filter_map, hFilter, map_map]
  rfl

theorem has_renamed : (t.renamed f).has (f name) = t.has name := by
  rw [Bool.eq_iff_iff, has_eq_true_iff, has_eq_true_iff, named_renamed hf]

theorem setColumn_renamed (d : Data) :
    (t.renamed f).setColumn (f name) d = (t.setColumn name d).renamed f := by
  unfold setColumn
  rw [has_renamed hf]
  split
  · have hColumns : (t.columns.map (Prod.map f id)).map
        (fun c => if c.1 == f name then (f name, d) else c) =
        (t.columns.map fun c => if c.1 == name then (name, d) else c).map (Prod.map f id) := by
      rw [map_map, map_map]
      refine map_congr_left fun c _ => ?_
      simp only [Function.comp_apply, Prod.map, beq_renamed hf]
      split <;> rfl
    exact congrArg (mk t.labels) hColumns
  · exact congrArg (mk t.labels) (@map_append _ _ _ _ [(name, d)]).symm

theorem startWith_renamed (v : Value) :
    (t.renamed f).startWith (f name) v = (t.startWith name v).renamed f := by
  have hEmptied : mk (freshLabels 1)
      ((t.renamed f).columns.map fun c => (c.1, c.2.reindex [none])) =
      renamed f ⟨freshLabels 1, t.columns.map fun c => (c.1, c.2.reindex [none])⟩ := by
    simp only [renamed, map_map]
    rfl
  exact (congrArg (setColumn · (f name) _) hEmptied).trans (setColumn_renamed hf _ name _)

theorem addScalar_renamed (v : Value) :
    (t.renamed f).addScalar (f name) v = renamed f <$> t.addScalar name v := by
  have hEmpty : (t.renamed f).isEmpty = t.isEmpty := by
    simp [isEmpty, renamed]
  have hSet (d : Data) : (.ok ((t.renamed f).setColumn (f name) d) : Except Fault Table) =
      renamed f <$> .ok (t.setColumn name d) :=
    congrArg Except.ok (setColumn_renamed hf t name d)
  unfold addScalar
  rw [hEmpty]
  split
  · exact congrArg Except.ok (startWith_renamed hf t name v)
  · unfold fillWith
    split
    · split
      · exact hSet _
      · rfl
    · have hHeight : (t.renamed f).height = t.height := rfl
      rw [hHeight]
      split
      · exact hSet _
      · rfl
    · exact hSet _

theorem selectNames?_renamed (names : List String) :
    (t.renamed f).selectNames? (names.map f) = (t.selectNames? names).map (renamed f) := by
  have hHas : (names.map f).all (t.renamed f).has = names.all t.has := by
    rw [all_map]
    exact congrArg names.all (funext (has_renamed hf t))
  have hColumns : (names.map f).flatMap (fun n => ((t.renamed f).named n).map fun d => (n, d)) =
      (names.flatMap fun n => (t.named n).map fun d => (n, d)).map (Prod.map f id) := by
    rw [flatMap_map, map_flatMap]
    refine flatMap_congr fun n _ => ?_
    rw [named_renamed hf, map_map]
    rfl
  unfold selectNames?
  rw [hHas]
  split
  · exact congrArg (fun columns => some (mk t.labels columns)) hColumns
  · rfl

end Renamed

/-- The names of a table to which values of some names were added. -/
theorem names_setColumn (ht : ∀ c ∈ t.columns, c.1 ∈ S)
    (hName : name ∈ S) (d : Data) : ∀ c ∈ (t.setColumn name d).columns, c.1 ∈ S := by
  intro c hc
  unfold setColumn at hc
  split at hc
  · obtain ⟨e, he, rfl⟩ := mem_map.1 hc
    split
    · exact hName
    · exact ht e he
  · rcases mem_append.1 hc with hc | hc
    · exact ht c hc
    · cases mem_singleton.1 hc
      exact hName

theorem columnsOf_append_column (values : List (String × Value)) (name : String) (c : Column)
    (origin : Option Origin) :
    columnsOf (values ++ [(name, .column c origin)]) =
      setNamed (columnsOf values) name c.data.anew := by
  rw [columnsOf, foldl_append]
  rfl

theorem columnsOf_append_other (values : List (String × Value)) (name : String)
    (hv : ∀ c origin, v ≠ .column c origin) :
    columnsOf (values ++ [(name, v)]) = columnsOf values := by
  rw [columnsOf, foldl_append]
  cases v with
  | column c origin => exact absurd rfl (hv c origin)
  | _ => rfl

theorem addScalars_cons_other (t : Table) (name : String)
    (hv : ∀ c origin, v ≠ .column c origin) (rest : List (String × Value)) :
    t.addScalars ((name, v) :: rest) = t.addScalar name v >>= fun u => u.addScalars rest := by
  cases v with
  | column c origin => exact absurd rfl (hv c origin)
  | _ => exact foldlM_cons

section Values

variable {f : String → String} (hf : f.Injective) (values : List (String × Value))
include hf

theorem columnsOf_renamed :
    columnsOf (values.map (Prod.map f id)) = (columnsOf values).map (Prod.map f id) := by
  induction values using reverseRecOn with
  | nil => rfl
  | append_singleton rest p ih =>
    obtain ⟨name, v⟩ := p
    rw [map_append]
    by_cases hv : ∃ c origin, v = .column c origin
    · obtain ⟨c, origin, rfl⟩ := hv
      rw [columnsOf_append_column, ← setNamed_renamed hf, ← ih]
      exact columnsOf_append_column _ _ _ _
    · replace hv : ∀ c origin, v ≠ .column c origin := fun c origin h => hv ⟨c, origin, h⟩
      rw [columnsOf_append_other _ _ hv, ← ih]
      exact columnsOf_append_other _ _ hv

theorem addScalars_renamed (t : Table) :
    (t.renamed f).addScalars (values.map (Prod.map f id)) = renamed f <$> t.addScalars values := by
  induction values generalizing t with
  | nil => rfl
  | cons p rest ih =>
    obtain ⟨name, v⟩ := p
    by_cases hv : ∃ c origin, v = .column c origin
    · obtain ⟨c, origin, rfl⟩ := hv
      exact ih t
    · replace hv : ∀ c origin, v ≠ .column c origin := fun c origin h => hv ⟨c, origin, h⟩
      refine (addScalars_cons_other _ _ hv _).trans ?_
      rw [addScalars_cons_other t name hv, addScalar_renamed hf, map_bind, bind_map_left]
      exact congrArg _ (funext ih)

/-- Other names that are different where the names were give the same table under these names. -/
theorem ofValues_renamed :
    ofValues (values.map (Prod.map f id)) = renamed f <$> ofValues values := by
  have hHeight : heightOf ((columnsOf values).map (Prod.map f id)) =
      heightOf (columnsOf values) := by
    cases columnsOf values <;> rfl
  have hLengths : ((columnsOf values).map (Prod.map f id)).all
      (fun c => c.2.length == heightOf (columnsOf values)) =
      (columnsOf values).all fun c => c.2.length == heightOf (columnsOf values) := by
    rw [all_map]
    rfl
  have hFilled :=
    addScalars_renamed hf values ⟨freshLabels (heightOf (columnsOf values)), columnsOf values⟩
  have hSelected (filled : Table) :
      (filled.renamed f).selectNames? ((values.map (Prod.map f id)).map (·.1)) =
        (filled.selectNames? (values.map (·.1))).map (renamed f) := by
    rw [← selectNames?_renamed hf, map_map, map_map]
    rfl
  unfold ofValues
  dsimp only
  rw [columnsOf_renamed hf, hHeight, hLengths]
  split
  · rfl
  · refine (congrArg (· >>= _) hFilled).trans ?_
    rw [bind_map_left, map_bind]
    refine congrArg _ (funext fun filled => ?_)
    rw [hSelected]
    cases filled.selectNames? (values.map (·.1)) <;> rfl

end Values

structure SameEntries (t u : Table) : Prop where
  labels : t.labels = u.labels
  data : t.columns.map (·.2) = u.columns.map (·.2)

namespace SameEntries

variable {u : Table} (h : t.SameEntries u)
include h

theorem rows : t.rows = u.rows := by
  have hLists : t.columns.map (fun c => c.2.cells) = u.columns.map fun c => c.2.cells := by
    simpa [Function.comp_def] using congrArg (map Data.cells) h.data
  unfold Table.rows Table.height
  rw [hLists, h.labels]

theorem pickRows (ps : List Nat) : (t.pickRows ps).SameEntries (u.pickRows ps) :=
  ⟨by simp [Table.pickRows, h.labels],
    by simpa [Table.pickRows, Function.comp_def] using congrArg (map (·.pick ps)) h.data⟩

/-- Which rows are distinct does not depend on the names. -/
theorem distinct : Table.rows <$> t.distinct = Table.rows <$> u.distinct := by
  have hEmpty : t.isEmpty = u.isEmpty := by
    have hColumns : t.columns.isEmpty = u.columns.isEmpty := by
      simpa using congrArg List.isEmpty h.data
    rw [isEmpty, isEmpty, h.labels, hColumns]
  unfold Table.distinct
  rw [hEmpty, h.rows]
  split
  · exact congrArg Except.ok h.rows
  · split
    · exact congrArg Except.ok (h.pickRows _).rows
    · rfl

end SameEntries

/-- The same values under names that are equal at the same places make tables of the same entries.
-/
theorem ofValues_equalAlike {values others : List (String × Value)}
    (hNames : EqualAlike (values.map (·.1)) (others.map (·.1)))
    (hSame : values.map (·.2) = others.map (·.2)) :
    ∃ f, ofValues others = renamed f <$> ofValues values := by
  obtain ⟨f, g, hf, hg⟩ := hNames
  have hOthers : others = values.map (Prod.map f id) := by
    rw [← zip_unzip others, unzip_eq_map, ← hf, ← hSame, map_map]
    exact zip_map'
  have hBack (name : String) (hName : name ∈ values.map (·.1)) : g (f name) = name := by
    rw [← hf, map_map] at hg
    exact map_inj_left.1 (hg.trans (map_id _).symm) name hName
  have hInj : Set.InjOn f { n | n ∈ values.map (·.1) } := fun m hm n hn h => by
    rw [← hBack m hm, ← hBack n hn, h]
  obtain ⟨σ, hσ, hNames⟩ := exists_injective hInj
  refine ⟨σ, ?_⟩
  rw [hOthers, ← ofValues_renamed hσ]
  exact congrArg ofValues
    (map_congr_left fun p hp => Prod.ext (hNames p.1 (mem_map_of_mem hp)).symm rfl)

/-- The columns of a name in a table whose names are different. -/
theorem named_of_nodup (ht : t.names.Nodup) {p : String × Data} (hp : p ∈ t.columns) :
    t.named p.1 = [p.2] := by
  suffices hFilter : t.columns.filter (fun c => c.1 == p.1) = [p] by
    rw [named, hFilter]
    rfl
  unfold names at ht
  revert ht hp
  induction t.columns with
  | nil => intro _ hp; cases hp
  | cons c rest ih =>
    intro ht hp
    obtain ⟨hFresh, hRest⟩ := nodup_cons.1 ht
    rcases mem_cons.1 hp with rfl | hp
    · rw [filter_cons_of_pos (by simp)]
      refine congrArg _ (filter_eq_nil_iff.2 fun q hq hEqual => ?_)
      exact hFresh (mem_map.2 ⟨q, hq, beq_iff_eq.1 hEqual⟩)
    · rw [filter_cons_of_neg, ih hRest hp]
      intro hEqual
      exact hFresh (mem_map.2 ⟨p, hp, (beq_iff_eq.1 hEqual).symm⟩)

theorem heightOf_of_mem {columns : List (String × Data)} {height : Nat}
    (hLength : ∀ c ∈ columns, c.2.length = height) (hHeight : columns = [] → height = 0) :
    heightOf columns = height := by
  cases columns with
  | nil => exact (hHeight rfl).symm
  | cons c rest => exact hLength c mem_cons_self

end Table

end TableQuery
