import TableQuery.Proofs.Correspondence

/-! Queries and lawful correspondences: a query all of whose uses are permitted has one outcome in
both workspaces. The proof follows the evaluator, one case for each clause and each shape of an
expression. -/
namespace TableQuery

open List Work Table

open Sql

namespace Correspondence

open Query

variable {C : Correspondence}
variable {q : Select}

namespace Lawful

variable (hC : C.Lawful)
variable {r r' : Relation} {s : C.Stage}
variable {i j : Nat} {v w : Workspace} {fromTable whole : Bool}
include hC

/-- A column of the source that a star stands for is read alike. -/
theorem ends_columnOf_starred (hState : C.State s v w) (h : C.Source s (.frame i) (.frame j))
    {name : String} (hName : C.Shown v i name) :
    C.Ends s (fun _ => C.Alike) (run (columnOf (splitName name) (.frame i)) v)
      (run (columnOf (splitName name) (.frame j)) w) := by
  rcases hName with hPermits | ⟨hRegular, hHas⟩
  · exact hC.agree_columnOf h hPermits v w hState
  · match hParts : splitName name with
    | [] => exact hC.agree_throw s _ _ v w hState
    | [part] =>
      rw [run_columnOf_bare, run_columnOf_bare, ← hC.tableAt_eq hState h]
      split
      · exact hC.columnsNamed h part v w hState
      · exact hC.ends_of_outcome hState (.error _)
    | [table, column] =>
      rw [run_columnOf_qualified, run_columnOf_qualified, hRegular table column hParts,
        ← hC.tableAt_eq hState h, if_pos hHas, if_pos hHas]
      exact hC.columnsNamed h name v w hState
    | _ :: _ :: _ :: _ => exact hC.agree_throw s _ _ v w hState

/-- A star reads alike as long as its columns are there. -/
theorem ends_starTargets (h : C.Source s (.frame i) (.frame j)) {names : List String}
    (hState : C.State s v w) (hNames : ∀ name ∈ names, C.Shown v i name) :
    C.Ends s (fun _ => Forall₂ fun p p' => p.1 = p'.1 ∧ C.Alike p.2 p'.2)
      (run (starTargets (.frame i) names) v) (run (starTargets (.frame j) names) w) := by
  induction names generalizing s v w with
  | nil => exact hC.ends_of_outcome hState (.ok .nil)
  | cons name rest ih =>
    unfold starTargets
    split
    · exact hC.agree_throw s _ _ v w hState
    · refine hC.ends_bind (hC.ends_columnOf_starred hState h (hNames name mem_cons_self))
        fun s' u u' v' w' hLater hState' hAlike hRun _ => ?_
      -- reading changes no table, so the other columns are still there
      have hTables := maintains_sameTables_columnOf v (splitName name) (.frame i) v ⟨rfl, rfl⟩
      rw [hRun] at hTables
      refine hC.ends_bind (ih (hC.source_mono hLater h) hState' fun other hOther => ?_)
        fun s'' values values' v'' w'' _ hState'' hValues _ _ =>
          hC.ends_of_outcome hState'' (.ok (.cons ⟨rfl, hAlike⟩ hValues))
      rw [Shown, hTables.tableAt]
      exact hNames other (mem_cons_of_mem name hOther)

theorem agree_toGroupSource (h : C.Source s r r') :
    C.Agree s (fun _ => Eq) r.toGroupSource r'.toGroupSource := by
  rcases hC.source_cases h with ⟨i, j, rfl, rfl⟩ | ⟨rfl, rfl⟩ | ⟨u, rfl, rfl⟩
  · exact hC.agree_bind (hC.agree_frame h) fun _ f g _ hTable =>
      hC.agree_pure (congrArg GroupSource.table hTable)
  · exact hC.agree_pure rfl
  · cases u <;> exact hC.agree_pure rfl

theorem agree_groupSource (h : C.Source s r r') (keys : List String) :
    C.Agree s (fun _ => Eq) (groupSource r keys) (groupSource r' keys) := by
  rcases hC.source_cases h with ⟨i, j, rfl, rfl⟩ | ⟨rfl, rfl⟩ | ⟨u, rfl, rfl⟩
  · refine hC.agree_bind (hC.agree_frame h) fun s' f g _ hTable => ?_
    rw [hTable]
    exact hC.agree_bind (hC.agree_lift_self s' _) fun _ a b _ hab => hC.agree_pure (congrArg _ hab)
  · exact hC.agree_throw s _ _
  · exact hC.agree_throw s _ _

theorem agree_joinSide (h : C.Source s r r') :
    C.Agree s (fun _ => Eq) (joinSide r) (joinSide r') := by
  rcases hC.source_cases h with ⟨i, j, rfl, rfl⟩ | ⟨rfl, rfl⟩ | ⟨u, rfl, rfl⟩
  · exact hC.agree_bind (hC.agree_frame h) fun _ f g _ hTable => hC.agree_pure hTable
  · exact hC.agree_throw s _ _
  · refine hC.agree_still s ?_
    cases u with
    | column c origin =>
      unfold joinSide
      dsimp only
      split
      · exact still_pure _
      · exact still_throw _
    | table t => exact still_pure _
    | scalar c => exact still_throw _

theorem agree_leafValue (s : C.Stage) (n : Node) :
    C.Agree s (fun _ u u' => u = u' ∧ u.origin? = none) (leafValue n) (leafValue n) := by
  unfold leafValue
  split
  · rename_i c t
    exact hC.agree_pure ⟨rfl, by cases c <;> rfl⟩
  · exact hC.agree_pure ⟨rfl, rfl⟩
  · exact hC.agree_throw s _ _

theorem agree_starColumns (h : C.Source s r r') (targets : List Node) :
    C.Agree s (fun _ => Eq) (starColumns r targets) (starColumns r' targets) := by
  unfold starColumns
  split
  · exact hC.agree_bind (hC.agree_columns h) fun _ a b _ hab => hC.agree_pure (congrArg some hab)
  · exact hC.agree_pure rfl

theorem agree_groupedTable (h : C.Source s r r') (targets keys : List Node)
    (groups : Option GroupSource) :
    C.Agree s (fun _ => Eq) (groupedTable r targets keys groups)
      (groupedTable r' targets keys groups) := by
  have hTable (s : C.Stage) (g : GroupSource) : C.Agree s (fun _ => Eq)
      (do lift (groupTargets (← catalog).extensions targets g keys))
      (do lift (groupTargets (← catalog).extensions targets g keys)) := by
    intro v w hState
    rw [run_bind_ok (run_catalog v), run_bind_ok (run_catalog w),
      hC.extensions_eq hState]
    exact hC.agree_lift_self s _ v w hState
  cases groups with
  | some g => exact hTable s g
  | none =>
    refine hC.agree_bind (hC.agree_toGroupSource h) fun s' g g' _ hg => ?_
    rw [← hg]
    exact hTable s' g

theorem agree_withAlias (h : C.Source s r r') (tag : Tag) :
    C.Agree s (fun _ x x' => x = r ∧ x' = r') (withAlias tag r) (withAlias tag r') := by
  unfold withAlias
  split
  · exact hC.agree_bind (hC.addToScope h _) fun s' _ _ _ _ => hC.agree_pure ⟨rfl, rfl⟩
  · exact hC.agree_pure ⟨rfl, rfl⟩

theorem rows_mono {s' : C.Stage} (hLater : C.Later s s')
    (h : C.Rows fromTable whole s r r') : C.Rows fromTable whole s' r r' :=
  ⟨hC.source_mono hLater h.source, fun hOwn => hC.own_mono hLater (h.own hOwn),
    fun hTable => hC.plain_mono hLater (h.plain hTable)⟩

theorem rows_of_own (h : C.Own s r r') (whole : Bool) : C.Rows false whole s r r' :=
  ⟨hC.source_of_own h, fun _ => h, nofun⟩

theorem agree_newRows (s : C.Stage) (t : Table) :
    C.Agree s (fun s' r r' => C.Own s' r r' ∧ (C.AllStarrable t.names → C.Plain s' r r'))
      (do return .frame (← Work.newFrame t)) (do return .frame (← Work.newFrame t)) :=
  hC.agree_bind (hC.newFrame s t) fun _ _ _ _ h => hC.agree_pure h

/-- A condition leaves the same rows on both sides. They are new tables. -/
theorem agree_filter (h : C.Source s r r') {u u' : Value} (hAlike : C.Alike u u') :
    C.Agree s (fun s' x x' => C.Own s' x x' ∧ (C.Plain s r r' → C.Plain s' x x')) (filter r u)
      (filter r' u') := by
  rcases Value.nameless_eq_cases (hC.nameless_eq hAlike) with
    ⟨c, rfl, rfl⟩ | ⟨t, rfl, rfl⟩ | ⟨labels, name, name', data, origin, origin', rfl, rfl⟩
  · exact hC.agree_throw s _ _
  · exact hC.agree_throw s _ _
  · rcases hC.source_cases h with ⟨i, j, rfl, rfl⟩ | ⟨rfl, rfl⟩ | ⟨x, rfl, rfl⟩
    · intro v w hState
      rw [run_filter, run_filter, ← hC.tableAt_eq hState h]
      cases hChosen : (v.tableAt i).choose data with
      | error e => exact hC.ends_of_outcome hState (.error e)
      | ok t =>
        obtain ⟨s', hLater, hState', hOutcome⟩ := hC.agree_newRows s t v w hState
        refine ⟨s', hLater, hState', hOutcome.mono fun x x' hNew => ⟨hNew.1, fun hPlain => ?_⟩⟩
        exact hNew.2 fun hStar name hName =>
          hC.starrable hState hPlain hStar name (mem_names_of_choose hChosen hName)
    · exact hC.agree_throw s _ _
    · cases x with
      | scalar y => exact hC.agree_throw s _ _
      | table y => exact hC.agree_throw s _ _
      | column y o =>
        refine hC.agree_then (hC.agree_lift_self s _) fun s' choice _ => ?_
        cases choice with
        | names names => exact hC.agree_throw s' _ _
        | rows mask =>
          dsimp only
          split
          · exact hC.agree_pure ⟨hC.own_value s' _, fun _ => hC.plain_value s' _⟩
          · exact hC.agree_throw s' _ _

/-- Rows that get an alias. -/
theorem agree_aliased {x y : Work Relation} (h : C.Agree s (C.Rows fromTable true) x y)
    (tag : Tag) :
    C.Agree s (C.Rows fromTable true) (x >>= withAlias tag) (y >>= withAlias tag) := by
  refine hC.agree_bind h fun s' r r' _ hRows => (hC.agree_withAlias hRows.source tag).mono ?_
  rintro s'' _ _ hLater ⟨rfl, rfl⟩
  exact hC.rows_mono hLater hRows

theorem ofValues_eq {values values' : List (String × Value)}
    (h : Forall₂ (fun p p' => p.1 = p'.1 ∧ C.Alike p.2 p'.2) values values') :
    ofValues values = ofValues values' := by
  have hNameless : namelessValues false values = namelessValues false values' := by
    induction h with
    | nil => rfl
    | cons hFirst _ ih => exact congrArg₂ cons (Prod.ext hFirst.1 (hC.nameless_eq hFirst.2)) ih
  rw [← ofValues_nameless false values, ← ofValues_nameless false values', hNameless]

/-- The targets of a select that is not grouped. A star stands for columns that are there. -/
theorem agree_rowTargets (h : C.Rows fromTable whole s r r') {targets : List Node}
    (hStar : targets.any isStar = true → C.Permits (.star fromTable))
    (hTargets : ∀ s v w columns, C.Source s r r' → C.State s v w →
      (∀ names ∈ columns, ∃ i j, r = .frame i ∧ r' = .frame j ∧ ∀ name ∈ names, C.Shown v i name) →
      C.Ends s (fun _ => Forall₂ fun p p' => p.1 = p'.1 ∧ C.Alike p.2 p'.2)
        (run (evalTargets r columns targets) v) (run (evalTargets r' columns targets) w)) :
    C.Agree s (fun _ => Eq) (targetTable targets [] none r) (targetTable targets [] none r') := by
  intro v w hState
  refine hC.ends_bind (hC.agree_starColumns h.source targets v w hState)
    fun s' columns columns' v' w' hLater hState' hColumns hRun _ => ?_
  subst hColumns
  obtain ⟨rfl, hNames⟩ := starColumns_eq_ok hRun
  refine hC.ends_bind (hTargets s' _ w' columns (hC.source_mono hLater h.source) hState' ?_)
    fun s'' values values' v'' w'' _ hState'' hValues _ _ => ?_
  · intro names hMem
    obtain ⟨hAny, i, rfl, rfl⟩ := hNames names hMem
    rcases hC.source_cases h.source with ⟨_, j, hi, rfl⟩ | ⟨hi, _⟩ | ⟨u, hi, _⟩
    · refine ⟨i, j, rfl, rfl, fun name hName => ?_⟩
      have hStarrable : C.Starrable name := by
        cases fromTable with
        | false => exact hC.starrable_of_permits (hStar hAny) name
        | true => exact hC.starrable hState (h.plain rfl) (hStar hAny) name hName
      exact hStarrable.symm.imp_right fun hRegular =>
        ⟨hRegular, has_eq_true_iff.2 (mem_names_iff.1 hName)⟩
    · cases hi
    · cases hi
  · rw [hC.ofValues_eq hValues]
    exact hC.agree_lift_self s'' _ v'' w'' hState''

/-- What a select does with its rows, if its clauses agree. -/
theorem agree_afterFrom_of
    (hWhere : ∀ s r r', C.Rows fromTable true s r r' →
      C.Agree s (C.Rows fromTable q.condition.isNone) (evalWhere r q.condition)
        (evalWhere r' q.condition))
    (hGroups : ∀ s r r', C.Rows fromTable q.condition.isNone s r r' →
      C.Agree s (fun _ => Eq) (evalGroups r q.groupBy) (evalGroups r' q.groupBy))
    (hTargets : Select.isUngrouped q.targets q.groupBy = true →
    ∀ s r r', C.Rows fromTable q.condition.isNone s r r' →
      C.Agree s (fun _ => Eq) (targetTable q.targets [] none r) (targetTable q.targets [] none r'))
    (hHaving : ∀ s isGrouped t,
      C.Agree s (fun _ => Eq) (evalHaving isGrouped t q.having) (evalHaving isGrouped t q.having))
    (hOffset : ∀ s, C.Agree s (fun _ => Eq) (evalBound q.offset) (evalBound q.offset))
    (hLimit : ∀ s, C.Agree s (fun _ => Eq) (evalBound q.limit) (evalBound q.limit))
    (h : C.Rows fromTable true s r r') :
    C.Agree s (fun _ => Eq) (afterFrom q r) (afterFrom q r') := by
  refine hC.agree_bind (hWhere s r r' h) fun s₁ r₁ r₁' _ hRows => ?_
  have hLift : C.Agree s₁
      (fun _ keys keys' => keys = keys' ∧ groupKeys q.targets q.groupBy = .ok keys)
      (lift (groupKeys q.targets q.groupBy)) (lift (groupKeys q.targets q.groupBy)) :=
    hC.agree_lift (.of_eq fun keys hKeys => ⟨rfl, hKeys⟩)
  refine hC.agree_bind hLift fun s₂ keys keys' hLater₂ hKeys => ?_
  obtain ⟨rfl, hKeys⟩ := hKeys
  refine hC.agree_then (hGroups s₂ r₁ r₁' (hC.rows_mono hLater₂ hRows)) fun s₃ groups hLater₃ => ?_
  have hRows₃ := hC.rows_mono (hC.later_trans hLater₂ hLater₃) hRows
  have hTable : C.Agree s₃ (fun _ => Eq) (targetTable q.targets keys groups r₁)
      (targetTable q.targets keys groups r₁') := by
    cases keys with
    | nil =>
      refine hTargets ?_ s₃ r₁ r₁' hRows₃
      unfold Select.isUngrouped
      rw [hKeys]
    | cons key rest => exact hC.agree_groupedTable hRows₃.source q.targets _ groups
  refine hC.agree_then hTable fun s₄ table _ => ?_
  refine hC.agree_then (hHaving s₄ _ table) fun s₅ table _ => ?_
  refine hC.agree_then (hC.agree_lift_self s₅ _) fun s₆ table _ => ?_
  refine hC.agree_then (hOffset s₆) fun s₇ first _ => ?_
  refine hC.agree_then (hC.agree_lift_self s₇ _) fun s₈ table _ => ?_
  refine hC.agree_then (hLimit s₈) fun s₉ last _ => ?_
  exact hC.agree_bind (hC.clearScope s₉) fun _ _ _ _ _ => hC.agree_pure rfl

theorem keyable_mono {s' : C.Stage} (hLater : C.Later s s') {key : Node}
    (h : C.Keyable s r r' key) : C.Keyable s' r r' key :=
  h.imp (hC.own_mono hLater) fun h => ⟨hC.source_mono hLater h.1, hC.plain_mono hLater h.2.1, h.2.2⟩

theorem agree_evalCondition {n : Node}
    (h : C.Agree s (fun _ => C.Alike) (evalExpr r n) (evalExpr r' n)) :
    C.Agree s (fun _ => C.Alike) (evalCondition r n) (evalCondition r' n) := by
  cases n with
  | operation form op args t => exact h
  | _ => exact hC.agree_throw s _ _

end Lawful

section Uses

variable {us us' : List Use}

theorem allows_append : C.Allows (us ++ us') ↔ C.Allows us ∧ C.Allows us' := forall_mem_append

theorem allows_cons {u : Use} : C.Allows (u :: us) ↔ C.Permits u ∧ C.Allows us := forall_mem_cons

end Uses

mutual

theorem agree_eval (hC : C.Lawful) (s : C.Stage) (reduce : Bool) {n : Node}
    (hUses : C.Allows n.uses) :
    C.Agree s (fun _ u u' => u = u' ∧ u.origin? = none) (eval reduce n) (eval reduce n) := by
  cases n with
  | select q t =>
    refine hC.agree_then ((agree_select hC hUses).2 s) fun _ t _ => ?_
    refine hC.agree_pure ⟨rfl, ?_⟩
    cases reduce with
    | false => rfl
    | true => exact origin?_reduced t
  | tuple items t =>
    refine hC.agree_bind (agree_evalItems hC s hUses) fun _ values values' _ hValues => ?_
    exact hC.agree_pure ⟨congrArg tupleValue hValues, rfl⟩
  | _ => exact hC.agree_leafValue s _

theorem agree_evalItems (hC : C.Lawful) (s : C.Stage) {ns : List Node}
    (hUses : C.Allows (Node.usesOfAll ns)) :
    C.Agree s (fun _ => Eq) (evalItems ns) (evalItems ns) := by
  cases ns with
  | nil => exact hC.agree_pure rfl
  | cons n rest =>
    rw [Node.usesOfAll, allows_append] at hUses
    refine hC.agree_bind (agree_eval hC s false hUses.1) fun s' u u' _ hu => ?_
    refine hC.agree_bind (agree_evalItems hC s' hUses.2) fun s'' values values' _ hValues => ?_
    exact hC.agree_pure (congrArg₂ cons hu.1 hValues)

theorem agree_evalExpr (hC : C.Lawful) {s : C.Stage} {r r' : Relation}
    (h : C.Source s r r') {n : Node} (hUses : C.Allows n.uses) :
    C.Agree s (fun _ => C.Alike) (evalExpr r n) (evalExpr r' n) := by
  have hSame {x : Work Value} (hx : C.Agree s (fun _ u u' => u = u' ∧ u.origin? = none) x x) :
      C.Agree s (fun _ => C.Alike) x x :=
    hx.mono fun _ u u' _ hu => hu.1 ▸ hC.alike_self hu.2
  cases n with
  | name parts t => exact hC.agree_columnOf h (hUses _ mem_cons_self)
  | operation form op args t =>
    rw [Node.uses, allows_cons] at hUses
    intro v w hState
    refine hC.ends_bind (agree_evalArgs hC h hUses.2 v w hState)
      fun s' values values' v' w' _ hState' hValues hv hw => ?_
    exact hC.call s' hUses.1 hValues ⟨v, v', hv⟩ ⟨w, w', hw⟩ v' w' hState'
  | cast type arg t =>
    refine hC.agree_bind (agree_evalExpr (n := arg) hC h hUses) fun s' u u' _ hu => ?_
    exact hC.agree_lift (hC.cast hu type)
  | select q t =>
    refine hSame (hC.agree_then ((agree_select hC hUses).2 s) fun _ t _ => ?_)
    exact hC.agree_pure ⟨rfl, origin?_reduced t⟩
  | tuple items t =>
    refine hSame (hC.agree_bind (agree_evalItems hC s hUses) fun _ values values' _ hValues => ?_)
    exact hC.agree_pure ⟨congrArg tupleValue hValues, rfl⟩
  | _ => exact hSame (hC.agree_leafValue s _)

theorem agree_evalArgs (hC : C.Lawful) {s : C.Stage} {r r' : Relation}
    (h : C.Source s r r') {ns : List Node} (hUses : C.Allows (Node.usesOfAll ns)) :
    C.Agree s (fun _ => Forall₂ C.Alike) (evalArgs r ns) (evalArgs r' ns) := by
  cases ns with
  | nil => exact hC.agree_pure .nil
  | cons n rest =>
    rw [Node.usesOfAll, allows_append] at hUses
    refine hC.agree_bind (agree_evalExpr hC h hUses.1) fun s' u u' hLater hu => ?_
    refine hC.agree_bind (agree_evalArgs hC (hC.source_mono hLater h) hUses.2)
      fun s'' values values' _ hValues => ?_
    exact hC.agree_pure (.cons hu hValues)

/-- The columns of a star have to be there when the targets are begun, and stay there. -/
theorem ends_evalTargets (hC : C.Lawful) {s : C.Stage} {r r' : Relation} (h : C.Source s r r')
    {columns : Option (List String)} {ns : List Node} (hUses : C.Allows (Node.usesOfAll ns))
    {v w : Workspace} (hState : C.State s v w)
    (hColumns : ∀ names ∈ columns, ∃ i j, r = .frame i ∧ r' = .frame j ∧
        ∀ name ∈ names, C.Shown v i name) :
    C.Ends s (fun _ => Forall₂ fun p p' => p.1 = p'.1 ∧ C.Alike p.2 p'.2)
      (run (evalTargets r columns ns) v) (run (evalTargets r' columns ns) w) := by
  cases ns with
  | nil => exact hC.ends_of_outcome hState (.ok .nil)
  | cons n rest =>
    rw [Node.usesOfAll, allows_append] at hUses
    unfold evalTargets
    split
    · rename_i names _
      obtain ⟨i, j, rfl, rfl, hNames⟩ := hColumns names rfl
      refine hC.ends_bind (hC.ends_starTargets h hState hNames)
        fun s' starred starred' v' w' hLater hState' hStarred _ _ => ?_
      refine hC.ends_bind (ends_evalTargets hC (hC.source_mono hLater h) hUses.2 hState' nofun)
        fun s'' values values' v'' w'' _ hState'' hValues _ _ => ?_
      exact hC.ends_of_outcome hState'' (.ok (rel_append hStarred hValues))
    · refine hC.ends_bind (agree_evalExpr hC h hUses.1 v w hState)
        fun s' u u' v' w' hLater hState' hu hRun _ => ?_
      refine hC.ends_bind (ends_evalTargets hC (hC.source_mono hLater h) hUses.2 hState' ?_)
        fun s'' values values' v'' w'' _ hState'' hValues _ _ => ?_
      · intro names hNames
        obtain ⟨i, j, hi, hj, hAll⟩ := hColumns names hNames
        refine ⟨i, j, hi, hj, fun name hName => ?_⟩
        rcases hC.steady with hPermits | hStay
        · exact .inl (hPermits _)
        · refine (hAll name hName).imp_right fun hHas => ⟨hHas.1, ?_⟩
          have hLasts := hStay i name r n v hHas.2
          rw [hRun] at hLasts
          exact hLasts
      · exact hC.ends_of_outcome hState'' (.ok (.cons ⟨rfl, hu⟩ hValues))

theorem agree_evalKeys (hC : C.Lawful) {s : C.Stage} {r r' : Relation} (h : C.Source s r r')
    {ns : List Node} (hUses : C.Allows (Node.usesOfAll ns)) (hKeys : ∀ n ∈ ns, C.Keyable s r r' n)
    (hNames : ∀ n ∈ ns, n.isOperation = true → C.Permits (.keyColumn n.keyColumn)) :
    C.Agree s (fun _ => Eq) (evalKeys r ns) (evalKeys r' ns) := by
  cases ns with
  | nil => exact hC.agree_pure rfl
  | cons n rest =>
    rw [Node.usesOfAll, allows_append] at hUses
    have hKey := hKeys n mem_cons_self
    have hRest (s' : C.Stage) (hLater : C.Later s s') :
        C.Agree s' (fun _ => Eq) (evalKeys r rest) (evalKeys r' rest) :=
      agree_evalKeys hC (hC.source_mono hLater h) hUses.2
        (fun m hm => hC.keyable_mono hLater (hKeys m (mem_cons_of_mem n hm)))
        (fun m hm => hNames m (mem_cons_of_mem n hm))
    cases n with
    | name parts t =>
      rw [evalKeys_name, evalKeys_name]
      refine hC.agree_bind (hC.keyName (hUses.1 _ mem_cons_self) hKey)
        fun s' name name' hLater hName => ?_
      refine hC.agree_bind (hRest s' hLater) fun s'' names names' _ hNames => ?_
      exact hC.agree_pure (congrArg₂ cons hName hNames)
    | operation form op args t =>
      have hUsesOf := hUses.1
      rw [Node.uses, allows_cons] at hUsesOf
      intro v w hState
      refine hC.ends_bind (agree_evalArgs hC h hUsesOf.2 v w hState)
        fun s₁ values values' v₁ w₁ hLater₁ hState₁ hValues hv hw => ?_
      refine hC.ends_bind (hC.call s₁ hUsesOf.1 hValues ⟨v, v₁, hv⟩ ⟨w, w₁, hw⟩ v₁ w₁ hState₁)
        fun s₂ u u' v₂ w₂ hLater₂ hState₂ hu _ _ => ?_
      have hLater := hC.later_trans hLater₁ hLater₂
      refine hC.ends_bind (hC.addKey (hNames _ mem_cons_self rfl) rfl (hC.keyable_mono hLater hKey)
        hu v₂ w₂ hState₂) fun s₃ _ _ v₃ w₃ hLater₃ hState₃ _ _ _ => ?_
      refine hC.ends_bind (hRest s₃ (hC.later_trans hLater hLater₃) v₃ w₃ hState₃)
        fun s₄ names names' v₄ w₄ _ hState₄ hNames _ _ => ?_
      exact hC.ends_of_outcome hState₄ (.ok (congrArg _ hNames))
    | _ => exact hC.agree_throw s _ _

theorem agree_evalSide (hC : C.Lawful) (s : C.Stage) {n : Node}
    (hUses : C.Allows n.sourceUses) : C.Agree s C.Source (evalSide n) (evalSide n) := by
  have hValue (s : C.Stage) (u : Value) : C.Source s (.value u) (.value u) :=
    hC.source_of_own (hC.own_value s u)
  cases n with
  | name parts t => exact (hC.tableOf s parts).mono fun _ _ _ _ h => h.1
  | select q t =>
    refine hC.agree_then ((agree_select hC hUses).2 s) fun s' answer _ => ?_
    exact (hC.agree_newRows s' answer).mono fun _ _ _ _ h => hC.source_of_own h.1
  | tuple items t =>
    refine hC.agree_then (agree_evalItems hC s hUses) fun s' values _ => ?_
    exact hC.agree_pure (hValue s' _)
  | _ =>
    refine hC.agree_bind (hC.agree_leafValue s _) fun s' u u' _ hu => ?_
    obtain ⟨rfl, _⟩ := hu
    exact hC.agree_pure (hValue s' u)

theorem agree_evalSource (hC : C.Lawful) (s : C.Stage) {n : Node} (hUses : C.Allows n.sourceUses) :
    C.Agree s (C.Rows (Select.isFromTable (some n)) true) (evalSource n) (evalSource n) := by
  have hNew (s : C.Stage) (t : Table) : C.Agree s (C.Rows false true)
      (do return .frame (← newFrame t)) (do return .frame (← newFrame t)) :=
    (hC.agree_newRows s t).mono fun _ _ _ _ h => hC.rows_of_own h.1 true
  have hValue (s : C.Stage) (u : Value) : C.Rows false true s (.value u) (.value u) :=
    hC.rows_of_own (hC.own_value s u) true
  cases n with
  | join kind left right condition implicit t =>
    rw [Node.sourceUses, allows_append] at hUses
    refine hC.agree_then (hC.agree_lift_self s _) fun s₁ kind _ => ?_
    refine hC.agree_bind (agree_evalSide hC s₁ hUses.1) fun s₂ l l' _ hl => ?_
    refine hC.agree_bind (agree_evalSide hC s₂ hUses.2) fun s₃ r r' hLater₃ hr => ?_
    refine hC.agree_then (hC.agree_lift_self s₃ _) fun s₄ sides hLater₄ => ?_
    refine hC.agree_then (hC.agree_lift_self s₄ _) fun s₅ on hLater₅ => ?_
    have hLater := hC.later_trans hLater₄ hLater₅
    refine hC.agree_then (hC.agree_joinSide (hC.source_mono (hC.later_trans hLater₃ hLater) hl))
      fun s₆ lt hLater₆ => ?_
    refine hC.agree_then (hC.agree_joinSide (hC.source_mono (hC.later_trans hLater hLater₆) hr))
      fun s₇ rt _ => ?_
    refine hC.agree_then (hC.agree_lift_self s₇ _) fun s₈ joined _ => ?_
    exact hC.agree_aliased (hNew s₈ joined) t
  | name parts t =>
    have hRows : C.Agree s (C.Rows true true) (tableOf parts) (tableOf parts) :=
      (hC.tableOf s parts).mono fun _ _ _ _ h => ⟨h.1, nofun, fun _ => h.2⟩
    exact hC.agree_aliased hRows t
  | select q t =>
    refine hC.agree_then ((agree_select hC hUses).2 s) fun s' answer _ => ?_
    exact hC.agree_aliased (hNew s' answer) t
  | tuple items t =>
    refine hC.agree_then (agree_evalItems hC s hUses) fun s' values _ => ?_
    exact hC.agree_aliased (hC.agree_pure (hValue s' _)) t
  | _ =>
    refine hC.agree_bind (hC.agree_leafValue s _) fun s' u u' _ hu => ?_
    obtain ⟨rfl, _⟩ := hu
    exact hC.agree_aliased (hC.agree_pure (hValue s' u)) _

theorem agree_evalFrom (hC : C.Lawful) (s : C.Stage) {source : Option Node}
    (hUses : C.Allows (Node.fromUses source)) :
    C.Agree s (C.Rows (Select.isFromTable source) true) (evalFrom source) (evalFrom source) := by
  cases source with
  | none => exact hC.agree_pure (hC.rows_of_own (hC.own_absent s) true)
  | some n => exact agree_evalSource hC s hUses

theorem agree_evalWhere (hC : C.Lawful) {s : C.Stage} {fromTable : Bool} {r r' : Relation}
    (h : C.Rows fromTable true s r r') {condition : Option Node}
    (hUses : C.Allows (Node.usesOfAny condition)) :
    C.Agree s (C.Rows fromTable condition.isNone) (evalWhere r condition)
      (evalWhere r' condition) := by
  cases condition with
  | none => exact hC.agree_pure h
  | some n =>
    refine hC.agree_bind (hC.agree_evalCondition (agree_evalExpr hC h.source hUses))
      fun s' u u' hLater hu => ?_
    refine (hC.agree_filter (hC.source_mono hLater h.source) hu).mono fun s'' x x' _ hx => ?_
    exact ⟨hC.source_of_own hx.1, fun _ => hx.1,
      fun hTable => hx.2 (hC.plain_mono hLater (h.plain hTable))⟩

theorem agree_evalGroups (hC : C.Lawful) {s : C.Stage} {fromTable whole : Bool}
    {r r' : Relation} (h : C.Rows fromTable whole s r r') {groupBy : Option (List Node)}
    (hUses : C.Allows (Node.usesOfKeys groupBy))
    (hGrouping : C.Allows (Select.groupingUses (fromTable && whole) groupBy)) :
    C.Agree s (fun _ => Eq) (evalGroups r groupBy) (evalGroups r' groupBy) := by
  cases groupBy with
  | none => exact hC.agree_pure rfl
  | some ns =>
    rw [Select.groupingUses, allows_append] at hGrouping
    rw [evalGroups, evalGroups]
    split
    · exact hC.agree_pure rfl
    · refine hC.agree_bind
        (agree_evalKeys hC h.source hUses (fun n hn => ?_) (fun n hn hOperation => ?_))
        fun s' names names' hLater hNames => ?_
      · cases hTable : fromTable && whole with
        | false => exact .inl (h.own hTable)
        | true =>
          rw [hTable] at hGrouping
          exact .inr ⟨h.source, h.plain (Bool.and_eq_true_iff.1 hTable).1,
            hGrouping.2 _ (mem_map_of_mem hn)⟩
      · exact hGrouping.1 _ (mem_map_of_mem (mem_filter.2 ⟨hn, hOperation⟩))
      · subst hNames
        exact hC.agree_bind (hC.agree_groupSource (hC.source_mono hLater h.source) names)
          fun _ g g' _ hg => hC.agree_pure (congrArg some hg)

theorem agree_evalHaving (hC : C.Lawful) (s : C.Stage) (isGrouped : Bool) (table : Table)
    {having : Option Node} (hUses : C.Allows (Node.usesOfAny having)) :
    C.Agree s (fun _ => Eq) (evalHaving isGrouped table having)
      (evalHaving isGrouped table having) := by
  cases having with
  | none => exact hC.agree_pure rfl
  | some n =>
    rw [evalHaving]
    split
    · exact hC.agree_throw s _ _
    · refine hC.agree_bind (hC.newFrame s table) fun s' i j _ hNew => ?_
      refine hC.agree_bind
        (hC.agree_evalCondition (agree_evalExpr hC (hC.source_of_own hNew.1) hUses))
        fun s'' u u' _ hu => ?_
      refine hC.agree_lift ?_
      rcases Value.nameless_eq_cases (hC.nameless_eq hu) with
        ⟨c, rfl, rfl⟩ | ⟨t, rfl, rfl⟩ | ⟨labels, name, name', data, origin, origin', rfl, rfl⟩
      · exact .of_eq fun _ _ => rfl
      · exact .of_eq fun _ _ => rfl
      · exact .of_eq fun _ _ => rfl

theorem agree_evalBound (hC : C.Lawful) (s : C.Stage) {bound : Option Node}
    (hUses : C.Allows (Node.usesOfAny bound)) :
    C.Agree s (fun _ => Eq) (evalBound bound) (evalBound bound) := by
  cases bound with
  | none => exact hC.agree_pure rfl
  | some n =>
    refine hC.agree_bind (agree_eval hC s false hUses) fun s' u u' _ hu => ?_
    obtain ⟨rfl, _⟩ := hu
    exact hC.agree_lift_self s' _

/-- Selects, and what they do with their rows. -/
theorem agree_select (hC : C.Lawful) {q : Select} (hUses : C.Allows q.uses) :
    (∀ s r r', C.Rows (Select.isFromTable q.source) true s r r' →
      C.Agree s (fun _ => Eq) (afterFrom q r) (afterFrom q r')) ∧
    ∀ s, C.Agree s (fun _ => Eq) (evalSelect q) (evalSelect q) := by
  rw [evalSelect_eq_afterFrom]
  obtain ⟨targets, distinct, source, condition, groupBy, having, orderBy, limit, offset, ctes⟩ := q
  simp only [Select.uses, allows_append] at hUses
  obtain ⟨⟨⟨⟨⟨⟨⟨hFrom, hWhere⟩, hKeys⟩, hGrouping⟩, hTargets⟩, hHaving⟩, hOffset⟩, hLimit⟩ := hUses
  refine (and_iff_left_of_imp fun hAfter s => ?_).2 fun s r r' hRows => ?_
  · exact hC.agree_bind (agree_evalFrom hC s hFrom) fun s' r r' _ hRows => hAfter s' r r' hRows
  · refine hC.agree_afterFrom_of (fun _ _ _ h => agree_evalWhere hC h hWhere)
      (fun _ _ _ h => agree_evalGroups hC h hKeys hGrouping) (fun hUngrouped _ _ _ h => ?_)
      (fun s isGrouped t => agree_evalHaving hC s isGrouped t hHaving)
      (fun s => agree_evalBound hC s hOffset) (fun s => agree_evalBound hC s hLimit) hRows
    rw [if_pos hUngrouped, allows_append] at hTargets
    refine hC.agree_rowTargets h (fun hStar => ?_) fun _ _ _ _ h hState hColumns =>
      ends_evalTargets hC h hTargets.2 hState hColumns
    rw [if_pos hStar] at hTargets
    exact hTargets.1 _ mem_cons_self

end

/-- A select all of whose uses are permitted has the same outcome in both workspaces. -/
theorem agree_evalSelect (hC : C.Lawful) (s : C.Stage)
    (hUses : C.Allows q.uses) : C.Agree s (fun _ => Eq) (evalSelect q) (evalSelect q) :=
  (agree_select hC hUses).2 s

/-- A run and itself, while a property of the workspace holds. -/
def upkeep (I : Workspace → Prop) : Correspondence where
  Stage := Unit
  Later _ _ := True
  State _ v w := v = w ∧ I v
  Source _ := Eq
  Own _ := Eq
  Plain _ := Eq
  Alike := Eq
  Permits _ := True

section Upkeep

variable {I : Workspace → Prop} {α : Type} {x : Work α} {P : Unit → α → α → Prop}

theorem agree_of_maintains (hx : Maintains I x) (hP : ∀ a, P () a a) :
    (upkeep I).Agree () P x x := by
  rintro w _ ⟨rfl, hw⟩
  exact ⟨(), trivial, ⟨rfl, hx w hw⟩, .of_eq fun a _ => hP a⟩

theorem maintains_of_agree (h : (upkeep I).Agree () P x x) : Maintains I x := by
  intro w hw
  obtain ⟨_, _, hState, _⟩ := h w w ⟨rfl, hw⟩
  exact hState.2

variable (hI : Workspace.OutlastsQueries I)
include hI

theorem readsAlike_upkeep : (upkeep I).ReadsAlike where
  later_refl _ := trivial
  later_trans _ _ := trivial
  source_mono _ h := h
  source_cases {s r r'} h := by
    cases h
    cases r with
    | frame id => exact .inl ⟨id, id, rfl, rfl⟩
    | absent => exact .inr (.inl ⟨rfl, rfl⟩)
    | value v => exact .inr (.inr ⟨v, rfl, rfl⟩)
  tableAt_eq hState h := by
    cases hState.1
    cases h
    rfl
  columnsNamed h name := by
    cases h
    exact agree_of_maintains (maintains_columnsNamed _ name) fun _ => rfl
  scopedColumn _ _ _ _ := agree_of_maintains (maintains_scopedColumn hI _ _ _) fun _ => rfl

theorem lawful_upkeep : (upkeep I).Lawful where
  toReadsAlike := readsAlike_upkeep hI
  own_mono _ h := h
  plain_mono _ h := h
  source_of_own h := h
  own_absent _ := rfl
  own_value _ _ := rfl
  plain_value _ _ := rfl
  starrable _ _ _ _ _ := .inr trivial
  starrable_of_permits _ _ := .inr trivial
  steady := .inl fun _ => trivial
  extensions_eq h := congrArg (·.catalog.extensions) h.1
  alike_self _ := rfl
  nameless_eq h := congrArg _ h
  cast h type := by
    cases h
    exact .of_eq fun _ _ => rfl
  call s op args r r' values values' _ hValues _ _ := by
    cases forall₂_eq_eq_eq ▸ hValues
    exact agree_of_maintains (maintains_call op values) fun _ => rfl
  tableOf _ parts := agree_of_maintains (maintains_tableOf hI parts) fun _ => ⟨rfl, rfl⟩
  newFrame _ t := agree_of_maintains (fun _ h => hI.newFrame t h) fun _ => ⟨rfl, fun _ => rfl⟩
  addToScope h name := by
    cases h
    exact agree_of_maintains (maintains_addToScope hI name _) fun _ => trivial
  clearScope _ := agree_of_maintains (maintains_setScope hI _) fun _ => trivial
  keyName {s r r' parts tag} _ h := by
    have hC := readsAlike_upkeep hI
    refine hC.agree_bind (hC.agree_columnOf (h.elim id (·.1)) trivial) fun s' u u' _ hu => ?_
    cases hu
    cases u with
    | column c origin => exact hC.agree_pure rfl
    | _ => exact hC.agree_throw s' _ _
  addKey _ _ h hu := by
    cases h.elim id (·.1)
    cases hu
    exact agree_of_maintains (maintains_addKey hI _ _ _) fun _ => trivial

end Upkeep

end Correspondence

namespace Query

open Correspondence

variable {I : Workspace → Prop} (hI : Workspace.OutlastsQueries I)
include hI

/-- Evaluation keeps every property that outlasts queries. -/
theorem maintains_eval (reduce : Bool) (n : Node) : Maintains I (eval reduce n) :=
  maintains_of_agree (agree_eval (lawful_upkeep hI) () reduce fun _ _ => trivial)

theorem maintains_evalExpr (source : Relation) (n : Node) : Maintains I (evalExpr source n) :=
  maintains_of_agree (agree_evalExpr (lawful_upkeep hI) rfl fun _ _ => trivial)

theorem maintains_evalSelect (q : Select) : Maintains I (evalSelect q) :=
  maintains_of_agree (agree_evalSelect (lawful_upkeep hI) () fun _ _ => trivial)

omit hI in
theorem columnsStay : ColumnsStay := fun id name => maintains_evalExpr (outlastsQueries_has id name)

end Query

end TableQuery
