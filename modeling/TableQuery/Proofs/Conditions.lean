import TableQuery.Proofs.Readings

/-! Conditions over the columns of one table. A condition without selects whose references are plain
names leaves the workspace, and WHERE leaves what its value chooses in the table. -/
namespace TableQuery

open List Work

def Workspace.KeepsOperators (w : Workspace) : Prop :=
  ∀ name op, Operator.ofName name = .ok op → w.catalog.extensions.lookup name = none

/-- A condition over plain column names, without selects. -/
structure Sql.Node.IsBare (n : Node) : Prop where
  flat : n.isFlat = true
  references : ∀ parts ∈ n.references, ∃ name, parts = [name]

namespace Work

variable {α β : Type}

def Same (w w' : Workspace) (x : Work α) : Prop :=
  ∃ r, Work.run x w = (r, w) ∧ Work.run x w' = (r, w')

theorem Still.same {x : Work α} (h : Still x) (w w' : Workspace) : Same w w' x := by
  obtain ⟨r, hr⟩ := h
  exact ⟨r, hr w, hr w'⟩

theorem Same.bind {w w' : Workspace} {x : Work α} {f : α → Work β} (hx : Same w w' x)
    (hf : ∀ a, Same w w' (f a)) : Same w w' (x >>= f) := by
  obtain ⟨r, hr, hr'⟩ := hx
  cases r with
  | error e => exact ⟨.error e, run_bind_error hr, run_bind_error hr'⟩
  | ok a =>
    obtain ⟨s, hs, hs'⟩ := hf a
    exact ⟨s, (run_bind_ok hr).trans hs, (run_bind_ok hr').trans hs'⟩

end Work

namespace Query

open Sql Work

theorem run_call_operator {w : Workspace} (hw : w.KeepsOperators) {op : String} {o : Operator}
    (h : Operator.ofName (Text.lower op) = .ok o) (args : List Value) :
    run (call op args) w = (o.apply args, w) := by
  rw [run_call, callAmong, hw _ o h, h]
  rfl

section Effects

variable {I : Workspace → Prop} (id : Nat)

theorem maintains_columnOf_bare (name : String) : Maintains I (columnOf [name] (.frame id)) := by
  refine (maintains_columns _).bind fun names => ?_
  split
  · exact maintains_columnsNamed id name
  · exact maintains_throw _

mutual

/-- An expression without selects does the same in two workspaces if its references do. -/
theorem same_evalExpr {w w' : Workspace} (h : w'.catalog = w.catalog) {source : Relation} {n : Node}
    (hFlat : n.isFlat = true) (hReads : ∀ parts ∈ n.references, Same w w' (columnOf parts source)) :
    Same w w' (evalExpr source n) := by
  cases n with
  | name parts t =>
    exact hReads parts (by simp [Node.references])
  | operation form op args t =>
    refine (same_evalArgs h hFlat hReads).bind fun values => ?_
    exact ⟨_, run_call op values w, (run_call op values w').trans (by rw [h])⟩
  | cast type arg t =>
    exact (same_evalExpr h (n := arg) hFlat hReads).bind fun _ => ⟨_, run_lift _ w, run_lift _ w'⟩
  | select q t => cases hFlat
  | tuple items t =>
    exact ((still_evalItems hFlat).same w w').bind fun _ => (still_pure _).same w w'
  | constant v t => exact (still_pure _).same w w'
  | null t => exact (still_pure _).same w w'
  | _ => exact (still_throw _).same w w'

theorem same_evalArgs {w w' : Workspace} (h : w'.catalog = w.catalog) {source : Relation}
    {ns : List Node} (hFlat : Node.areFlat ns = true)
    (hReads : ∀ parts ∈ Node.referencesOf ns, Same w w' (columnOf parts source)) :
    Same w w' (evalArgs source ns) := by
  cases ns with
  | nil => exact (still_pure _).same w w'
  | cons n rest =>
    rw [Node.areFlat, Bool.and_eq_true] at hFlat
    refine (same_evalExpr h hFlat.1 fun parts hParts =>
      hReads parts (mem_append_left _ hParts)).bind fun _ => ?_
    exact (same_evalArgs h hFlat.2 fun parts hParts =>
      hReads parts (mem_append_right _ hParts)).bind fun _ => (still_pure _).same w w'

end

/-- A bare expression leaves the workspace as it is. -/
theorem run_bareExpr {n : Node} (hn : n.IsBare) (w : Workspace) :
    run (evalExpr (.frame id) n) w = ((run (evalExpr (.frame id) n) w).1, w) := by
  obtain ⟨r, hr, -⟩ : Same w w (evalExpr (.frame id) n) :=
    same_evalExpr rfl hn.flat fun parts hParts => by
    obtain ⟨name, rfl⟩ := hn.references parts hParts
    have hStays : run (columnOf [name] (.frame id)) w = (_, w) :=
      Prod.ext rfl (maintains_columnOf_bare (I := (· = w)) id name w rfl)
    exact ⟨_, hStays, hStays⟩
  rw [hr]

end Effects

section Operations

variable {form : OpForm} {op : String} {x y : Node} {tag : Tag} {id : Nat} {a b v : Value}
  {w w' : Workspace}

theorem run_operation_one (hx : run (evalExpr (.frame id) x) w = (.ok a, w)) :
    run (evalExpr (.frame id) (.operation form op [x] tag)) w = run (call op [a]) w := by
  simp only [evalExpr, evalArgs, bind_assoc]
  rw [run_bind_ok hx]
  rfl

theorem run_operation_two (hx : run (evalExpr (.frame id) x) w = (.ok a, w))
    (hy : run (evalExpr (.frame id) y) w = (.ok b, w)) :
    run (evalExpr (.frame id) (.operation form op [x, y] tag)) w = run (call op [a, b]) w := by
  simp only [evalExpr, evalArgs, bind_assoc]
  rw [run_bind_ok hx, run_bind_ok hy]
  rfl

/-- An operation on a bare operand that has a value is a call with the value of the operand. -/
theorem exists_of_run_one (hx : x.IsBare)
    (h : run (evalExpr (.frame id) (.operation form op [x] tag)) w = (.ok v, w')) :
    ∃ a, run (evalExpr (.frame id) x) w = (.ok a, w) ∧ run (call op [a]) w = (.ok v, w') := by
  simp only [evalExpr, evalArgs, bind_assoc] at h
  obtain ⟨a, u, ha, hCall⟩ := run_bind_eq_ok h
  obtain rfl : u = w := congrArg Prod.snd (ha.symm.trans (run_bareExpr id hx w))
  exact ⟨a, ha, hCall⟩

theorem exists_of_run_two (hx : x.IsBare) (hy : y.IsBare)
    (h : run (evalExpr (.frame id) (.operation form op [x, y] tag)) w = (.ok v, w')) :
    ∃ a b, run (evalExpr (.frame id) x) w = (.ok a, w) ∧
      run (evalExpr (.frame id) y) w = (.ok b, w) ∧ run (call op [a, b]) w = (.ok v, w') := by
  simp only [evalExpr, evalArgs, bind_assoc] at h
  obtain ⟨a, u, ha, hRest⟩ := run_bind_eq_ok h
  obtain rfl : u = w := congrArg Prod.snd (ha.symm.trans (run_bareExpr id hx w))
  obtain ⟨b, u', hb, hCall⟩ := run_bind_eq_ok hRest
  obtain rfl : u' = u := congrArg Prod.snd (hb.symm.trans (run_bareExpr id hy u))
  exact ⟨a, b, ha, hb, hCall⟩

end Operations

/-- A condition is evaluated like any other expression. -/
theorem evalCondition_operation (source : Relation) (form : OpForm) (op : String) (args : List Node)
    (tag : Tag) :
    evalCondition source (.operation form op args tag) =
      evalExpr source (.operation form op args tag) := by
  rw [evalCondition, evalExpr]

def WhereLeaves (w : Workspace) (id : Nat) (condition : Node) (u : Table) : Prop :=
  ∃ kept w', Work.run (evalWhere (.frame id) (some condition)) w = (.ok (.frame kept), w') ∧
    w'.tableAt kept = u

theorem whereLeaves_iff {w v : Workspace} {id : Nat} {condition : Node} {c : Column}
    {origin : Option Origin}
    (h : run (evalCondition (.frame id) condition) w = (.ok (.column c origin), v)) (u : Table) :
    WhereLeaves w id condition u ↔ (v.tableAt id).choose c.data = .ok u := by
  unfold WhereLeaves
  rw [evalWhere, run_bind_ok h, run_filter]
  cases (v.tableAt id).choose c.data with
  | error e => simp
  | ok t =>
    constructor
    · rintro ⟨kept, w', hKept, rfl⟩
      cases hKept
      rw [Workspace.tableAt_push_size]
    · rintro ⟨⟩
      exact ⟨_, _, rfl, Workspace.tableAt_push_size v u⟩

end Query

/-- The truth value that an entry is, if it is one. -/
def Cell.truth? (c : Cell) : Option Bool :=
  match c.num? with
  | some (.bool b) => some b
  | _ => none

namespace Data

variable {d : Data}

def verdicts (d : Data) : List (Option Bool) := d.cells.map Cell.truth?

def positionsOf (d : Data) (v : Option Bool) : List Nat :=
  (List.range d.length).filter fun i => d.verdicts[i]? = some v

/-- Data of truth values, with marks or without. -/
def OfTruths (d : Data) : Prop := d.dtype = .bools ∨ d.dtype = .nullableBools

theorem OfTruths.exists_eq (h : d.OfTruths) :
    (∃ bs, d = .bools bs) ∨ ∃ bs, d = .nullableBools bs := by
  cases d with
  | bools bs => exact .inl ⟨bs, rfl⟩
  | nullableBools bs => exact .inr ⟨bs, rfl⟩
  | _ => exact h.elim nofun nofun

theorem verdicts_bools (bs : List Bool) : (bools bs).verdicts = bs.map some := by
  simp [verdicts, cells, Cell.truth?, Cell.num?, Function.comp_def]

theorem verdicts_nullableBools (bs : List (Option Bool)) : (nullableBools bs).verdicts = bs := by
  unfold verdicts cells
  rw [map_map]
  refine (map_congr_left fun b _ => ?_).trans (map_id bs)
  cases b <;> rfl

@[simp] theorem length_verdicts (d : Data) : d.verdicts.length = d.length := by
  simp [verdicts]

/-- A truth value that is not there is missing. -/
theorem OfTruths.missing_eq (h : d.OfTruths) : d.missing = d.verdicts.map Option.isNone := by
  rcases h.exists_eq with ⟨bs, rfl⟩ | ⟨bs, rfl⟩
  · rw [verdicts_bools]
    simp [missing, Function.comp_def]
  · rw [verdicts_nullableBools]
    rfl

theorem positionsWhere_eq (mask : List Bool) :
    Table.positionsWhere mask = (range mask.length).filter fun i => mask[i]? = some true := by
  have hZip : mask.zipIdx = (range mask.length).map fun i => (mask[i]?.getD false, i) := by
    apply ext_getElem
    · simp
    · intro i hi _
      simp [getElem?_eq_getElem (by simpa using hi)]
  rw [Table.positionsWhere, hZip, filter_map, map_map]
  refine (map_id _).trans (filter_congr fun i hi => ?_)
  rw [mem_range] at hi
  simp [getElem?_eq_getElem hi]

/-- Truth values choose the rows where they hold. -/
theorem OfTruths.choose_eq (h : d.OfTruths) {t : Table} (hLength : d.length = t.height) :
    t.choose d = .ok (t.pickRows (d.positionsOf (some true))) := by
  have hMask {mask : List Bool} (hChoice : d.choice = .ok (.rows mask))
      (hSize : mask.length = d.length)
      (hTruths : ∀ i : Nat, mask[i]? = some true ↔ d.verdicts[i]? = some (some true)) :
      t.choose d = .ok (t.pickRows (d.positionsOf (some true))) := by
    unfold Table.choose
    rw [hChoice]
    refine (if_pos (beq_iff_eq.2 (hSize.trans hLength))).trans ?_
    rw [Table.filterRows, positionsWhere_eq, hSize]
    simp only [hTruths]
    rfl
  rcases h.exists_eq with ⟨bs, rfl⟩ | ⟨bs, rfl⟩
  · exact hMask rfl rfl fun i => by simp [verdicts_bools]
  · refine hMask rfl (length_map _) fun i => ?_
    rw [verdicts_nullableBools, getElem?_map]
    cases bs[i]? with
    | none => simp
    | some b => cases b <;> simp

/-- The opposite of truth values. -/
theorem OfTruths.invert_eq (h : d.OfTruths) :
    ∃ e, d.invert = .ok e ∧ e.dtype = d.dtype ∧
      e.verdicts = d.verdicts.map (Option.map Bool.not) := by
  unfold invert
  split
  · rename_i hEmpty
    refine ⟨d, rfl, rfl, ?_⟩
    have hNil : d.verdicts = [] := eq_nil_of_length_eq_zero (by simpa using hEmpty)
    rw [hNil]
    rfl
  · rcases h.exists_eq with ⟨bs, rfl⟩ | ⟨bs, rfl⟩
    · exact ⟨_, rfl, rfl, by simp [verdicts_bools]⟩
    · exact ⟨_, rfl, rfl, by simp [verdicts_nullableBools]⟩

theorem mem_positionsOf_iff {v : Option Bool} {i : Nat} :
    i ∈ d.positionsOf v ↔ d.verdicts[i]? = some v := by
  rw [positionsOf, mem_filter, decide_eq_true_iff, and_iff_right_iff_imp]
  intro h
  simpa using (List.getElem?_eq_some_iff.1 h).1

theorem positionsOf_disjoint (d : Data) {u v : Option Bool} (hNe : u ≠ v) :
    Disjoint (d.positionsOf u) (d.positionsOf v) := by
  intro i hu hv
  rw [mem_positionsOf_iff] at hu hv
  exact hNe (Option.some.inj (hu.symm.trans hv))

/-- Every position has one truth value or none. -/
theorem positionsOf_perm (d : Data) :
    (d.positionsOf (some true) ++ d.positionsOf (some false) ++ d.positionsOf none).Perm
      (List.range d.length) := by
  have hNodup (v : Option Bool) : (d.positionsOf v).Nodup := List.nodup_range.filter _
  have hApart {u v : Option Bool} : u ≠ v → List.Disjoint (d.positionsOf u) (d.positionsOf v) :=
    d.positionsOf_disjoint
  refine (List.perm_ext_iff_of_nodup ?_ List.nodup_range).2 fun i => ?_
  · refine List.nodup_append'.2 ⟨List.nodup_append'.2 ⟨hNodup _, hNodup _, hApart nofun⟩, hNodup _,
      ?_⟩
    rw [List.disjoint_append_left]
    exact ⟨hApart nofun, hApart nofun⟩
  · simp only [List.mem_append, mem_positionsOf_iff, List.mem_range]
    constructor
    · rintro ((h | h) | h) <;> simpa using (List.getElem?_eq_some_iff.1 h).1
    · intro hi
      rw [← length_verdicts] at hi
      rw [List.getElem?_eq_getElem hi]
      rcases d.verdicts[i] with _ | _ | _ <;> simp

end Data

end TableQuery
