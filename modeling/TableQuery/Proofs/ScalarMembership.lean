import TableQuery.Proofs.Membership

/-! Membership of a scalar in a list of constants. A scalar is looked for among the labels of their
rows, which are the numbers from zero on, and the entries of a column among the constants. -/
namespace TableQuery

open List Work Cell Value

variable {cells : List Cell} {a : Cell}

namespace Cell

/-- A number below a bound that counts from zero. A truth value is none. -/
def IsRowNumber (c : Cell) (n : Nat) : Prop :=
  (∀ b, c.num? ≠ some (.bool b)) ∧ ∃ i < n, c.SameValue (.int (i : Nat))

theorem sameValue_nums {b : Cell} {m n : Num} (ha : a.num? = some m) (hb : b.num? = some n) :
    a.SameValue b ↔ m.place = n.place := by
  refine ⟨fun h => ?_, .nums ha hb⟩
  obtain ⟨k, hk, hPlace⟩ := h.exists_place ha
  cases hb.symm.trans hk
  exact hPlace

theorem ofCell_of_isDistinguishable {c : Cell} (h : c.isDistinguishable = true) :
    ofCell c = .scalar c := by
  cases c <;> first | rfl | cases h

end Cell

namespace Operator

/-- A label is found by the same number, unless a truth value stands for it. -/
theorem isLabel_int_iff (c : Cell) (i : Int) :
    isLabel c (.int i) = true ↔ (∀ b, c.num? ≠ some (.bool b)) ∧ c.SameValue (.int i) := by
  unfold isLabel
  cases hNum : c.num? with
  | none =>
    have hOther : c.num?.isSome ≠ (int i).num?.isSome := by
      rw [hNum]
      exact Bool.false_ne_true
    refine iff_of_false ?_ fun h => hOther h.2.isSome_num?
    rw [Bool.not_eq_true]
    exact same_of_num_ne hOther
  | some m =>
    have hFinite : (Num.int i).place ≠ ⊤ := WithTop.coe_ne_top
    have hSame : c.same (.int i) = true ↔ c.SameValue (.int i) := by
      rw [same_of_nums hNum rfl, Num.compares_eq_iff, sameValue_nums hNum rfl]
      exact and_iff_left_of_imp fun h => h ▸ hFinite
    cases m with
    | bool b => simp
    | int n => simpa using hSame
    | float x => simpa using hSame

theorem any_isLabel_freshLabels (c : Cell) (n : Nat) :
    (Column.freshLabels n).any (isLabel c) = true ↔ c.IsRowNumber n := by
  simp only [Column.freshLabels, any_map, any_eq_true, mem_range, Function.comp_apply,
    isLabel_int_iff, IsRowNumber]
  constructor
  · rintro ⟨i, hi, hNumber, hSame⟩
    exact ⟨hNumber, i, hi, hSame⟩
  · rintro ⟨hNumber, i, hi, hSame⟩
    exact ⟨i, hi, hNumber, hSame⟩

end Operator

/-- Constants look for present values that fit a double as they are, in whatever storage they come
to stand. -/
theorem Data.exists_sameValue_infer_iff (ha : a.isMissing = false)
    (hFits : ∀ v ∈ cells, v.FitsDouble) :
    (∃ v ∈ (infer cells).cells, a.SameValue v) ↔ ∃ v ∈ cells, a.SameValue v := by
  have hEntries : Forall₂ (fun v v' => a.SameValue v ↔ a.SameValue v') cells
      (infer cells).cells := by
    refine forall₂_infer (fun h => ⟨fun hSame => hSame.trans h, fun hSame => hSame.trans h.symm⟩)
      fun hType v hv => ?_
    rcases Census.num_or_null_of_dtype_floats hType hv with hNum | rfl
    · obtain ⟨m, hm⟩ := Option.isSome_iff_exists.1 hNum
      have hSame : v.SameValue (.float v.asFloat) := by
        refine .nums hm rfl ?_
        rw [asFloat, hm]
        exact (Num.place_toFloat fun k hk => hFits v hv m k hm hk).symm
      exact ⟨fun h => h.trans hSame, fun h => h.trans hSame.symm⟩
    · have hNan : isMissing (.float (asFloat .null)) = true := by decide +kernel
      refine iff_of_false (fun h => ?_) fun h => ?_
      · rw [h.isMissing_eq] at ha
        cases ha
      · rw [h.isMissing_eq] at ha
        cases ha
  generalize (infer cells).cells = entries at hEntries
  clear hFits
  induction hEntries with
  | nil => exact Iff.rfl
  | cons hFirst _ ih => simp only [mem_cons, exists_eq_or_imp, hFirst, ih]

theorem Data.fitsDouble_infer (h : ∀ v ∈ cells, v.FitsDouble) :
    ∀ v ∈ (infer cells).cells, v.FitsDouble := by
  unfold infer
  split
  · rename_i k hType
    intro v hv m n hm hn
    rw [Data.cells, map_map] at hv
    obtain ⟨c, hc, rfl⟩ := mem_map.1 hv
    obtain ⟨i, hi⟩ := Census.num_of_dtype_ints hType hc
    cases hm
    refine h c hc _ n hi (Eq.trans ?_ hn)
    simp [asInt, hi, Num.asInt?]
  · intro v hv m n hm hn
    obtain ⟨x, -, rfl⟩ := mem_map.1 hv
    cases hm
    cases hn
  · intro v hv m n hm hn
    obtain ⟨b, -, rfl⟩ := mem_map.1 hv
    cases hm
    cases hn
    cases b <;> decide
  · exact h

theorem Data.freeCells_infer (cells : List Cell) :
    (infer cells).freeCells = (infer cells).cells := by
  unfold infer
  split <;> rfl

/-- The verdict on the entry of a one-row column. -/
theorem Data.verdicts_members_one {d : Data} (values : Data) (hEntry : d.freeCells = [a])
    (ha : a.isDistinguishable = true) (found : Bool) : (d.members values).verdicts = [some found] ↔
    (found = true ↔ ∃ v ∈ values.freeCells, d.TakesFor values a v) := by
  have hLength : (d.members values).verdicts.length = 1 := by
    rw [length_verdicts, length_members, ← length_freeCells, hEntry]
    rfl
  have hVerdict := verdicts_members values (i := 0) (by simp [hEntry, ha]) (congrArg (·[0]?) hEntry)
  have hSettled := none_not_mem_verdicts_members d values
  obtain ⟨v, hv⟩ := length_eq_one_iff.1 hLength
  rw [hv] at hVerdict hSettled
  rw [← hVerdict, hv]
  cases v with
  | none => simp at hSettled
  | some b => cases b <;> cases found <;> simp

inductive Sql.Node.IsConstant : Sql.Node → Cell → Prop where
  | constant {v : Cell} (tag : Sql.Tag) : v.isDistinguishable = true →
      IsConstant (.constant v tag) v
  | null (tag : Sql.Tag) : IsConstant (.null tag) .null

namespace Query

open Sql Work

variable {items : List Node}

theorem run_evalItems_constants (h : Forall₂ Node.IsConstant items cells)
    (w : Workspace) : run (evalItems items) w = (.ok (cells.map scalar), w) := by
  induction h with
  | nil => rfl
  | @cons n c rest cells hFirst _ ih =>
    have hValue : run (eval false n) w = (.ok (.scalar c), w) := by
      cases hFirst with
      | constant tag hv =>
        rw [← ofCell_of_isDistinguishable hv]
        rfl
      | null tag => rfl
    rw [evalItems, run_bind_ok hValue, run_bind_ok ih]
    rfl

/-- A list of constants is the column of their values, its rows numbered from zero. -/
theorem run_tuple_constants (h : Forall₂ Node.IsConstant items cells) (source : Relation)
    (tag : Tag) (w : Workspace) :
    run (evalExpr source (.tuple items tag)) w =
      (.ok (.column ⟨Column.freshLabels cells.length, none, Data.infer cells⟩ none), w) := by
  have hCells : (cells.map scalar).map toCell = cells := by simp [Function.comp_def, toCell]
  rw [evalExpr, run_bind_ok (run_evalItems_constants h w)]
  simp [tupleValue, hCells, ofColumn, Column.ofData, run_pure]

section Constants

variable {w w₁ : Workspace} (hw : w.KeepsOperators) {source : Relation} {op : String}
  (ho : Operator.ofName (Text.lower op) = .ok .member)
  (hItems : List.Forall₂ Node.IsConstant items cells)
variable {x : Node}
include hw ho hItems

/-- A membership in constants applies the operator to the value and to the column of the constants.
-/
theorem run_member_constants {v : Value} (hx : run (evalExpr source x) w = (.ok v, w₁))
    (form : OpForm) (tag listTag : Tag) :
    run (evalExpr source (.operation form op [x, .tuple items listTag] tag)) w =
      (Operator.member.apply
          [v, .column ⟨Column.freshLabels cells.length, none, Data.infer cells⟩ none],
        w₁) := by
  have hKeeps : w₁.KeepsOperators := by
    have h₁ := maintains_evalExpr ignoresQueries_keepsOperators.outlasts source x w hw
    rw [hx] at h₁
    exact h₁
  simp only [evalExpr, evalArgs, bind_assoc]
  have hTuple := run_tuple_constants hItems source listTag w₁
  rw [evalExpr] at hTuple
  rw [run_bind_ok hx, ← bind_assoc, run_bind_ok hTuple]
  exact run_call_operator hKeeps ho _

/-- The entries of a column are members if they are taken for one of the constants. -/
theorem run_entries_constants {y : Node} {c : Column} {origin : Option Origin}
    (hy : run (evalExpr source y) w = (.ok (.column c origin), w₁)) (form : OpForm)
    (tag listTag : Tag) :
    run (evalExpr source (.operation form op [y, .tuple items listTag] tag)) w =
      (.ok (.column { c with data := c.data.members (Data.infer cells) } none), w₁) := by
  rw [run_member_constants hw ho hItems hy form tag listTag]
  rfl

/-- A scalar is a member if it is the number of a row. -/
theorem run_scalar_constants {c : Cell} (hc : c.isDistinguishable = true)
    (hx : run (evalExpr source x) w = (.ok (.scalar c), w₁)) (form : OpForm) (tag listTag : Tag) :
    ∃ found,
      run (evalExpr source (.operation form op [x, .tuple items listTag] tag)) w =
        (.ok (.scalar (.bool found)), w₁) ∧
      (found = true ↔ c.IsRowNumber cells.length) := by
  refine ⟨_, ?_, Operator.any_isLabel_freshLabels c cells.length⟩
  rw [run_member_constants hw ho hItems hx form tag listTag]
  cases c <;> first | rfl | cases hc

/-- Of the equal scalars 1 and TRUE the one is found in every list and the other in none. -/
theorem exists_wrong_scalar (hMany : 2 ≤ cells.length) (form : OpForm) (tag listTag : Tag) :
    ∃ wrong ∈ [int 1, .bool true], ∃ found : Bool,
        (run (evalExpr source (.operation form op [.constant wrong {}, .tuple items listTag] tag))
          w).1 = .ok (.scalar (.bool found)) ∧
        ¬(found = true ↔ ∃ v ∈ cells, wrong.SameValue v) := by
  have hEqual : SameValue (.bool true) (.int 1) := .nums rfl rfl rfl
  have hConstantOne : run (evalExpr source (.constant (.int 1) {})) w =
      (.ok (.scalar (.int 1)), w) := rfl
  have hConstantYes : run (evalExpr source (.constant (.bool true) {})) w =
      (.ok (.scalar (.bool true)), w) := rfl
  obtain ⟨one, hRunOne, hOne⟩ := run_scalar_constants hw ho hItems rfl hConstantOne form tag listTag
  obtain ⟨yes, hRunYes, hYes⟩ := run_scalar_constants hw ho hItems rfl hConstantYes form tag listTag
  by_cases hMem : ∃ v ∈ cells, (int 1).SameValue v
  · obtain ⟨v, hv, hSame⟩ := hMem
    refine ⟨.bool true, by simp, yes, congrArg Prod.fst hRunYes, fun h => ?_⟩
    exact (hYes.1 (h.2 ⟨v, hv, hEqual.trans hSame⟩)).1 true rfl
  · refine ⟨.int 1, by simp, one, congrArg Prod.fst hRunOne, fun h => ?_⟩
    exact hMem (h.1 (hOne.2 ⟨fun _ hb => (by cases hb), 1, hMany, .refl _⟩))

end Constants

namespace Numbered

def five : Table := ⟨Column.freshLabels 1, [("a", .ints .int64 [5])]⟩

def handed : Workspace := { Workspace.ofTables [("t", five)] with frames := #[{ table := five }] }

def constants : List Node := [.constant (.int 5) {}, .constant (.int 6) {}]

/-- `x IN (5, 6)`. -/
def among (x : Node) : Node := .operation .binary "IN" [x, .tuple constants {}] {}

end Numbered

end Query

end TableQuery
