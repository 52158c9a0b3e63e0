import TableQuery.Operator
import TableQuery.Proofs.Rows

/-! Operators and the names of columns. Only the test for identity asks where a column was read
from, and no operator what it is called. So operators commute with every disguise of columns that
changes names and places. -/
namespace TableQuery

open Value Except

/-- Other names and places for columns. -/
structure Disguise where
  name : Option String → Option String
  origin : Option Origin → Option Origin
  name_none : name none = none
  origin_none : origin none = none
  name_shared : ∀ a b, sharedName (name a) (name b) = name (sharedName a b)

/-- A disguise that leaves places apart and makes none the same. -/
def Disguise.Faithful (r : Disguise) : Prop :=
  ∀ o p, ∃ o' p', r.origin (some o) = some o' ∧ r.origin (some p) = some p' ∧ (o' == p') = (o == p)

def Column.under (r : Disguise) (c : Column) : Column := { c with name := r.name c.name }

namespace Value

def under (r : Disguise) : Value → Value
  | .column c origin => .column (c.under r) (r.origin origin)
  | v => v

def origin? : Value → Option Origin
  | .column _ origin => origin
  | _ => none

def Outcome.under (r : Disguise) : Outcome → Outcome
  | .real v => .real (v.under r)
  | .imaginary => .imaginary

end Value

namespace Column

variable {r : Disguise}

/-- The name that two operands share is disguised as they are. -/
theorem arith_under (op : Arith) (a b : Column) :
    (a.under r).arith op (b.under r) = under r <$> a.arith op b := by
  unfold Column.arith
  rw [map_bind]
  exact bind_congr fun d =>
    congrArg (fun name => ok (Column.mk _ name d)) (r.name_shared a.name b.name)

theorem arithScalar_under (op : Arith) (a : Column) (c : Cell) (columnLeft : Bool) :
    (a.under r).arithScalar op c columnLeft = under r <$> a.arithScalar op c columnLeft := by
  unfold Column.arithScalar
  cases columnLeft with
  | false =>
    rw [if_neg Bool.false_ne_true, if_neg Bool.false_ne_true, map_bind]
    rfl
  | true =>
    rw [if_pos rfl, if_pos rfl, map_bind]
    rfl

theorem compares_under (op : Comparison) (a b : Column) :
    (a.under r).compares op (b.under r) = under r <$> a.compares op b := by
  unfold Column.compares
  by_cases hLabels : Cell.sameAll a.labels b.labels = true
  · rw [if_pos (show Cell.sameAll (a.under r).labels (b.under r).labels = true from hLabels),
      if_pos hLabels, map_bind]
    exact bind_congr fun d =>
      congrArg (fun name => ok (Column.mk _ name d)) (r.name_shared a.name b.name)
  · rw [if_neg (show ¬ Cell.sameAll (a.under r).labels (b.under r).labels = true from hLabels),
      if_neg hLabels]
    rfl

theorem comparesScalar_under (op : Comparison) (a : Column) (c : Cell) :
    (a.under r).comparesScalar op c = under r <$> a.comparesScalar op c := by
  unfold Column.comparesScalar
  rw [map_bind]
  rfl

theorem map_under (f : Data → Except Fault Data) (a : Column) :
    (a.under r).map f = under r <$> a.map f := by
  unfold Column.map
  rw [map_bind]
  rfl

end Column

namespace Value

variable (r : Disguise)

@[simp] theorem under_ofColumn (c : Column) : (ofColumn c).under r = ofColumn (c.under r) :=
  congrArg (column (c.under r)) r.origin_none

theorem isStructured_under (v : Value) : (v.under r).isStructured = v.isStructured := by
  cases v <;> rfl

theorem truth_under (v : Value) : (v.under r).truth = v.truth := by
  cases v <;> rfl

theorem isOfKind_under (v : Value) (kind : ValueKind) :
    (v.under r).isOfKind kind = v.isOfKind kind := by
  cases v <;> cases kind <;> rfl

/-- A template is filled with a column in the same way whatever it is called. -/
theorem fillTemplate_column (labels : List Cell) (name : Option String) (d : Data)
    (cs : List Char) :
    fillTemplate (.column labels name d) cs = fillTemplate (.column labels none d) cs := by
  fun_induction fillTemplate (.column labels name d) cs with
  | _ => simp_all [fillTemplate, Cell.display, Cell.quoted, Cell.num?]

section Results

variable {α : Type}

theorem map_under_columns (x : Except Fault Column) :
    under r <$> (x >>= fun c => pure (ofColumn c)) =
      (Column.under r <$> x) >>= fun c => pure (ofColumn c) := by
  rw [map_bind, bind_map_left]
  exact bind_congr fun c => congrArg ok (under_ofColumn r c)

theorem map_under_tables (x : Except Fault Table) :
    under r <$> (x >>= fun t => pure (.table t)) = x >>= fun t => pure (.table t) := by
  rw [map_bind]
  rfl

theorem map_under_scalars (x : Except Fault α) (f : α → Cell) :
    under r <$> (x >>= fun a => pure (.scalar (f a))) = x >>= fun a => pure (.scalar (f a)) := by
  rw [map_bind]
  rfl

/-- An operator that works entry by entry leaves an empty column as it is. -/
theorem map_under_entries (c : Column) (x : Except Fault α) (f : α → Data) :
    under r <$> (if c.length == 0 then ok (ofColumn c)
      else x >>= fun a => pure (ofColumn { c with data := f a })) =
    if (c.under r).length == 0 then ok (ofColumn (c.under r))
      else x >>= fun a => pure (ofColumn { (c.under r) with data := f a }) := by
  by_cases hEmpty : (c.length == 0) = true
  · rw [if_pos hEmpty, if_pos (show ((c.under r).length == 0) = true from hEmpty)]
    exact congrArg ok (under_ofColumn r c)
  · rw [if_neg hEmpty, if_neg (show ¬ ((c.under r).length == 0) = true from hEmpty), map_bind]
    exact bind_congr fun a => congrArg ok (under_ofColumn r _)

end Results

theorem compares_under (op : Comparison) (a b : Value) :
    compares op (a.under r) (b.under r) = under r <$> compares op a b := by
  cases a with
  | scalar x =>
    cases b with
    | scalar y => exact (map_under_scalars r _ _).symm
    | column y _ =>
      exact (congrArg (· >>= _) (y.comparesScalar_under op.flip x)).trans
        (map_under_columns r _).symm
    | table t => exact (map_under_tables r _).symm
  | column x _ =>
    cases b with
    | scalar c =>
      exact (congrArg (· >>= _) (x.comparesScalar_under op c)).trans
        (map_under_columns r _).symm
    | column y _ =>
      exact (congrArg (· >>= _) (x.compares_under op y)).trans (map_under_columns r _).symm
    | table t => rfl
  | table s =>
    cases b with
    | scalar c => exact (map_under_tables r _).symm
    | column y _ => rfl
    | table t =>
      unfold compares
      dsimp only [under]
      split
      · exact (map_under_tables r _).symm
      · rfl

namespace Outcome

theorem map_under_scalars (x : Except Fault Scalar) :
    under r <$> (x >>= fun r => match r with
      | .real c => pure (Outcome.real (.scalar c))
      | .imaginary => pure .imaginary) =
    x >>= fun r => match r with
      | .real c => pure (Outcome.real (.scalar c))
      | .imaginary => pure .imaginary := by
  rw [map_bind]
  refine bind_congr fun r => ?_
  cases r <;> rfl

theorem map_under_columns (x : Except Fault Column) :
    under r <$> (x >>= fun c => pure (Outcome.real (ofColumn c))) =
      (Column.under r <$> x) >>= fun c => pure (Outcome.real (ofColumn c)) := by
  rw [map_bind, bind_map_left]
  exact bind_congr fun c => congrArg (fun v => ok (Outcome.real v)) (under_ofColumn r c)

theorem map_under_tables (x : Except Fault Table) :
    under r <$> (x >>= fun t => pure (Outcome.real (.table t))) =
      x >>= fun t => pure (Outcome.real (.table t)) := by
  rw [map_bind]
  rfl

end Outcome

/-- A template shows the entries of a column and not its name. -/
theorem arith_template (s : String) (c : Column) :
    Cell.arith .mod (.text s) (c.under r).toCell = Cell.arith .mod (.text s) c.toCell := by
  have hFilled : fillTemplate (c.under r).toCell s.toList = fillTemplate c.toCell s.toList :=
    (fillTemplate_column c.labels (r.name c.name) c.data s.toList).trans
      (fillTemplate_column c.labels c.name c.data s.toList).symm
  change (fillTemplate (c.under r).toCell s.toList >>= _) = fillTemplate c.toCell s.toList >>= _
  rw [hFilled]
  rfl

/-- Arithmetic does not look at names. -/
theorem arith_under (op : Arith) (a b : Value) :
    arith op (a.under r) (b.under r) = Outcome.under r <$> arith op a b := by
  cases a with
  | scalar x =>
    cases b with
    | scalar y => exact (Outcome.map_under_scalars r _).symm
    | column y origin =>
      have hColumn := (congrArg (· >>= fun c => pure (Outcome.real (ofColumn c)))
        (y.arithScalar_under op x false)).trans (Outcome.map_under_columns r _).symm
      cases x with
      | text s =>
        by_cases hTemplate : op = .mod
        · subst hTemplate
          refine (congrArg (· >>= _) (arith_template r s y)).trans ?_
          exact (Outcome.map_under_scalars r _).symm
        · have hOp : ¬ (op == .mod) = true := by simpa using hTemplate
          unfold arith
          dsimp only [under]
          rw [if_neg hOp, if_neg hOp]
          exact hColumn
      | _ => exact hColumn
    | table t =>
        have hTable :=
          Outcome.map_under_tables r (t.mapData fun d => Data.arith op (.scalar x) (.data d))
        cases x with
        | text s =>
          unfold arith
          dsimp only [under]
          split
          · exact (Outcome.map_under_scalars r _).symm
          · exact hTable.symm
        | _ => exact hTable.symm
  | column x _ =>
    cases b with
    | scalar c =>
      exact (congrArg (· >>= _) (x.arithScalar_under op c true)).trans
        (Outcome.map_under_columns r _).symm
    | column y _ =>
      exact (congrArg (· >>= _) (x.arith_under op y)).trans
        (Outcome.map_under_columns r _).symm
    | table t => rfl
  | table s =>
    cases b with
    | scalar c => exact (Outcome.map_under_tables r _).symm
    | column y _ => rfl
    | table t => exact (Outcome.map_under_tables r _).symm

theorem negate_under (v : Value) : (v.under r).negate = under r <$> v.negate := by
  cases v with
  | scalar c => exact (map_under_scalars r _ _).symm
  | column c _ =>
    exact (congrArg (· >>= _) (c.map_under Data.negate)).trans (map_under_columns r _).symm
  | table t => exact (map_under_tables r _).symm

theorem invert_under (v : Value) : (v.under r).invert = under r <$> v.invert := by
  cases v with
  | scalar c => exact (map_under_scalars r _ _).symm
  | column c _ =>
    exact (congrArg (· >>= _) (c.map_under Data.invert)).trans (map_under_columns r _).symm
  | table t => exact (map_under_tables r _).symm

theorem toNumeric_under (v : Value) : (v.under r).toNumeric = under r <$> v.toNumeric := by
  cases v with
  | scalar c =>
    cases c with
    | text s =>
      unfold toNumeric
      rw [map_bind]
      refine bind_congr fun r => ?_
      cases r.num? <;> rfl
    | list items => exact (map_under_scalars r _ _).symm
    | _ => rfl
  | column c _ =>
    exact (congrArg (· >>= _) (c.map_under Data.toNumeric)).trans (map_under_columns r _).symm
  | table t => rfl

theorem isMissing_under (v : Value) : (v.under r).isMissing = v.isMissing.under r := by
  cases v with
  | scalar c => rfl
  | column c origin => exact (under_ofColumn r { c with data := .bools c.data.missing }).symm
  | table t => rfl

theorem castPacked_under (target : CastType) (n : Num) :
    under r <$> cast.castPacked target n = cast.castPacked target n := by
  unfold cast.castPacked
  split
  · rfl
  · rfl
  · rw [map_bind]
    refine bind_congr fun ms => ?_
    cases ms <;> rfl
  · rfl
  · rfl
  · rfl

/-- A cast leaves names as they are. -/
theorem cast_under (type : String) (v : Value) :
    (v.under r).cast type = under r <$> v.cast type := by
  unfold cast
  cases CastType.ofName? type with
  | none => rfl
  | some target =>
    have hMade (x : Except Fault Data) :
        under r <$> (x >>= fun d => pure (ofColumn (Column.ofData d none))) =
          x >>= fun d => pure (ofColumn (Column.ofData d none)) := by
      rw [map_bind]
      exact bind_congr fun d => congrArg ok
          ((under_ofColumn r _).trans
            (congrArg (fun name => ofColumn (Column.mk _ name d)) r.name_none))
    cases v with
    | scalar c =>
      cases c with
      | packed n => exact (castPacked_under r target n).symm
      | _ => exact (hMade _).symm
    | column c _ =>
      exact (congrArg (· >>= _) (c.map_under (Data.cast target))).trans
        (map_under_columns r _).symm
    | table t => exact (map_under_tables r _).symm

end Value

namespace Checks

variable {f : Value → Value} (hf : ∀ v kind, (f v).isOfKind kind = v.isOfKind kind)
include hf

/-- Checks look at nothing but the kinds of values. -/
theorem assertInputs_map (checks : Checks) (args : List Value) :
    checks.assertInputs (args.map f) = checks.assertInputs args := by
  have hKinds (kind : ValueKind) :
      (args.map f).mapM (·.isOfKind kind) = args.mapM (·.isOfKind kind) := by
    rw [List.mapM_map]
    simp only [Function.comp_def, hf]
  unfold Checks.assertInputs
  cases checks.checks.find? Check.isOfInputs with
  | none => rfl
  | some check =>
    cases check with
    | inputs kind => exact congrArg (· >>= _) (hKinds kind)
    | output kind => rfl
    | _ => simp [Check.runInputs]

/-- The check of a result asks for its kind only. -/
theorem assertOutput_map (checks : Checks) (v : Value) :
    checks.assertOutput (f v) = checks.assertOutput v := by
  unfold Checks.assertOutput
  cases checks.checks.find? (!·.isOfInputs) with
  | none => rfl
  | some check =>
    cases check with
    | output kind => exact congrArg (· >>= _) (hf v kind)
    | _ => rfl

end Checks

namespace Operator

variable (r : Disguise)
variable {a b : Value} {args : List Value}

theorem combine_under (op : Arith) (a b : Value) :
    combine op (a.under r) (b.under r) = under r <$> combine op a b := by
  unfold combine
  rw [arith_under, bind_map_left, map_bind]
  refine bind_congr fun r => ?_
  cases r with
  | imaginary => rfl
  | real v =>
    cases v with
    | scalar c => rfl
    | column c _ =>
      exact (congrArg (· >>= _) (c.map_under _)).trans (map_under_columns r _).symm
    | table t => exact (map_under_tables r _).symm

theorem conjoin_under (a b : Value) :
    conjoin (a.under r) (b.under r) = under r <$> conjoin a b := by
  unfold conjoin
  rw [isStructured_under, isStructured_under, truth_under]
  split
  · exact combine_under r .mul a b
  · rw [map_bind]
    refine bind_congr fun holds => ?_
    cases holds <;> rfl

theorem disjoin_under (a b : Value) :
    disjoin (a.under r) (b.under r) = under r <$> disjoin a b := by
  unfold disjoin
  rw [isStructured_under, isStructured_under, truth_under]
  split
  · exact combine_under r .add a b
  · rw [map_bind]
    refine bind_congr fun holds => ?_
    cases holds <;> rfl

theorem opposite_under (v : Value) : opposite (v.under r) = under r <$> opposite v := by
  unfold opposite
  rw [isStructured_under, truth_under]
  split
  · exact invert_under r v
  · exact (map_under_scalars r _ _).symm

theorem onTexts_under (f : String → String) (v : Value) :
    onTexts f (v.under r) = under r <$> onTexts f v := by
  cases v with
  | scalar c => cases c <;> rfl
  | column c _ =>
    exact (map_under_entries r c _ _).symm
  | table t => rfl

theorem matchesPattern_under (s : Cell) (v : Value) :
    matchesPattern s (v.under r).toCell = matchesPattern s v.toCell := by
  cases v <;> rfl

theorem matching_under (a b : Value) :
    matching (a.under r) (b.under r) = under r <$> matching a b := by
  cases a with
  | scalar c =>
    refine (congrArg (· >>= _) (matchesPattern_under r c b)).trans ?_
    exact (map_under_scalars r _ _).symm
  | column c _ =>
    have hPattern :
        (fun s => matchesPattern s (b.under r).toCell) = fun s => matchesPattern s b.toCell :=
      funext fun s => matchesPattern_under r s b
    refine Eq.trans ?_ (map_under_entries r c _ _).symm
    rw [← hPattern]
    rfl
  | table t => rfl

/-- Membership is a matter of entries. -/
theorem membership_under (a b : Value) :
    membership (a.under r) (b.under r) = under r <$> membership a b := by
  cases a with
  | scalar x =>
    cases b with
    | scalar y =>
      cases y with
      | list items => cases x <;> exact (map_under_scalars r _ _).symm
      | _ => cases x <;> rfl
    | column d _ => cases x <;> rfl
    | table t => cases x <;> rfl
  | column c _ =>
    cases b with
    | column d _ =>
      exact congrArg ok
        (under_ofColumn r { c with data := c.data.members d.data }).symm
    | _ => rfl
  | table t =>
    cases b with
    | column d _ => exact (map_under_tables r _).symm
    | _ => rfl

/-- Identity is the one test that sees places. -/
theorem identicalValues_under (h : r.Faithful ∨ a.origin? = none ∨ b.origin? = none) :
    identicalValues (a.under r) (b.under r) = identicalValues a b := by
  cases a with
  | column c o =>
    cases b with
    | column d p =>
      change identicalValues (.column (c.under r) (r.origin o)) (.column (d.under r) (r.origin p)) =
        _
      cases o with
      | none =>
        rw [r.origin_none]
        rfl
      | some o =>
        cases p with
        | none =>
          rw [r.origin_none]
          cases r.origin (some o) <;> rfl
        | some p =>
          obtain ⟨o', p', ho, hp, hSame⟩ := (h.resolve_right (by simp [origin?])) o p
          rw [ho, hp]
          exact hSame
    | _ =>
      change identicalValues (.column (c.under r) (r.origin o)) _ = _
      cases o <;> cases r.origin _ <;> rfl
  | _ => cases b <;> rfl

/-- The test for identity sees where columns were read from, if it has two of them. -/
theorem isTest_under (h : r.Faithful ∨ a.origin? = none ∨ b.origin? = none) :
    isTest (a.under r) (b.under r) = under r <$> isTest a b := by
  have hIdentical := congrArg (fun holds => (.ok (.scalar (.bool holds)) : Except Fault Value))
    (identicalValues_under r h)
  have hEqual := compares_under r .eq a b
  cases a with
  | scalar x =>
    cases b with
    | scalar y => cases x <;> rfl
    | column d _ =>
      cases x with
      | null => exact congrArg ok (isMissing_under r _)
      | bool q => exact hEqual
      | _ => exact hIdentical
    | table t =>
      cases x with
      | bool q => exact hEqual
      | _ => rfl
  | column c _ =>
    cases b with
    | scalar y =>
      cases y with
      | null => exact congrArg ok (isMissing_under r _)
      | bool q => exact hEqual
      | _ => exact hIdentical
    | column d _ => exact hIdentical
    | table t => exact hIdentical
  | table s =>
    cases b with
    | scalar y =>
      cases y with
      | bool q => exact hEqual
      | _ => rfl
    | _ => rfl

theorem numericResult_under (op : Operator) (x : Except Fault Outcome) :
    numericResult op (Outcome.under r <$> x) = under r <$> numericResult op x := by
  unfold numericResult
  rw [bind_map_left, map_bind]
  refine bind_congr fun r => ?_
  cases r with
  | real v => exact toNumeric_under r v
  | imaginary => rfl

theorem assertNegatable_under (args : List Value) :
    assertNegatable (args.map (under r)) = assertNegatable args := by
  match args with
  | [] => rfl
  | [v] => cases v <;> rfl
  | v :: _ :: _ =>
    cases v with
    | scalar c => cases c <;> rfl
    | _ => rfl

theorem assertSubtractable_under (args : List Value) :
    assertSubtractable (args.map (under r)) = assertSubtractable args := by
  have hNumeric (v : Value) : (v.under r).isNumeric = v.isNumeric := v.isOfKind_under r .numeric
  match args with
  | [] => rfl
  | [a] =>
    unfold assertSubtractable
    dsimp only [List.map]
    rw [isStructured_under, hNumeric]
  | [a, b] =>
    unfold assertSubtractable
    dsimp only [List.map]
    rw [isStructured_under, isStructured_under, hNumeric, hNumeric]
  | _ :: _ :: _ :: _ => rfl

theorem assertMembers_under (args : List Value) :
    assertMembers (args.map (under r)) = assertMembers args := by
  match args with
  | [] => rfl
  | [_] => rfl
  | _ :: v :: _ => cases v <;> rfl

/-- Operands are checked by number and kind. -/
theorem assertInputs_under (op : Operator) (args : List Value) :
    op.assertInputs (args.map (under r)) = op.assertInputs args := by
  have hChecks := Checks.assertInputs_map (isOfKind_under r) ⟨op.name, op.checks⟩ args
  cases op with
  | not => exact assertNegatable_under r args
  | minus => exact assertSubtractable_under r args
  | member => exact assertMembers_under r args
  | _ => exact hChecks

/-- By the number of operands, which decides what an operator does with them. -/
theorem rule_under (op : Operator)
    (h : r.Faithful ∨ (op ≠ .is ∧ op ≠ .isNot) ∨ ∃ v ∈ args, v.origin? = none) :
    op.rule (args.map (under r)) = under r <$> op.rule args := by
  match args with
  | [] => cases op <;> rfl
  | [a] =>
    cases op with
    | not => exact opposite_under r a
    | minus =>
      refine (congrArg (· >>= toNumeric) (negate_under r a)).trans ?_
      exact (bind_map_left _ _ _).trans
        ((bind_congr fun v => toNumeric_under r v).trans (map_bind _ _ _).symm)
    | lower => exact onTexts_under r _ a
    | upper => exact onTexts_under r _ a
    | _ => rfl
  | [a, b] =>
    have hArith (op : Arith) := arith_under r op a b
    cases op with
    | and => exact conjoin_under r a b
    | or => exact disjoin_under r a b
    | compare c => exact compares_under r c a b
    | is => exact isTest_under r (by simpa using h)
    | isNot =>
      refine (congrArg (· >>= opposite) (isTest_under r (by simpa using h))).trans ?_
      exact (bind_map_left _ _ _).trans
        ((bind_congr fun v => opposite_under r v).trans (map_bind _ _ _).symm)
    | concat =>
      refine (congrArg (· >>= _) (hArith .add)).trans ((bind_map_left _ _ _).trans ?_)
      refine (bind_congr fun r => ?_).trans (map_bind _ _ _).symm
      cases r <;> rfl
    | like => exact matching_under r a b
    | member => exact membership_under r a b
    | not => rfl
    | lower => rfl
    | upper => rfl
    | _ => exact (congrArg _ (hArith _)).trans (numericResult_under r _ _)
  | a :: b :: c :: rest =>
    cases op with
    | member => exact membership_under r a b
    | _ => rfl

/-- What an operator gives is disguised as its operands are. -/
theorem apply_under (op : Operator)
    (h : r.Faithful ∨ (op ≠ .is ∧ op ≠ .isNot) ∨ ∃ v ∈ args, v.origin? = none) :
    op.apply (args.map (under r)) = under r <$> op.apply args := by
  unfold apply
  rw [assertInputs_under, rule_under r op h, map_bind]
  refine bind_congr fun _ => ?_
  rw [bind_map_left, map_bind]
  refine bind_congr fun v => ?_
  rw [Checks.assertOutput_map (isOfKind_under r), map_bind]
  rfl

end Operator

def Column.nameless (c : Column) : Column := { c with name := none }

namespace Value

def nameless (keep : Bool) : Value → Value
  | .column c origin => .column c.nameless (if keep then origin else none)
  | v => v

variable (keep : Bool)

theorem nameless_nameless (v : Value) : (v.nameless keep).nameless keep = v.nameless keep := by
  cases v with
  | scalar c => rfl
  | column c origin => cases keep <;> rfl
  | table t => rfl

def forgetting : Disguise where
  name _ := none
  origin o := if keep then o else none
  name_none := rfl
  origin_none := ite_self none
  name_shared _ _ := rfl

/-- To forget names is a disguise. -/
theorem under_forgetting : under (forgetting keep) = nameless keep :=
  funext fun v => by cases v <;> rfl

theorem cast_nameless (type : String) (v : Value) :
    (v.nameless keep).cast type = nameless keep <$> v.cast type := by
  rw [← under_forgetting, cast_under]

end Value

/-- What an operator gives does not depend on names. -/
theorem Operator.apply_nameless (keep : Bool) (op : Operator) {args : List Value}
    (h : keep = true ∨ (op ≠ .is ∧ op ≠ .isNot) ∨ ∃ v ∈ args, v.origin? = none) :
    op.apply (args.map (nameless keep)) = nameless keep <$> op.apply args := by
  rw [← under_forgetting]
  refine apply_under _ op (h.imp_left ?_)
  rintro rfl
  exact fun o p => ⟨o, p, rfl, rfl, rfl⟩

end TableQuery
