import Mathlib.Algebra.Ring.Int.Defs
import Mathlib.Data.List.Basic
import TableQuery.Proofs.JoinFaults

/-! The operands of operators. Their number is checked, and their kinds, though declared, are not:
whatever goes wrong with them is a fault of the data or of the result. Columns of whole numbers are
computed in machine arithmetic, which is exact only where the result fits. -/
namespace TableQuery

attribute [grind .] NoQueryFault.bind NoQueryFault.mapM noQueryFault_ok Num.noQueryFault_toFloat
  Num.noQueryFault_truncate Cell.noQueryFault_truth Data.noQueryFault_toBools
  Cell.noQueryFault_toInt

attribute [grind =] noQueryFault_error_iff

variable (op : Arith)

@[grind .] theorem noQueryFault_pure {α : Type} (a : α) : NoQueryFault (pure a : Except Fault α) :=
  noQueryFault_ok a

namespace Num

@[grind .] theorem noQueryFault_powFloats (x y : Float) : NoQueryFault (powFloats x y) := by
  grind [powFloats]

@[grind .] theorem noQueryFault_divideInts (m n : Int) : NoQueryFault (divideInts m n) := by
  unfold divideInts
  grind

@[grind .] theorem noQueryFault_exact (a b : Num) : NoQueryFault (exact op a b) := by
  cases op <;> grind [exact, exactInts, exactFloats]

@[grind .] theorem noQueryFault_machineInts (k : IntKind) (m n : Int) :
    NoQueryFault (machineInts k op m n) := by
  cases op <;> grind [machineInts]

@[grind .] theorem noQueryFault_machine (a b : Num) : NoQueryFault (machine op a b) := by
  unfold machine
  cases op <;> grind

end Num

@[grind .] theorem noQueryFault_fillTemplate (c : Cell) (cs : List Char) :
    NoQueryFault (fillTemplate c cs) := by
  fun_induction fillTemplate c cs <;> grind

namespace Cell

@[grind .] theorem noQueryFault_arithNums (a b : Cell) (m n : Num) :
    NoQueryFault (arithNums op a b m n) := by
  have h := Num.noQueryFault_exact op m n
  grind [arithNums]

@[grind .] theorem noQueryFault_arithMissing (a b : Cell) : NoQueryFault (arithMissing op a b) := by
  unfold arithMissing
  grind

@[grind .] theorem noQueryFault_repeatList (xs : List Cell) (n : Cell) :
    NoQueryFault (arith.repeatList op xs n) := by
  unfold arith.repeatList
  grind

/-- Arithmetic of cells fails for what the cells are. -/
@[grind .] theorem noQueryFault_arith (a b : Cell) : NoQueryFault (arith op a b) := by
  unfold arith
  grind

@[grind .] theorem noQueryFault_arithEntry (a b : Cell) : NoQueryFault (arithEntry op a b) := by
  grind [arithEntry]

end Cell

@[grind .] theorem NumType.noQueryFault_common (l r : NumOperand) : NoQueryFault (common l r) := by
  unfold common withOne
  grind

namespace Data

@[grind .] theorem noQueryFault_boolArith (ls rs : List Num) :
    NoQueryFault (boolArith op ls rs) := by
  cases op <;> grind [boolArith]

@[grind .] theorem noQueryFault_intArith (k : IntKind) (ls rs : List Num) :
    NoQueryFault (intArith k op ls rs) := by
  grind [intArith]

@[grind .] theorem noQueryFault_rawNumArith (size : Nat) (l r : NumOperand) :
    NoQueryFault (rawNumArith op size l r) := by
  unfold rawNumArith
  grind

@[grind .] theorem noQueryFault_numArith (size : Nat) (l r : NumOperand) :
    NoQueryFault (numArith op size l r) := by
  grind [numArith]

@[grind .] theorem noQueryFault_presentArith (byOne : Option Bool) (ls rs : List Cell) :
    NoQueryFault (presentArith op byOne ls rs) := by
  unfold presentArith
  refine .mapM (fun p => ?_) _
  grind

@[grind .] theorem noQueryFault_objectArith (byOne : Option Bool) (again : Bool)
    (ls rs : List Cell) : NoQueryFault (objectArith op byOne again ls rs) := by
  unfold objectArith
  split
  · exact noQueryFault_ok _
  · split
    · exact (noQueryFault_presentArith op byOne ls rs).bind fun _ => noQueryFault_ok _
    · simp
  · rename_i e _ hRun
    have h : NoQueryFault (.error e : Except Fault (List Cell)) := by
      rw [← hRun]
      exact .mapM (fun _ => Cell.noQueryFault_arithEntry op _ _) _
    exact noQueryFault_error_iff.2 (noQueryFault_error_iff.1 h)

@[grind .] theorem noQueryFault_plainArith (raw : Bool) (self : Data) (other : Operand)
    (selfLeft : Bool) : NoQueryFault (plainArith op raw self other selfLeft) := by
  unfold plainArith
  dsimp only
  repeat' split
  all_goals simp [noQueryFault_rawNumArith, noQueryFault_numArith, noQueryFault_objectArith]

@[grind .] theorem noQueryFault_textResult (cells : List (Option Cell)) :
    NoQueryFault (textResult cells) := by
  unfold textResult
  grind

@[grind .] theorem noQueryFault_textArith (self : List (Option String)) (other : Operand)
    (selfLeft : Bool) : NoQueryFault (textArith op self other selfLeft) := by
  unfold textArith
  dsimp only
  split
  · split <;>
      exact .bind (by simp) fun _ => .bind (.mapM (fun _ => by grind) _) noQueryFault_textResult
  · exact .bind (by simp) fun _ => .bind (.mapM (fun _ => by grind) _) noQueryFault_textResult

@[grind .] theorem noQueryFault_markedArith (self : Data) (other : Operand) (selfLeft : Bool) :
    NoQueryFault (markedArith op self other selfLeft) := by
  have hMissing : NoQueryFault (markedWithMissing op self) := by
    unfold markedWithMissing
    cases self <;> cases op <;> simp
  unfold markedArith
  dsimp only
  split
  · exact hMissing.bind fun _ => noQueryFault_ok _
  · exact (noQueryFault_textArith op _ _ _).bind fun _ => noQueryFault_ok _
  · exact (noQueryFault_plainArith op _ _ _ _).bind fun _ => noQueryFault_ok _

/-- Arithmetic of columns fails for what their entries are. -/
@[grind .] theorem noQueryFault_arith (l r : Operand) : NoQueryFault (arith op l r) := by
  unfold arith arith.dispatch
  repeat' split
  all_goals simp [noQueryFault_textArith, noQueryFault_markedArith, noQueryFault_plainArith]

end Data

open Data

@[grind .] theorem Table.noQueryFault_mapData {f : Data → Except Fault Data}
    (hf : ∀ d, NoQueryFault (f d)) (t : Table) : NoQueryFault (t.mapData f) := by
  unfold mapData
  grind

@[grind .] theorem Column.noQueryFault_map {f : Data → Except Fault Data}
    (hf : ∀ d, NoQueryFault (f d)) (c : Column) : NoQueryFault (c.map f) := by
  unfold map
  grind

theorem Table.noQueryFault_zipData {f : Data → Data → Except Fault Data}
    (hf : ∀ d e, NoQueryFault (f d e)) (s t : Table) : NoQueryFault (s.zipData f t) := by
  unfold zipData
  grind

/-- Arithmetic is never refused for the kinds of its operands. -/
theorem Value.noQueryFault_arith (a b : Value) : NoQueryFault (a.arith op b) := by
  have hZip := Table.noQueryFault_zipData fun d e => Data.noQueryFault_arith op (.data d) (.data e)
  unfold arith Column.arith Column.arithScalar
  grind

theorem Reading.noQueryFault_of (c : Cell) : NoQueryFault (of c) := by
  unfold of
  grind

/-- Entries that do not read as numbers are a fault of the data. -/
theorem Data.noQueryFault_toNumeric (d : Data) : NoQueryFault d.toNumeric := by
  have h := Reading.noQueryFault_of
  unfold toNumeric
  grind

theorem Value.noQueryFault_toNumeric (v : Value) : NoQueryFault v.toNumeric := by
  have h := Reading.noQueryFault_of
  unfold toNumeric
  grind [Data.noQueryFault_toNumeric]

namespace Text.Pattern

@[grind .] theorem noQueryFault_readEscape (c : Char) (cs : List Char) :
    NoQueryFault (readEscape c cs) := by
  unfold readEscape
  grind

@[grind .] theorem noQueryFault_readMember (cs : List Char) : NoQueryFault (readMember cs) := by
  unfold readMember
  grind

@[grind .] theorem noQueryFault_readMembers (fuel : Nat) (isFirst : Bool) (cs : List Char) :
    NoQueryFault (readMembers fuel isFirst cs) := by
  fun_induction readMembers fuel isFirst cs <;> grind

@[grind .] theorem noQueryFault_readRepeated (a : Atom) (cs : List Char) :
    NoQueryFault (readRepeated a cs) := by
  unfold readRepeated
  grind

@[grind .] theorem noQueryFault_readPlainAtom (cs : List Char) :
    NoQueryFault (readPlainAtom cs) := by
  unfold readPlainAtom
  grind

@[grind .] theorem noQueryFault_readGroupRole (cs : List Char) :
    NoQueryFault (readGroupRole cs) := by
  unfold readGroupRole
  grind

/-- By induction on the fuel, since the three readers call one another. -/
theorem noQueryFault_readEither (fuel : Nat) : (∀ cs, NoQueryFault (readEither fuel cs)) ∧
    (∀ done cs, NoQueryFault (readBoth fuel done cs)) ∧ ∀ cs, NoQueryFault (readGroup fuel cs) := by
  induction fuel with
  | zero =>
    exact ⟨fun _ => by simp [readEither], fun _ _ => by simp [readBoth],
      fun _ => by simp [readGroup]⟩
  | succ fuel ih =>
    refine ⟨fun cs => ?_, fun done cs => ?_, fun cs => ?_⟩
    · grind [readEither]
    · rw [readBoth.eq_def]
      grind
    · grind [readGroup]

/-- A pattern that cannot be read is a fault of its text. -/
theorem noQueryFault_read (s : String) : NoQueryFault (read s) := by
  unfold read
  exact ((noQueryFault_readEither _).1 _).bind fun _ => by grind

end Text.Pattern

theorem Value.noQueryFault_isOfKind (v : Value) (kind : ValueKind) :
    NoQueryFault (v.isOfKind kind) := by
  unfold isOfKind isBoolean isNumeric isTextual
  grind

/-- The operands were accepted, whatever else went wrong. -/
def Accepted {α : Type} (x : Except Fault α) : Prop := ∀ name, x ≠ .error (.query (.badInputs name))

theorem NoQueryFault.accepted {α : Type} {x : Except Fault α} (h : NoQueryFault x) : Accepted x :=
  fun _ => h _

/-- Steps that accept their operands make a run that does. -/
theorem Accepted.bind {α β : Type} {x : Except Fault α} {f : α → Except Fault β} (hx : Accepted x)
    (hf : ∀ a, Accepted (f a)) : Accepted (x >>= f) := by
  cases x with
  | error e => exact fun name h => hx name (by cases h; rfl)
  | ok a => exact hf a

theorem Checks.accepted_assertOutput (c : Checks) (v : Value) : Accepted (c.assertOutput v) := by
  unfold assertOutput
  split
  · rename_i check _
    cases check with
    | output kind =>
      refine (Value.noQueryFault_isOfKind v kind).accepted.bind fun ok name h => ?_
      cases ok <;> cases h
    | _ => exact fun _ h => by cases h
  · exact fun _ h => by cases h

namespace Operator

def operands (op : Operator) : Nat := if .oneInput ∈ op.checks then 1 else 2

variable {op : Operator} {kind : ValueKind}

theorem accepted_conjoin (a b : Value) : Accepted (conjoin a b) ∧ Accepted (disjoin a b) := by
  have hTruth : NoQueryFault a.truth := by cases a <;> grind [Value.truth]
  have hCombine (k : Arith) : NoQueryFault (combine k a b) := by
    have h := Value.noQueryFault_arith k a b
    unfold combine
    grind
  constructor <;> refine NoQueryFault.accepted ?_
  · unfold conjoin
    grind
  · unfold disjoin
    grind

theorem accepted_numericResult (k : Arith) (a b : Value) :
    Accepted (numericResult op (a.arith k b)) := by
  refine (Value.noQueryFault_arith k a b).accepted.bind fun outcome => ?_
  cases outcome with
  | real v => exact (Value.noQueryFault_toNumeric v).accepted
  | imaginary => exact fun _ h => by cases h

theorem noQueryFault_matching (a b : Value) : NoQueryFault (matching a b) := by
  have hPattern (s p : Cell) : NoQueryFault (matchesPattern s p) := by
    unfold matchesPattern
    split
    · exact (Text.Pattern.noQueryFault_read _).bind fun q => by grind
    · grind
  unfold matching
  grind

theorem noQueryFault_onTexts (f : String → String) (a : Value) : NoQueryFault (onTexts f a) := by
  unfold onTexts
  grind

/-- No rule rejects operands of the right number. -/
theorem accepted_rule (h : .inputs kind ∈ op.checks) {args : List Value}
    (hLength : args.length = op.operands) : Accepted (op.rule args) := by
  cases op with
  | lower | upper =>
    obtain ⟨a, rfl⟩ := List.length_eq_one_iff.1 hLength
    exact (noQueryFault_onTexts _ a).accepted
  | not | member | compare | is | isNot | minus => simp [checks] at h
  | and =>
    obtain ⟨a, b, rfl⟩ := List.length_eq_two.1 hLength
    exact (accepted_conjoin a b).1
  | or =>
    obtain ⟨a, b, rfl⟩ := List.length_eq_two.1 hLength
    exact (accepted_conjoin a b).2
  | plus | times | divide | modulo | power =>
    obtain ⟨a, b, rfl⟩ := List.length_eq_two.1 hLength
    exact accepted_numericResult _ a b
  | concat =>
    obtain ⟨a, b, rfl⟩ := List.length_eq_two.1 hLength
    refine (Value.noQueryFault_arith .add a b).accepted.bind fun outcome name h => ?_
    cases outcome <;> cases h
  | like =>
    obtain ⟨a, b, rfl⟩ := List.length_eq_two.1 hLength
    exact (noQueryFault_matching a b).accepted

/-- The kinds that are declared for the operands of an operator are not looked at, only the number
of operands is. -/
theorem inputs_rejected_iff (h : .inputs kind ∈ op.checks) (args : List Value) :
    op.apply args = .error op.badInputs ↔ args.length ≠ op.operands := by
  have hInputs : op.assertInputs args =
      if args.length == op.operands then .ok () else .error op.badInputs := by
    cases op with
    | not | member | compare | is | isNot | minus => simp [checks] at h
    | _ => rfl
  unfold apply
  rw [hInputs]
  by_cases hLength : args.length = op.operands
  · rw [if_pos (beq_iff_eq.2 hLength)]
    refine iff_of_false ((accepted_rule h hLength).bind (fun v => ?_) _) (not_not.2 hLength)
    exact (Checks.accepted_assertOutput _ v).bind fun _ _ h => by cases h
  · rw [if_neg (mt beq_iff_eq.1 hLength)]
    exact iff_of_true rfl hLength

/-- A conjunction declares truth values as its inputs. One operand is rejected, and two numbers are
not. -/
theorem numbers_rejected_by_count : .inputs .boolean ∈ and.checks ∧
    and.apply [.scalar (.int 2)] = .error and.badInputs ∧
    and.apply [.scalar (.int 2), .scalar (.int 0)] ≠ .error and.badInputs := by
  have hDeclares : .inputs .boolean ∈ and.checks := by decide
  refine ⟨hDeclares, (inputs_rejected_iff hDeclares _).2 (by decide), fun hRejected => ?_⟩
  exact (inputs_rejected_iff hDeclares _).1 hRejected rfl

/-- Two is no truth value, and a conjunction takes it for one. -/
theorem number_conjoined : (Value.scalar (.int 2)).isBoolean = .ok false ∧
    and.apply [.scalar (.int 2), .scalar (.int 0)] = .ok (.scalar (.int 0)) :=
  ⟨rfl, rfl⟩

/-- What whole numbers of any size come to. -/
def exactResult? : Operator → List Int → Option Int
  | .plus, [a, b] => some (a + b)
  | .minus, [a, b] => some (a - b)
  | .minus, [a] => some (-a)
  | .times, [a, b] => some (a * b)
  | _, _ => none

end Operator

/-- A column of whole numbers with one row. -/
def Value.oneRow (n : Int) : Value := .ofColumn (.ofData (.ints .int64 [n]) none)

/-- A number is kept exactly if it is one of 64 bits. -/
theorem IntKind.wrap_eq_self_iff (n : Int) :
    IntKind.int64.wrap n = n ↔ -2 ^ 63 ≤ n ∧ n < 2 ^ 63 := by
  change Int.bmod n (2 ^ 64) = n ↔ _
  rw [Int.bmod_eq_iff] <;> omega

namespace Operator

open Value

/-- Scalars come to the exact number. Columns do so exactly if it is one of 64 bits, and else to
another one. -/
theorem column_number_exact_iff {op : Operator} {args : List Int} {n : Int}
    (h : op.exactResult? args = some n) :
    op.apply (args.map fun a => .scalar (.int a)) = .ok (.scalar (.int n)) ∧
    ∃ m, op.apply (args.map oneRow) = .ok (oneRow m) ∧ (m = n ↔ -2 ^ 63 ≤ n ∧ n < 2 ^ 63) := by
  have hBoth : op.apply (args.map fun a => .scalar (.int a)) = .ok (.scalar (.int n)) ∧
      op.apply (args.map oneRow) = .ok (oneRow (IntKind.int64.wrap n)) := by
    unfold exactResult? at h
    split at h <;> cases h <;> exact ⟨rfl, rfl⟩
  exact ⟨hBoth.1, _, hBoth.2, IntKind.wrap_eq_self_iff n⟩

/-- The least number of 64 bits is still exact. -/
theorem column_product_exact : times.exactResult? [2 ^ 31, -2 ^ 32] = some (-2 ^ 63) ∧
    ∃ m, times.apply [oneRow (2 ^ 31), oneRow (-2 ^ 32)] = .ok (oneRow m) ∧
      (m = -2 ^ 63 ↔ (-2 : Int) ^ 63 ≤ -2 ^ 63 ∧ (-2 : Int) ^ 63 < 2 ^ 63) :=
  ⟨rfl, (column_number_exact_iff
    (show times.exactResult? [2 ^ 31, -2 ^ 32] = some (-2 ^ 63) from rfl)).2⟩

/-- The sum of the greatest number of a column and one is its least number. -/
theorem column_sum_wraps : plus.apply [oneRow (2 ^ 63 - 1), oneRow 1] = .ok (oneRow (-2 ^ 63)) ∧
    plus.apply [.scalar (.int (2 ^ 63 - 1)), .scalar (.int 1)] = .ok (.scalar (.int (2 ^ 63))) :=
  ⟨rfl, rfl⟩

end Operator

end TableQuery
