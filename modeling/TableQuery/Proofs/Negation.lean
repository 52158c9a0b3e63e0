import TableQuery.Proofs.Conditions

/-! Negation. Comparisons and other tests have one truth value for each row, so a condition, its
negation and the rows without a truth value divide the table. -/
namespace TableQuery

open List Work Operator Data Value NumOperand

namespace Data

theorem length_nums {d : Data} {s : NumOperand} (h : ofData? d = some s) (size : Nat) :
    (s.nums size).length = d.length := by
  cases d <;> cases h <;> simp [nums, length]

theorem length_oneOf {c : Cell} {o : NumOperand} (h : oneOf? c = some o) (size : Nat) :
    (o.nums size).length = size := by
  obtain ⟨n, -, rfl⟩ := Option.map_eq_some_iff.1 h
  simp [nums]

@[simp] theorem length_hidden (d : Data) : d.hidden.length = d.length := by
  cases d <;> simp [hidden, length]

@[simp] theorem length_marks (d : Data) : d.marks.length = d.length := by
  cases d <;> simp [marks, length]

@[simp] theorem length_spreadCells (d : Data) : d.spreadCells.length = d.length := by
  unfold spreadCells
  split
  · split
    · simp [length]
    · simp
  · simp

section Lengths

variable {op : Comparison} {size : Nat} {bs : List Bool}
variable {ls rs : List Cell} {self e : Data} {other : Operand}

theorem length_numCompare {l r : NumOperand} (hl : (l.nums size).length = size)
    (hr : (r.nums size).length = size) (h : numCompare op size l r = .ok bs) :
    bs.length = size := by
  unfold numCompare at h
  dsimp only at h
  split_ifs at h
  cases h
  rw [length_zipWith, hl, hr, Nat.min_self]

theorem length_unequalAll (h : unequalAll op size = .ok bs) : bs.length = size := by
  unfold unequalAll at h
  split at h
  · cases h
    simp
  · cases h

theorem length_entryCompare (hl : ls.length = size) (hr : rs.length = size)
    (h : entryCompare op ls rs = .ok bs) : bs.length = size := by
  rw [length_of_mapM_eq_ok h, length_zip, hl, hr, Nat.min_self]

theorem length_presentCompare (hl : ls.length = size) (hr : rs.length = size)
    (h : presentCompare op ls rs = .ok bs) : bs.length = size := by
  rw [length_of_mapM_eq_ok h, length_zip, hl, hr, Nat.min_self]

theorem length_plainCompare (h : plainCompare op self other = .ok bs) :
    bs.length = self.length := by
  unfold plainCompare at h
  dsimp only at h
  split at h
  · rename_i d
    split at h
    · cases h
    · rename_i hLength
      have hSize : d.length = self.length := by simpa using hLength
      split at h
      · rename_i hs ho
        exact length_numCompare (length_nums hs _) ((length_nums ho _).trans hSize) h
      · exact length_entryCompare (length_freeCells _) (by rw [length_freeCells, hSize]) h
      · exact length_presentCompare (length_freeCells _) (by rw [length_freeCells, hSize]) h
  · split at h
    · cases h
      simp
    · split at h
      · rename_i hs ho
        exact length_numCompare (length_nums hs _) (length_oneOf ho _) h
      · exact length_unequalAll h
      · split at h
        · exact length_unequalAll h
        · exact length_presentCompare (length_freeCells _) length_replicate h

theorem length_hiddenCompare (h : hiddenCompare op self other = .ok bs) :
    bs.length = self.length ∧ ∀ d, other = .data d → d.length = self.length := by
  unfold hiddenCompare at h
  dsimp only at h
  split at h
  · rename_i d
    split at h
    · cases h
    · rename_i hLength
      have hSize : d.length = self.length := by simpa using hLength
      refine ⟨?_, fun e he => Operand.data.inj he ▸ hSize⟩
      split at h
      · rename_i hs ho
        exact length_numCompare (length_nums hs _) ((length_nums ho _).trans hSize) h
      · exact length_entryCompare (length_freeCells _) (by rw [length_freeCells, hSize]) h
  · refine ⟨?_, nofun⟩
    split at h
    · rename_i hs ho
      exact length_numCompare (length_nums hs _) (length_oneOf ho _) h
    · split at h
      · split at h
        · rename_i hEmpty
          cases h
          simpa using (beq_iff_eq.1 hEmpty).symm
        · exact length_unequalAll h
      · exact length_unequalAll h

theorem length_markEntries {α : Type} (xs : List α) (ms : List Bool) :
    (markEntries xs ms).length = min xs.length ms.length := length_zipWith

theorem length_markedCompare (h : markedCompare op self other = .ok e) :
    e.length = self.length := by
  unfold markedCompare at h
  split at h
  · cases h
    simp [length]
  · obtain ⟨answers, hAnswers, h⟩ := bind_eq_ok h
    cases h
    have hLength := (length_hiddenCompare hAnswers).1
    rw [length_hidden] at hLength
    simp [length, length_markEntries, hLength]
  · rename_i d
    obtain ⟨answers, hAnswers, h⟩ := bind_eq_ok h
    cases h
    obtain ⟨hLength, hOther⟩ := length_hiddenCompare hAnswers
    have hSize : d.length = self.length := by simpa using hOther _ rfl
    have hMarks : (if d.isMarked then d.marks else d.missing).length = self.length := by
      split <;> simp [hSize]
    rw [length_hidden] at hLength
    simp [length, length_markEntries, hLength, hMarks]

theorem length_textCompare {ts : List (Option String)}
    (h : textCompare op ts other = .ok e) : e.length = ts.length := by
  unfold textCompare at h
  dsimp only at h
  split at h
  · rename_i d
    split at h
    · cases h
    · rename_i hLength
      replace hLength : d.length = ts.length := by simpa using hLength
      obtain ⟨_, ⟨⟩, h⟩ := bind_eq_ok h
      obtain ⟨entries, hEntries, h⟩ := bind_eq_ok h
      cases h
      change entries.length = ts.length
      simp [length_of_mapM_eq_ok hEntries, hLength]
  · obtain ⟨_, ⟨⟩, h⟩ := bind_eq_ok h
    obtain ⟨entries, hEntries, h⟩ := bind_eq_ok h
    cases h
    change entries.length = ts.length
    simp [length_of_mapM_eq_ok hEntries]

/-- A comparison has one answer for each entry of the data on its left. -/
theorem length_compares {d : Data} (h : compares op (.data d) other = .ok e) :
    e.length = d.length := by
  change compares.dispatch op d (compares.spread other) = .ok e at h
  unfold compares.dispatch at h
  split at h
  · exact length_textCompare h
  · split at h
    · cases h
    · rename_i hLength
      replace hLength := by simpa using hLength
      split at h
      · exact length_markedCompare h
      · split at h
        · exact (length_markedCompare h).trans hLength.symm
        · split at h
          · exact (length_textCompare h).trans hLength.symm
          · obtain ⟨bs, hbs, h⟩ := bind_eq_ok h
            cases h
            exact length_plainCompare hbs
  · split at h
    · exact length_markedCompare h
    · obtain ⟨bs, hbs, h⟩ := bind_eq_ok h
      cases h
      exact length_plainCompare hbs

end Lengths

@[simp] theorem length_toArray (d : Data) : d.toArray.length = d.length := by
  unfold toArray
  split
  · split <;> simp [length]
  · simp [length]
  · split
    · simp [length, freeCells]
    · simp [length]
  · simp [length, freeCells, cells]
  · rfl

theorem length_plainMembers (self values : Data) :
    (plainMembers self values).length = self.length := by
  unfold plainMembers
  split
  · rename_i hs _
    rw [length_map, length_nums hs]
  · rw [length_map, length_freeCells]

@[simp] theorem length_members (self values : Data) :
    (self.members values).length = self.length := by
  unfold members
  split
  · change (zipWith _ _ _).length = self.length
    rw [length_zipWith, length_plainMembers, length_hidden, length_marks, Nat.min_self]
  · change (plainMembers self.toArray values.toArray).length = self.length
    rw [length_plainMembers, length_toArray]

theorem length_invert {d e : Data} (h : d.invert = .ok e) : e.length = d.length := by
  unfold invert at h
  split at h
  · cases h
    rfl
  · cases d with
    | objects xs =>
      obtain ⟨cells, hCells, h⟩ := bind_eq_ok h
      cases h
      exact length_of_mapM_eq_ok hCells
    | floats _ | nullableFloats _ | texts _ => cases h
    | ints _ _ | bools _ | nullableInts _ _ | nullableBools _ =>
      cases h
      simp [length]

end Data

/-- A property of columns that does not depend on the entries, only on their number. -/
def Column.Formal (P : Column → Prop) : Prop :=
  ∀ c name d, P c → d.length = c.length → P ⟨c.labels, name, d⟩

namespace Value

def IfColumn (P : Column → Prop) : Value → Prop
  | .column c _ => P c
  | _ => True

section Formal

variable {P : Column → Prop} (hP : Column.Formal P) {a b v : Value}
include hP

theorem ifColumn_compares {op : Comparison} (ha : a.IfColumn P) (hb : b.IfColumn P)
    (h : compares op a b = .ok v) : v.IfColumn P := by
  have hScalar {op : Comparison} {x y : Column} {c : Cell} (hx : P x)
      (h : x.comparesScalar op c = .ok y) : P y := by
    obtain ⟨d, hd, h⟩ := bind_eq_ok h
    cases h
    exact hP x x.name d hx (length_compares hd)
  unfold compares at h
  split at h
  · obtain ⟨c, -, h⟩ := bind_eq_ok h
    cases h
    trivial
  · rename_i x _ _ _
    obtain ⟨y, hy, h⟩ := bind_eq_ok h
    cases h
    unfold Column.compares at hy
    split at hy
    · obtain ⟨d, hd, hy⟩ := bind_eq_ok hy
      cases hy
      exact hP x _ d ha (length_compares hd)
    · cases hy
  · obtain ⟨y, hy, h⟩ := bind_eq_ok h
    cases h
    exact hScalar ha hy
  · obtain ⟨y, hy, h⟩ := bind_eq_ok h
    cases h
    exact hScalar hb hy
  · split at h
    · obtain ⟨t, -, h⟩ := bind_eq_ok h
      cases h
      trivial
    · cases h
  · obtain ⟨t, -, h⟩ := bind_eq_ok h
    cases h
    trivial
  · obtain ⟨t, -, h⟩ := bind_eq_ok h
    cases h
    trivial
  · cases h
  · cases h

theorem ifColumn_isMissing (ha : a.IfColumn P) : a.isMissing.IfColumn P := by
  cases a with
  | column c origin => exact hP c c.name _ ha (length_missing c.data)
  | _ => trivial

theorem ifColumn_invert (ha : a.IfColumn P) (h : a.invert = .ok v) : v.IfColumn P := by
  cases a with
  | column c origin =>
    obtain ⟨y, hy, h⟩ := bind_eq_ok h
    obtain ⟨d, hd, hy⟩ := bind_eq_ok hy
    cases hy
    cases h
    exact hP c c.name d ha (length_invert hd)
  | scalar c =>
    obtain ⟨y, -, h⟩ := bind_eq_ok h
    cases h
    trivial
  | table t =>
    obtain ⟨y, -, h⟩ := bind_eq_ok h
    cases h
    trivial

end Formal

end Value

namespace Operator

def isTesting : Operator → Bool
  | .compare _ | .is | .isNot | .like | .member | .not => true
  | _ => false

/-- What an operator gives is what its rule gives. -/
theorem rule_of_apply {o : Operator} {args : List Value} {v : Value} (h : o.apply args = .ok v) :
    o.rule args = .ok v := by
  obtain ⟨_, -, h⟩ := bind_eq_ok h
  obtain ⟨r, hRule, h⟩ := bind_eq_ok h
  obtain ⟨_, -, h⟩ := bind_eq_ok h
  cases h
  exact hRule

section Formal

variable {P : Column → Prop} (hP : Column.Formal P) {a b v : Value}
variable {o : Operator}
include hP

theorem ifColumn_opposite (ha : a.IfColumn P) (h : opposite a = .ok v) : v.IfColumn P := by
  unfold opposite at h
  split at h
  · exact ifColumn_invert hP ha h
  · obtain ⟨t, -, h⟩ := bind_eq_ok h
    cases h
    trivial

theorem ifColumn_isTest (ha : a.IfColumn P) (hb : b.IfColumn P) (h : isTest a b = .ok v) :
    v.IfColumn P := by
  unfold isTest at h
  split at h
  case h_9 =>
    cases h
    trivial
  case h_1 | h_2 =>
    cases h
    exact ifColumn_isMissing hP hb
  case h_3 | h_4 =>
    cases h
    exact ifColumn_isMissing hP ha
  all_goals exact ifColumn_compares hP ha hb h

theorem ifColumn_matching (ha : a.IfColumn P) (h : matching a b = .ok v) : v.IfColumn P := by
  unfold matching at h
  split at h
  · obtain ⟨t, -, h⟩ := bind_eq_ok h
    cases h
    trivial
  · rename_i c _
    split at h
    · cases h
      exact ha
    · obtain ⟨answers, hAnswers, h⟩ := bind_eq_ok h
      cases h
      refine hP c c.name _ ha ?_
      change answers.length = c.length
      rw [length_of_mapM_eq_ok hAnswers, length_cells]
      rfl
  · cases h

theorem ifColumn_membership (ha : a.IfColumn P) (h : membership a b = .ok v) : v.IfColumn P := by
  unfold membership at h
  split at h
  case h_1 =>
    rename_i c _ d _
    cases h
    exact hP c c.name _ ha (length_members c.data d.data)
  case h_4 | h_11 =>
    obtain ⟨t, -, h⟩ := bind_eq_ok h
    cases h
    trivial
  case h_9 | h_10 | h_12 =>
    cases h
    trivial
  all_goals cases h

/-- A test of columns with a formal property gives a column with that property. -/
theorem ifColumn_test (ho : o.isTesting = true) (ha : a.IfColumn P) (hb : b.IfColumn P)
    (h : o.rule [a, b] = .ok v) : v.IfColumn P := by
  cases o with
  | compare op => exact ifColumn_compares hP ha hb h
  | is => exact ifColumn_isTest hP ha hb h
  | isNot =>
    obtain ⟨t, ht, h⟩ := bind_eq_ok h
    exact ifColumn_opposite hP (ifColumn_isTest hP ha hb ht) h
  | like => exact ifColumn_matching hP ha h
  | member => exact ifColumn_membership hP ha h
  | not => cases h
  | _ => cases ho

theorem ifColumn_test_one (ho : o.isTesting = true) (ha : a.IfColumn P) (h : o.rule [a] = .ok v) :
    v.IfColumn P := by
  cases o with
  | not => exact ifColumn_opposite hP ha h
  | compare | is | isNot | like | member => cases h
  | _ => cases ho

end Formal

end Operator

/-- Expressions made of columns and constants by some operators. The list of an IN test may have any
constants. -/
inductive Sql.Node.IsMadeBy (allowed : Operator → Bool) : Sql.Node → Prop where
  | column (name : String) (tag : Tag) : IsMadeBy allowed (.name [name] tag)
  | constant {v : Cell} (h : v.isDistinguishable = true) (tag : Tag) :
      IsMadeBy allowed (.constant v tag)
  | null (tag : Tag) : IsMadeBy allowed (.null tag)
  | unary {form : OpForm} {op : String} {o : Operator} {x : Node} {tag : Tag} :
      Operator.ofName (Text.lower op) = .ok o → allowed o = true → IsMadeBy allowed x →
      IsMadeBy allowed (.operation form op [x] tag)
  | binary {form : OpForm} {op : String} {o : Operator} {x y : Node} {tag : Tag} :
      Operator.ofName (Text.lower op) = .ok o → allowed o = true → IsMadeBy allowed x →
        IsMadeBy allowed y →
      IsMadeBy allowed (.operation form op [x, y] tag)
  | isIn {form : OpForm} {op : String} {x : Node} {items : List Node} {tag listTag : Tag} :
      Operator.ofName (Text.lower op) = .ok .member → allowed .member = true → IsMadeBy allowed x →
      Node.areFlat items = true → IsMadeBy allowed
        (.operation form op [x, .tuple items listTag] tag)

/-- Expressions made of columns and constants by comparisons, IN, LIKE, IS and NOT. -/
def Sql.Node.IsTest (n : Node) : Prop := n.IsMadeBy Operator.isTesting

namespace Query

open Sql Work

variable {allowed : Operator → Bool} {n : Node} {w w' : Workspace} {id : Nat} {v : Value}

theorem isBare_of_isMadeBy (h : n.IsMadeBy allowed) : n.IsBare := by
  induction h with
  | column name tag => exact ⟨rfl, by simp [Node.references]⟩
  | constant _ _ => exact ⟨rfl, nofun⟩
  | null _ => exact ⟨rfl, nofun⟩
  | unary _ _ _ ih =>
    refine
      ⟨by simp [Node.isFlat, Node.areFlat, ih.flat], fun parts hParts => ih.references parts ?_⟩
    simpa [Node.references, Node.referencesOf] using hParts
  | binary _ _ _ _ ihx ihy =>
    refine ⟨by simp [Node.isFlat, Node.areFlat, ihx.flat, ihy.flat], fun parts hParts => ?_⟩
    simp only [Node.references, Node.referencesOf, append_nil, mem_append] at hParts
    exact hParts.elim (ihx.references parts) (ihy.references parts)
  | isIn _ _ _ hItems ih =>
    refine ⟨by simp [Node.isFlat, Node.areFlat, ih.flat, hItems],
      fun parts hParts => ih.references parts ?_⟩
    simpa [Node.references, Node.referencesOf] using hParts

/-- A formal property that some operators keep is one of every expression made by them. -/
theorem ifColumn_of_isMadeBy (hw : w.KeepsOperators) {P : Column → Prop} (hP : Column.Formal P)
    (hColumns : ∀ name shown, ∀ d ∈ (w.tableAt id).named name, P ⟨(w.tableAt id).labels, shown, d⟩)
    (hUnary : ∀ o a v, allowed o = true → a.IfColumn P → o.rule [a] = .ok v → v.IfColumn P)
    (hBinary : ∀ o a b v, allowed o = true → a.IfColumn P → b.IfColumn P → o.rule [a, b] = .ok v →
      v.IfColumn P) (hn : n.IsMadeBy allowed) (h : run (evalExpr (.frame id) n) w = (.ok v, w')) :
    v.IfColumn P := by
  induction hn generalizing v w' with
  | column name tag =>
    rw [evalExpr, run_columnOf_bare] at h
    split at h
    · unfold columnsNamed at h
      rw [run_bind_ok (run_frame id w)] at h
      split at h
      · rename_i d hNamed
        have hMem : d ∈ (w.tableAt id).named name := by
          rw [Workspace.tableAt, hNamed]
          exact mem_singleton_self d
        cases h
        exact hColumns name _ d hMem
      · cases h
        trivial
    · cases h
  | constant hv tag =>
    cases h
    rename_i v
    cases v <;> trivial
  | null tag =>
    cases h
    trivial
  | unary ho hAllowed hx ih =>
    obtain ⟨a, ha, hCall⟩ := exists_of_run_one (isBare_of_isMadeBy hx) h
    rw [run_call_operator hw ho] at hCall
    exact hUnary _ a v hAllowed (ih ha) (rule_of_apply (congrArg Prod.fst hCall))
  | binary ho hAllowed hx hy ihx ihy =>
    obtain ⟨a, b, ha, hb, hCall⟩ :=
      exists_of_run_two (isBare_of_isMadeBy hx) (isBare_of_isMadeBy hy) h
    rw [run_call_operator hw ho] at hCall
    exact hBinary _ a b v hAllowed (ihx ha) (ihy hb) (rule_of_apply (congrArg Prod.fst hCall))
  | @isIn form op x items tag listTag ho _ hx hItems ih =>
    have hList : Node.IsBare (.tuple items listTag) := ⟨hItems, fun _ h => absurd h not_mem_nil⟩
    obtain ⟨a, b, ha, hb, hCall⟩ := exists_of_run_two (isBare_of_isMadeBy hx) hList h
    rw [run_call_operator hw ho] at hCall
    exact ifColumn_membership hP (ih ha) (rule_of_apply (congrArg Prod.fst hCall))

theorem formal_length (height : Nat) : Column.Formal (·.length = height) :=
  fun _ _ _ hc hd => hd.trans hc

/-- A test that is a column has one entry for each row of the table. -/
theorem length_of_isTest (hw : w.KeepsOperators) (ht : (w.tableAt id).Rectangular) (hn : n.IsTest)
    (h : run (evalExpr (.frame id) n) w = (.ok v, w')) :
    v.IfColumn (·.length = (w.tableAt id).height) :=
  ifColumn_of_isMadeBy hw (formal_length _) (fun _ _ _ hd => ht.length_of_mem_named hd)
    (fun _ _ _ ho ha hRule => ifColumn_test_one (formal_length _) ho ha hRule)
    (fun _ _ _ _ ho ha hb hRule => ifColumn_test (formal_length _) ho ha hb hRule) hn h

end Query

namespace Data

variable {ε α β : Type}

theorem exists_mapM_ok {f : α → Except ε β} {xs : List α} (h : ∀ x ∈ xs, ∃ y, f x = .ok y) :
    ∃ ys, xs.mapM f = .ok ys := by
  induction xs with
  | nil => exact ⟨[], rfl⟩
  | cons x rest ih =>
    obtain ⟨y, hy⟩ := h x mem_cons_self
    obtain ⟨ys, hys⟩ := ih fun x hx => h x (mem_cons_of_mem _ hx)
    exact ⟨y :: ys, by rw [mapM_cons, hy, hys]; rfl⟩

theorem exists_bind_ok {x : Except ε α} {g : α → β} {P : β → Prop} (hx : ∃ a, x = .ok a)
    (hP : ∀ a, P (g a)) : ∃ b, (do return g (← x)) = Except.ok b ∧ P b := by
  obtain ⟨a, rfl⟩ := hx
  exact ⟨g a, rfl, hP a⟩

/-- A column can be compared with a truth value, whatever it holds. -/
theorem exists_compares_bool (d : Data) (b : Bool) :
    ∃ e, compares .eq (.data d) (.scalar (.bool b)) = .ok e ∧ e.OfTruths := by
  cases d with
  | ints _ _ | floats _ | bools _ => exact ⟨_, rfl, Or.inl rfl⟩
  | nullableInts _ _ | nullableFloats _ | nullableBools _ => exact ⟨_, rfl, Or.inr rfl⟩
  | objects xs =>
    have hAll : ∃ bs, presentCompare .eq xs (replicate xs.length (.bool b)) = .ok bs := by
      refine exists_mapM_ok fun p hp => ?_
      obtain ⟨a, c⟩ := p
      obtain rfl := eq_of_mem_replicate (of_mem_zip hp).2
      dsimp only
      split
      · exact ⟨_, rfl⟩
      · rename_i hPresent
        rw [Bool.not_eq_true, Bool.or_eq_false_iff] at hPresent
        cases a with
        | null | na => cases hPresent.1
        | _ => exact ⟨_, rfl⟩
    obtain ⟨bs, hbs⟩ := hAll
    refine exists_bind_ok ⟨bs, ?_⟩ fun _ => Or.inl rfl
    unfold plainCompare
    simp only [Cell.isMissing, Bool.false_eq_true, if_false, ofData?, freeCells, cells, length, hbs]
  | texts ts =>
    refine exists_bind_ok (exists_mapM_ok fun p hp => ?_) fun _ => Or.inr rfl
    obtain ⟨s, o⟩ := p
    obtain rfl := eq_of_mem_replicate (of_mem_zip hp).2
    cases s with
    | none => exact ⟨none, rfl⟩
    | some s => exact ⟨some false, rfl⟩

end Data

namespace Operator

variable {c : Column}

/-- A column that an operator with a check for truth values gives passes the check. -/
theorem apply_eq_ok {o : Operator} {args : List Value} {origin : Option Origin}
    (hInputs : o.assertInputs args = .ok ()) (hRule : o.rule args = .ok (.column c origin))
    (hOutput : o.checks.find? (!·.isOfInputs) = some (.output .boolean)) :
    o.apply args = .ok (.column c origin) := by
  unfold apply Checks.assertOutput
  rw [hInputs, hRule]
  simp only [hOutput]
  rfl

theorem opposite_eq_ok {e : Data} (h : c.data.invert = .ok e) (origin : Option Origin) :
    opposite (.column c origin) = .ok (.column { c with data := e } none) := by
  change (do return ofColumn (← c.map invert)) = _
  rw [Column.map, h]
  rfl

/-- A column of truth values has an opposite. -/
theorem apply_not_eq (hTruths : c.data.OfTruths) (origin : Option Origin) :
    ∃ e, apply .not [.column c origin] = .ok (.column { c with data := e } none) ∧
      e.dtype = c.data.dtype ∧ e.verdicts = c.data.verdicts.map (Option.map Bool.not) := by
  obtain ⟨e, he, hType, hVerdicts⟩ := hTruths.invert_eq
  exact ⟨e, apply_eq_ok rfl (opposite_eq_ok he origin) rfl, hType, hVerdicts⟩

/-- A test for the absent value or a truth value has an answer, the opposite of that of the opposite
test. -/
theorem apply_is_isNot {x : Cell} (hx : x = .null ∨ ∃ b, x = .bool b) (c : Column)
    (origin : Option Origin) :
    ∃ e e', apply .is [.column c origin, .scalar x] = .ok (.column { c with data := e } none) ∧
      apply .isNot [.column c origin, .scalar x] = .ok (.column { c with data := e' } none) ∧
      e.OfTruths ∧ e.length = c.length ∧ e'.dtype = e.dtype ∧
      e'.verdicts = e.verdicts.map (Option.map Bool.not) := by
  have hTest : ∃ e,
      isTest (.column c origin) (.scalar x) = .ok (.column { c with data := e } none) ∧ e.OfTruths ∧
      e.length = c.length := by
    rcases hx with rfl | ⟨b, rfl⟩
    · exact ⟨.bools c.data.missing, rfl, Or.inl rfl, length_missing c.data⟩
    · obtain ⟨e, he, hTruths⟩ := c.data.exists_compares_bool b
      refine ⟨e, ?_, hTruths, length_compares he⟩
      change (do return ofColumn (← c.comparesScalar .eq (.bool b))) = _
      rw [Column.comparesScalar, he]
      rfl
  obtain ⟨e, he, hTruths, hLength⟩ := hTest
  obtain ⟨e', he', hType, hVerdicts⟩ := hTruths.invert_eq
  refine ⟨e, e', apply_eq_ok rfl he rfl, apply_eq_ok rfl ?_ rfl, hTruths, hLength, hType, hVerdicts⟩
  change (isTest (.column c origin) (.scalar x) >>= opposite) = _
  rw [he]
  exact opposite_eq_ok he' none

end Operator

/-- NULL, TRUE and FALSE, as constants with their values. -/
inductive Sql.Node.IsTruthLiteral : Sql.Node → Cell → Prop where
  | null (tag : Tag) : IsTruthLiteral (.null tag) .null
  | truth (b : Bool) (tag : Tag) : IsTruthLiteral (.constant (.bool b) tag) (.bool b)

namespace Query

open Sql Work

/-- The first condition keeps the rows where it holds, the second those where it does not, and
neither those where it is missing. -/
structure DividesRows (w : Workspace) (id : Nat) (p negated : Node) (d : Data) : Prop where
  holds : WhereLeaves w id p ((w.tableAt id).pickRows (d.positionsOf (some true)))
  fails : WhereLeaves w id negated ((w.tableAt id).pickRows (d.positionsOf (some false)))
  missing : ∀ i, i ∈ d.positionsOf none ↔ d.missing[i]? = some true
  ordered : ∀ v, (d.positionsOf v).Pairwise (· < ·)
  disjoint : ∀ u v, u ≠ v → List.Disjoint (d.positionsOf u) (d.positionsOf v)
  complete : (d.positionsOf (some true) ++ d.positionsOf (some false) ++ d.positionsOf none).Perm
    (List.range (w.tableAt id).height)

/-- Two expressions are columns of opposite truth values, missing at the same places. -/
structure AnswersOppositely (w : Workspace) (id : Nat) (p opposite : Node) (c d : Column) :
    Prop where
  value : Work.run (evalExpr (.frame id) p) w = (.ok (.column c none), w)
  opposite_value : Work.run (evalExpr (.frame id) opposite) w = (.ok (.column d none), w)
  labels : c.labels = (w.tableAt id).labels ∧ d.labels = (w.tableAt id).labels
  length : c.length = (w.tableAt id).height
  truths : c.data.OfTruths ∧ d.data.dtype = c.data.dtype
  opposites : d.data.verdicts = c.data.verdicts.map (Option.map Bool.not)

section Negation

variable {w : Workspace} (hw : w.KeepsOperators) {id : Nat} (ht : (w.tableAt id).Rectangular)
include hw ht

theorem dividesRows_of_isTest {p : Node} (hp : p.IsTest) {c : Column} {origin : Option Origin}
    {w' : Workspace} (h : run (evalCondition (.frame id) p) w = (.ok (.column c origin), w'))
    (hTruths : c.data.OfTruths) (form : OpForm) {op : String} (tag : Tag)
    (hNot : ofName (Text.lower op) = .ok .not) :
    DividesRows w id p (.operation form op [p] tag) c.data := by
  have hExpr : run (evalExpr (.frame id) p) w = (.ok (.column c origin), w') := by
    cases p with
    | operation => rwa [evalCondition_operation] at h
    | _ => cases h
  obtain rfl : w' = w :=
    congrArg Prod.snd (hExpr.symm.trans (run_bareExpr id (isBare_of_isMadeBy hp) w))
  have hLength : c.data.length = (w'.tableAt id).height := length_of_isTest hw ht hp hExpr
  obtain ⟨e, he, hType, hVerdicts⟩ := apply_not_eq hTruths origin
  have hNegated : run (evalCondition (.frame id) (.operation form op [p] tag)) w' =
      (.ok (.column { c with data := e } none), w') := by
    rw [evalCondition_operation, run_operation_one hExpr, run_call_operator hw hNot, he]
  have hSize : e.length = c.data.length := by
    rw [← length_verdicts, hVerdicts, length_map, length_verdicts]
  have hOpposite : e.positionsOf (some true) = c.data.positionsOf (some false) := by
    unfold positionsOf
    rw [hSize, hVerdicts]
    refine filter_congr fun i _ => ?_
    rw [getElem?_map]
    rcases c.data.verdicts[i]? with _ | _ | _ | _ <;> rfl
  exact {
    holds := (whereLeaves_iff h _).2 (hTruths.choose_eq hLength)
    fails := by
      rw [whereLeaves_iff hNegated, ← hOpposite]
      have hTruths' : e.OfTruths := by rwa [OfTruths, hType]
      exact hTruths'.choose_eq (hSize.trans hLength)
    missing := fun i => by
      rw [mem_positionsOf_iff, hTruths.missing_eq, getElem?_map]
      rcases c.data.verdicts[i]? with _ | _ | _ <;> simp
    ordered := fun _ => pairwise_lt_range.filter _
    disjoint := fun _ _ => c.data.positionsOf_disjoint
    complete := hLength ▸ c.data.positionsOf_perm }

omit ht in
theorem answersOppositely_is {name : String} {d : Data} (hNamed : (w.tableAt id).named name = [d])
    (hLength : d.length = (w.tableAt id).height) {x : Node} {v : Cell} (hx : x.IsTruthLiteral v)
    (form : OpForm) {is isNot : String} (nameTag tag : Tag) (hIs : ofName (Text.lower is) = .ok .is)
    (hIsNot : ofName (Text.lower isNot) = .ok .isNot) :
    ∃ c e, AnswersOppositely w id (.operation form is [.name [name] nameTag, x] tag)
        (.operation form isNot [.name [name] nameTag, x] tag) c e := by
  have hColumn : ∃ c origin,
      run (evalExpr (.frame id) (.name [name] nameTag)) w = (.ok (.column c origin), w) ∧
      c.labels = (w.tableAt id).labels ∧ c.data = d := by
    rw [evalExpr, run_columnOf_bare, if_pos (Table.has_eq_true_iff.2 (by simp [hNamed])),
      run_columnsNamed_one hNamed]
    exact ⟨_, _, rfl, rfl, rfl⟩
  have hLiteral : run (evalExpr (.frame id) x) w = (.ok (.scalar v), w) ∧
      (v = .null ∨ ∃ b, v = .bool b) := by
    cases hx with
    | null tag => exact ⟨rfl, Or.inl rfl⟩
    | truth b tag => exact ⟨rfl, Or.inr ⟨b, rfl⟩⟩
  obtain ⟨c, origin, hRun, hLabels, rfl⟩ := hColumn
  obtain ⟨e, e', he, he', hTruths, hSize, hType, hVerdicts⟩ := apply_is_isNot hLiteral.2 c origin
  refine ⟨{ c with data := e }, { c with data := e' }, ?_, ?_, ⟨hLabels, hLabels⟩,
    hSize.trans hLength, ⟨hTruths, hType⟩, hVerdicts⟩
  · rw [run_operation_two hRun hLiteral.1, run_call_operator hw hIs, he]
  · rw [run_operation_two hRun hLiteral.1, run_call_operator hw hIsNot, he']

/-- The rows of a test, those of its negation and those where it is missing are all rows of the
table, in its order. IS NOT has the opposite answer of IS. -/
theorem negation_divides_rows :
    (∀ p c origin w', p.IsTest →
      Work.run (evalCondition (.frame id) p) w = (.ok (.column c origin), w') → c.data.OfTruths →
      ∀ form op tag, Operator.ofName (Text.lower op) = .ok .not →
        DividesRows w id p (.operation form op [p] tag) c.data) ∧
    ∀ name d x v, (w.tableAt id).named name = [d] → Node.IsTruthLiteral x v →
      ∀ form is isNot nameTag tag, Operator.ofName (Text.lower is) = .ok .is →
        Operator.ofName (Text.lower isNot) = .ok .isNot →
        ∃ c e, AnswersOppositely w id (.operation form is [.name [name] nameTag, x] tag)
            (.operation form isNot [.name [name] nameTag, x] tag) c e := by
  refine ⟨fun p c origin w' hp h hTruths form op tag hNot =>
    dividesRows_of_isTest hw ht hp h hTruths form tag hNot, ?_⟩
  intro name d x v hNamed hx form is isNot nameTag tag hIs hIsNot
  have hMem : d ∈ (w.tableAt id).named name := by simp [hNamed]
  exact answersOppositely_is hw hNamed (ht.length_of_mem_named hMem) hx form nameTag tag hIs hIsNot

end Negation

def gappedRows : Workspace :=
  { Workspace.ofTables [] with
    frames := #[{ table := ⟨Column.freshLabels 3,
      [("b", .nullableInts .int64 [some 1, none, some 3])]⟩ }] }

/-- `b > 2`, `NOT b > 2` and the row where `b` is missing, and the answers of `b IS NULL` and `b IS
NOT NULL`. -/
theorem negation_divides_gapped_rows :
    DividesRows gappedRows 0 (.operation .binary ">" [.name ["b"] {}, .constant (.int 2) {}] {})
      (.operation .unary "NOT" [.operation .binary ">" [.name ["b"] {}, .constant (.int 2) {}] {}]
        {}) (.nullableBools [some false, none, some true]) ∧
    ∃ c e, AnswersOppositely gappedRows 0 (.operation .binary "IS" [.name ["b"] {}, .null {}] {})
        (.operation .binary "IS NOT" [.name ["b"] {}, .null {}] {}) c e := by
  have hw : gappedRows.KeepsOperators := fun _ _ _ => rfl
  have ht : (gappedRows.tableAt 0).Rectangular := by
    simp [Table.Rectangular, gappedRows, Workspace.tableAt, Table.height, Data.length]
  obtain ⟨hTests, hOpposites⟩ := negation_divides_rows hw ht
  have hTest : Node.IsTest (.operation .binary ">" [.name ["b"] {}, .constant (.int 2) {}] {}) :=
    .binary (o := .compare .gt) rfl rfl (.column "b" {}) (.constant rfl {})
  have hValue : Work.run (evalCondition (.frame 0)
      (.operation .binary ">" [.name ["b"] {}, .constant (.int 2) {}] {})) gappedRows =
      (.ok (.column ⟨Column.freshLabels 3, some "b", .nullableBools [some false, none, some true]⟩
        none), gappedRows) :=
    rfl
  exact ⟨hTests _ _ _ _ hTest hValue (Or.inr rfl) .unary "NOT" {} rfl,
    hOpposites "b" _ _ _ rfl (.null {}) .binary "IS" "IS NOT" {} {} rfl rfl⟩

end Query

end TableQuery
