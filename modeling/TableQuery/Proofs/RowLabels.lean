import TableQuery.Proofs.Negation

/-! The labels of computed columns. Every operator gives columns on the labels of its operands, so
that an expression over the columns of a table is a column on the table's labels. -/
namespace TableQuery

open Value

abbrev Value.OnLabels (labels : List Cell) : Value → Prop := Value.IfColumn (·.labels = labels)

theorem formal_labels (labels : List Cell) : Column.Formal (·.labels = labels) :=
  fun _ _ _ hc _ => hc

section Labels

variable {labels : List Cell} (hSelf : Cell.sameAll labels labels = true) {a b v : Value}

namespace Value

variable {c x : Column} {op : Arith}

theorem onLabels_map {f : Data → Except Fault Data} (hc : c.labels = labels) (h : c.map f = .ok x) :
    x.labels = labels := by
  obtain ⟨d, -, h⟩ := bind_eq_ok h
  cases h
  exact hc

theorem onLabels_negate (ha : a.OnLabels labels) (h : a.negate = .ok v) : v.OnLabels labels := by
  cases a with
  | column c origin =>
    obtain ⟨x, hx, h⟩ := bind_eq_ok h
    cases h
    exact onLabels_map ha hx
  | scalar c =>
    obtain ⟨x, -, h⟩ := bind_eq_ok h
    cases h
    trivial
  | table t =>
    obtain ⟨x, -, h⟩ := bind_eq_ok h
    cases h
    trivial

theorem onLabels_toNumeric (ha : a.OnLabels labels) (h : a.toNumeric = .ok v) :
    v.OnLabels labels := by
  cases a with
  | column c origin =>
    obtain ⟨x, hx, h⟩ := bind_eq_ok h
    cases h
    exact onLabels_map ha hx
  | scalar c =>
    unfold toNumeric at h
    dsimp only at h
    split at h
    · cases h
      trivial
    · obtain ⟨r, -, h⟩ := bind_eq_ok h
      split at h <;> cases h <;> trivial
    · obtain ⟨r, -, h⟩ := bind_eq_ok h
      cases h
      trivial
    · cases h
      trivial
  | table t => cases h

theorem labels_arithScalar {y : Cell} {side : Bool} (hc : c.labels = labels)
    (h : c.arithScalar op y side = .ok x) : x.labels = labels := by
  cases side
  · obtain ⟨d, -, h⟩ := bind_eq_ok h
    cases h
    exact hc
  · obtain ⟨d, -, h⟩ := bind_eq_ok h
    cases h
    exact hc

include hSelf in
theorem labels_arith {d : Column} (hc : c.labels = labels) (hd : d.labels = labels)
    (h : c.arith op d = .ok x) : x.labels = labels := by
  have hAlign : c.align d = (c.labels, c.data, d.data) := if_pos (by rw [hc, hd, hSelf])
  unfold Column.arith at h
  rw [hAlign] at h
  obtain ⟨r, -, h⟩ := bind_eq_ok h
  cases h
  exact hc

include hSelf in
theorem onLabels_arith (ha : a.OnLabels labels) (hb : b.OnLabels labels)
    (h : arith op a b = .ok (.real v)) : v.OnLabels labels := by
  unfold arith at h
  split at h
  case h_1 =>
    obtain ⟨r, -, h⟩ := bind_eq_ok h
    split at h <;> cases h
    trivial
  case h_2 =>
    split at h
    · obtain ⟨r, -, h⟩ := bind_eq_ok h
      split at h <;> cases h
      trivial
    · split at h
      · obtain ⟨x, hx, h⟩ := bind_eq_ok h
        cases h
        exact labels_arithScalar hb hx
      · obtain ⟨x, hx, h⟩ := bind_eq_ok h
        cases h
        trivial
      · obtain ⟨r, -, h⟩ := bind_eq_ok h
        split at h <;> cases h
        trivial
  case h_3 =>
    obtain ⟨x, hx, h⟩ := bind_eq_ok h
    cases h
    exact labels_arith hSelf ha hb hx
  case h_4 =>
    obtain ⟨x, hx, h⟩ := bind_eq_ok h
    cases h
    exact labels_arithScalar ha hx
  case h_5 =>
    obtain ⟨x, hx, h⟩ := bind_eq_ok h
    cases h
    exact labels_arithScalar hb hx
  case h_6 | h_7 | h_8 =>
    obtain ⟨t, -, h⟩ := bind_eq_ok h
    cases h
    trivial
  case h_9 | h_10 =>
    cases h
    trivial

end Value

namespace Operator

variable {o : Operator} {op : Arith}

include hSelf in
theorem onLabels_numericResult (ha : a.OnLabels labels) (hb : b.OnLabels labels)
    (h : numericResult o (arith op a b) = .ok v) : v.OnLabels labels := by
  obtain ⟨r, hr, h⟩ := bind_eq_ok h
  cases r with
  | real u => exact onLabels_toNumeric (onLabels_arith hSelf ha hb hr) h
  | imaginary => cases h

include hSelf in
theorem onLabels_combine (ha : a.OnLabels labels) (hb : b.OnLabels labels)
    (h : combine op a b = .ok v) : v.OnLabels labels := by
  obtain ⟨r, hr, h⟩ := bind_eq_ok h
  cases r with
  | imaginary => cases h
  | real u =>
    have hu := onLabels_arith hSelf ha hb hr
    cases u with
    | scalar c => cases h
    | column c origin =>
      obtain ⟨x, hx, h⟩ := bind_eq_ok h
      cases h
      exact onLabels_map hu hx
    | table t =>
      obtain ⟨x, hx, h⟩ := bind_eq_ok h
      cases h
      trivial

include hSelf in
/-- A connective gives a column on the labels of its operands: the combined one, or one of them. -/
theorem onLabels_connective (ha : a.OnLabels labels) (hb : b.OnLabels labels) :
    (conjoin a b = .ok v → v.OnLabels labels) ∧ (disjoin a b = .ok v → v.OnLabels labels) := by
  constructor
  · intro h
    unfold conjoin at h
    split at h
    · exact onLabels_combine hSelf ha hb h
    · obtain ⟨t, -, h⟩ := bind_eq_ok h
      split at h <;> cases h
      · exact hb
      · exact ha
  · intro h
    unfold disjoin at h
    split at h
    · exact onLabels_combine hSelf ha hb h
    · obtain ⟨t, -, h⟩ := bind_eq_ok h
      split at h <;> cases h
      · exact ha
      · exact hb

theorem onLabels_onTexts {f : String → String} (ha : a.OnLabels labels) (h : onTexts f a = .ok v) :
    v.OnLabels labels := by
  unfold onTexts at h
  split at h
  · cases h
    trivial
  · split at h
    · cases h
      exact ha
    · obtain ⟨cells, -, h⟩ := bind_eq_ok h
      cases h
      exact ha
  · cases h

include hSelf in
/-- Every operator gives columns on the labels of its operands. -/
theorem onLabels_rule (ha : a.OnLabels labels) (hb : b.OnLabels labels)
    (h : o.rule [a, b] = .ok v) : v.OnLabels labels := by
  cases hTesting : o.isTesting with
  | true => exact ifColumn_test (formal_labels labels) hTesting ha hb h
  | false =>
    cases o with
    | and => exact (onLabels_connective hSelf ha hb).1 h
    | or => exact (onLabels_connective hSelf ha hb).2 h
    | plus | minus | times | divide | modulo | power => exact onLabels_numericResult hSelf ha hb h
    | concat =>
      obtain ⟨r, hr, h⟩ := bind_eq_ok h
      cases r with
      | real u =>
        cases h
        exact onLabels_arith hSelf ha hb hr
      | imaginary => cases h
    | lower | upper => cases h
    | _ => cases hTesting

theorem onLabels_rule_one (ha : a.OnLabels labels) (h : o.rule [a] = .ok v) :
    v.OnLabels labels := by
  cases hTesting : o.isTesting with
  | true => exact ifColumn_test_one (formal_labels labels) hTesting ha h
  | false =>
    cases o with
    | minus =>
      obtain ⟨r, hr, h⟩ := bind_eq_ok h
      exact onLabels_toNumeric (onLabels_negate ha hr) h
    | lower | upper => exact onLabels_onTexts ha h
    | and | or | plus | times | divide | modulo | power | concat => cases h
    | _ => cases hTesting

end Operator

end Labels

def Sql.Node.IsRowwise (n : Node) : Prop := n.IsMadeBy fun _ => true

/-- An expression over the columns of a table is a column on the table's labels, if it is one. -/
theorem Query.onLabels_of_isRowwise {w : Workspace} (hw : w.KeepsOperators) {id : Nat}
    (hSelf : Cell.sameAll (w.tableAt id).labels (w.tableAt id).labels = true) {n : Sql.Node}
    (hn : n.IsRowwise) {v : Value} {w' : Workspace}
    (h : Work.run (evalExpr (.frame id) n) w = (.ok v, w')) : v.OnLabels (w.tableAt id).labels :=
  ifColumn_of_isMadeBy hw (formal_labels _) (fun _ _ _ _ => rfl)
    (fun _ _ _ _ ha hRule => Operator.onLabels_rule_one ha hRule)
    (fun _ _ _ _ _ ha hb hRule => Operator.onLabels_rule hSelf ha hb hRule) hn h

end TableQuery
