import TableQuery.Proofs.Naming

/-! Where columns were read from. A column remembers the number of its table, and operators give the
same values when all numbers are moved by the same amount. -/
namespace TableQuery

def Origin.moved (k : Nat) (o : Origin) : Origin := { o with frame := o.frame + k }

theorem Origin.moved_inj {k : Nat} {o p : Origin} : o.moved k = p.moved k ↔ o = p := by
  obtain ⟨i, c⟩ := o
  obtain ⟨j, d⟩ := p
  simp [moved]

namespace Value

/-- The value as if it had been read from tables whose numbers are greater. -/
def moved (k : Nat) : Value → Value
  | .column c origin => .column c (origin.map (Origin.moved k))
  | v => v

variable (k : Nat)

theorem moved_eq_self {v : Value} (h : v.origin? = none) : v.moved k = v := by
  cases v with
  | column c origin =>
    cases h
    rfl
  | _ => rfl

def moving : Disguise where
  name := id
  origin := Option.map (Origin.moved k)
  name_none := rfl
  origin_none := rfl
  name_shared _ _ := rfl

theorem under_moving : under (moving k) = moved k := funext fun v => by cases v <;> rfl

end Value

/-- An operator gives the same value, moved as its operands were. -/
theorem Operator.apply_moved (k : Nat) (op : Operator) (args : List Value) :
    op.apply (args.map (Value.moved k)) = Value.moved k <$> op.apply args := by
  rw [← Value.under_moving]
  refine apply_under _ op (Or.inl fun o p => ⟨o.moved k, p.moved k, rfl, rfl, ?_⟩)
  rw [Bool.eq_iff_iff, beq_iff_eq, beq_iff_eq, Origin.moved_inj]

end TableQuery
