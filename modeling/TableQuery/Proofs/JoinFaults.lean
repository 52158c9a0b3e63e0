import TableQuery.Proofs.Work
import TableQuery.Query.Join

/-! What goes wrong when two tables are joined is a fault of their data, and is not reported as a
mistake of the query. -/
namespace TableQuery

open Cell

/-- An outcome that is no mistake of the query. -/
def NoQueryFault {α : Type} (x : Except Fault α) : Prop := ∀ cause, x ≠ .error (.query cause)

section Combinators

variable {α β : Type}

@[simp] theorem noQueryFault_ok (a : α) : NoQueryFault (.ok a : Except Fault α) :=
  fun _ h => by cases h

@[simp] theorem noQueryFault_error_iff {f : Fault} :
    NoQueryFault (.error f : Except Fault α) ↔ ∀ cause, f ≠ .query cause :=
  ⟨fun h cause hf => h cause (hf ▸ rfl), fun h cause hf => h cause (Except.error.inj hf)⟩

/-- Steps that report no mistake of the query make a run that reports none. -/
theorem NoQueryFault.bind {x : Except Fault α} {f : α → Except Fault β} (hx : NoQueryFault x)
    (hf : ∀ a, NoQueryFault (f a)) : NoQueryFault (x >>= f) := by
  cases x with
  | error e => exact fun cause h => hx cause (by cases h; rfl)
  | ok a => exact hf a

theorem NoQueryFault.mapM {f : α → Except Fault β} (hf : ∀ a, NoQueryFault (f a)) (xs : List α) :
    NoQueryFault (xs.mapM f) := by
  induction xs with
  | nil => exact noQueryFault_ok []
  | cons x rest ih =>
    rw [List.mapM_cons]
    exact (hf x).bind fun _ => ih.bind fun _ => noQueryFault_ok _

end Combinators

theorem Num.noQueryFault_truncate (n : Num) : NoQueryFault n.truncate := by
  unfold truncate
  split
  · split
    · simp
    · split <;> simp
  · simp

theorem Num.noQueryFault_toFloat (n : Num) : NoQueryFault n.toFloat? := by
  unfold toFloat?
  dsimp only
  split
  · split <;> simp
  · simp

namespace Cell

theorem noQueryFault_toInt (c : Cell) : NoQueryFault c.toInt := by
  unfold toInt
  split
  · split <;> simp
  · split
    · exact Num.noQueryFault_truncate _
    · simp

theorem noQueryFault_toDouble (c : Cell) : NoQueryFault c.toDouble := by
  unfold toDouble
  split
  · simp
  · split <;> simp
  · split
    · exact Num.noQueryFault_toFloat _
    · simp

theorem noQueryFault_truth (c : Cell) : NoQueryFault c.truth := by
  unfold truth
  split <;> simp

end Cell

namespace Data

theorem noQueryFault_objectToInt (k : IntKind) (c : Cell) : NoQueryFault (objectToInt k c) := by
  refine (noQueryFault_toInt c).bind fun n => ?_
  split
  · exact noQueryFault_ok n
  · simp

theorem noQueryFault_toInts (k : IntKind) (d : Data) : NoQueryFault (d.toInts k) := by
  unfold toInts
  split
  case h_1 => exact noQueryFault_ok _
  case h_3 => exact noQueryFault_ok _
  case h_4 => exact .mapM (noQueryFault_objectToInt k) _
  case h_8 => exact .mapM (noQueryFault_objectToInt k) _
  all_goals split <;> simp

theorem noQueryFault_toFloats (d : Data) : NoQueryFault d.toFloats := by
  unfold toFloats
  split
  case h_4 => exact .mapM noQueryFault_toDouble _
  case h_8 =>
    refine .mapM (fun s => ?_) _
    split
    · exact noQueryFault_toDouble _
    · simp
  all_goals exact noQueryFault_ok _

theorem noQueryFault_toBools (d : Data) : NoQueryFault d.toBools := by
  unfold toBools
  split
  case h_4 => exact .mapM noQueryFault_truth _
  case h_5 => exact .mapM noQueryFault_truth _
  case h_6 => split <;> simp
  all_goals exact noQueryFault_ok _

theorem noQueryFault_wholeInts (k : IntKind) (xs : List (Option Float)) :
    NoQueryFault (wholeInts k xs) := by
  refine .mapM (fun x => ?_) xs
  split
  · simp
  · split
    · split <;> simp
    · simp

theorem noQueryFault_entryToWhole (k : IntKind) (c : Cell) : NoQueryFault (entryToWhole k c) := by
  unfold entryToWhole
  split
  · exact noQueryFault_objectToInt k _
  · split
    · split
      · split
        · exact noQueryFault_objectToInt k _
        · simp
      · simp
    · exact noQueryFault_objectToInt k _
    · simp

theorem noQueryFault_truthOfNum (n : Num) : NoQueryFault (truthOfNum n) := by
  unfold truthOfNum
  split
  · simp
  · split <;> simp

/-- A conversion entry by entry where missing entries stay. -/
theorem noQueryFault_present {α β : Type} {f : α → Except Fault β} (missing : α → Bool)
    (hf : ∀ a, NoQueryFault (f a)) (xs : List α) :
    NoQueryFault (xs.mapM fun a => if missing a then .ok none else return some (← f a)) := by
  refine .mapM (fun a => ?_) xs
  split
  · exact noQueryFault_ok none
  · exact (hf a).bind fun _ => noQueryFault_ok _

theorem noQueryFault_toMarkedInts (k : IntKind) (d : Data) : NoQueryFault (d.toMarkedInts k) := by
  unfold toMarkedInts
  split
  case h_1 => exact .mapM (fun n => by split <;> simp) _
  case h_2 => exact noQueryFault_wholeInts k _
  case h_4 =>
    split
    · simp
    · exact noQueryFault_present _ (noQueryFault_entryToWhole k) _
  case h_8 =>
    refine .mapM (fun s => ?_) _
    split
    · exact (noQueryFault_objectToInt k _).bind fun _ => noQueryFault_ok _
    · simp
  all_goals exact noQueryFault_ok _

theorem noQueryFault_toMarkedFloats (d : Data) : NoQueryFault d.toMarkedFloats := by
  unfold toMarkedFloats
  split
  case h_4 =>
    refine .mapM (fun s => ?_) _
    split
    · exact (noQueryFault_toDouble _).bind fun _ => noQueryFault_ok _
    · simp
  case h_5 =>
    split
    · simp
    · exact noQueryFault_present _ noQueryFault_toDouble _
  case h_6 => exact (noQueryFault_toFloats _).bind fun _ => noQueryFault_ok _
  all_goals exact noQueryFault_ok _

theorem noQueryFault_toMarkedBools (d : Data) : NoQueryFault d.toMarkedBools := by
  unfold toMarkedBools
  split
  case h_5 => exact .mapM (fun n => (noQueryFault_truthOfNum _).bind fun _ => noQueryFault_ok _) _
  case h_6 => exact noQueryFault_present _ (fun x => noQueryFault_truthOfNum (.float x)) _
  case h_7 => split <;> simp
  case h_8 =>
    split
    · simp
    · refine .mapM (fun c => ?_) _
      split
      · simp
      · split
        · exact (noQueryFault_truthOfNum _).bind fun _ => noQueryFault_ok _
        · simp
  all_goals exact noQueryFault_ok _

/-- A cast that fails is a fault of the entries. -/
theorem noQueryFault_cast (target : CastType) (d : Data) : NoQueryFault (d.cast target) := by
  cases target with
  | plainText => exact noQueryFault_ok _
  | storage type =>
    cases type with
    | ints k => exact (noQueryFault_toInts k d).bind fun _ => noQueryFault_ok _
    | floats => exact (noQueryFault_toFloats d).bind fun _ => noQueryFault_ok _
    | bools => exact (noQueryFault_toBools d).bind fun _ => noQueryFault_ok _
    | objects => exact noQueryFault_ok _
    | nullableInts k => exact (noQueryFault_toMarkedInts k d).bind fun _ => noQueryFault_ok _
    | nullableFloats => exact (noQueryFault_toMarkedFloats d).bind fun _ => noQueryFault_ok _
    | nullableBools => exact (noQueryFault_toMarkedBools d).bind fun _ => noQueryFault_ok _
    | texts => exact noQueryFault_ok _

/-- Keys that cannot be matched are a fault of the data. -/
theorem noQueryFault_coercion (l r : Data) : NoQueryFault (coercion l r) := by
  unfold coercion
  split
  · simp
  split
  · simp
  split
  · simp
  split
  case h_7 => split <;> simp
  case h_8 => split <;> simp
  all_goals exact noQueryFault_ok _

end Data

theorem noQueryFault_sharedKey (l r : Data) (rows : List JoinRow) :
    NoQueryFault (sharedKey l r rows) := by
  unfold sharedKey
  split
  · exact noQueryFault_ok _
  split
  · exact noQueryFault_ok _
  · exact (Data.noQueryFault_cast _ l).bind fun _ =>
      (Data.noQueryFault_cast _ r).bind fun _ => noQueryFault_ok _

/-- Names that would clash are one too. -/
theorem noQueryFault_sideNames (ls rs : List String) : NoQueryFault (sideNames ls rs) := by
  unfold sideNames
  dsimp only
  split <;> simp

theorem Table.noQueryFault_column (t : Table) (name : String) : NoQueryFault (t.column name) := by
  unfold column
  split <;> simp

/-- Whatever goes wrong in a join, it is no mistake of the query. -/
theorem Table.noQueryFault_join (kind : JoinKind) (leftOn rightOn : String) (l r : Table) :
    NoQueryFault (Table.join kind leftOn rightOn l r) := by
  refine (noQueryFault_column l leftOn).bind
    fun lk => (noQueryFault_column r rightOn).bind fun rk => ?_
  refine (Data.noQueryFault_coercion lk rk).bind fun coerced => ?_
  refine (noQueryFault_column _ leftOn).bind
    fun lk' => (noQueryFault_column _ rightOn).bind fun rk' => ?_
  exact (noQueryFault_sideNames _ _).bind fun _ =>
    (noQueryFault_sharedKey _ _ _).bind fun _ => noQueryFault_ok _

theorem Sql.Node.noQueryFault_firstPart (n : Node) : NoQueryFault n.firstPart := by
  unfold firstPart
  split <;> simp

theorem Sql.Node.noQueryFault_lastPart (n : Node) : NoQueryFault n.lastPart := by
  unfold lastPart
  split
  · split <;> simp
  · simp

/-- Nor is a side of the condition that is no reference. -/
theorem noQueryFault_joinColumns (leftName rightName : String) (a b : Sql.Node) :
    NoQueryFault (joinColumns leftName rightName a b) :=
  a.noQueryFault_firstPart.bind fun _ => b.noQueryFault_firstPart.bind fun _ =>
    (Sql.Node.noQueryFault_lastPart _).bind fun _ =>
      (Sql.Node.noQueryFault_lastPart _).bind fun _ => noQueryFault_ok _

end TableQuery
