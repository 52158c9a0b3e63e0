import TableQuery.Proofs.Agreement
import TableQuery.Proofs.Origins

/-! A workspace in which more tables were handed out. The tables of a query then get greater
numbers, all by the same amount, and apart from that a query without cached tables does the same. -/
namespace TableQuery

open Work Array Workspace

open Sql

variable {names : String → Prop}

namespace Extension

/-- A function that takes no notice of the numbers under which tables were handed out. -/
def SeesNoNumbers (f : Extension) : Prop :=
  ∀ k args, f (args.map (Value.moved k)) = Value.moved k <$> f args

def NoneSeesNumbers (extensions : List (String × Extension)) : Prop :=
  ∀ name f, extensions.lookup name = some f → f.SeesNoNumbers

end Extension

def Relation.moved (k : Nat) : Relation → Relation
  | .frame i => .frame (i + k)
  | r => r

/-- A reference that is qualified by one of some names, or not at all. -/
def QualifiedWithin (names : String → Prop) : List String → Prop
  | [table, _] => names table
  | _ => True

def Starred (names : String → Prop) (column : String) : Prop :=
  IsRegular column ∨ QualifiedWithin names (splitName column)

/-- The uses of queries that qualify by some names only. -/
def Sql.Use.Within (names : String → Prop) : Use → Prop
  | .reference parts => QualifiedWithin names parts
  | .operation _ _ => True
  | .star fromTable => fromTable = true ∨ ∀ name, names name
  | .keyColumn column => Starred names column
  | .tableKey _ => True

theorem qualifiedWithin_of_forall (h : ∀ name, names name) (parts : List String) :
    QualifiedWithin names parts := by
  unfold QualifiedWithin
  split
  · exact h _
  · trivial

theorem starred_of_forall (h : ∀ name, names name) (column : String) : Starred names column :=
  Or.inr (qualifiedWithin_of_forall h _)

/-- From a number on, the tables of the second are those of the first with greater numbers, and some
names mean the same. -/
structure Shifted (k base : Nat) (names : String → Prop) (plain : Nat → Prop) (v w : Workspace) :
    Prop where
  drive : v.drive = w.drive
  entries : v.catalog.entries = w.catalog.entries
  extensions : v.catalog.extensions = w.catalog.extensions
  uncached : ∀ e ∈ w.catalog.entries, e.2.cached = false
  fetched : w.FetchesOnly (Starred names)
  seesNoNumbers : Extension.NoneSeesNumbers w.catalog.extensions
  size : v.frames.size = w.frames.size + k
  base_le : base ≤ w.frames.size
  frames : ∀ i, base ≤ i → v.frames[i + k]? = w.frames[i]?
  scope : ∀ name, names name →
    v.catalog.scope.lookup name = (w.catalog.scope.lookup name).map (Relation.moved k)
  base_le_scope : ∀ name i, names name → w.catalog.scope.lookup name = some (.frame i) → base ≤ i
  plain : ∀ i, plain i →
    base ≤ i ∧ i < w.frames.size ∧ ∀ column ∈ (w.tableAt i).names, Starred names column

namespace Shifted

variable {k base : Nat} {plain : Nat → Prop} {v w : Workspace}
  (h : Shifted k base names plain v w)
variable {i : Nat}
include h

theorem frame_eq (hi : base ≤ i) : v.frames[i + k]?.getD default = w.frames[i]?.getD default := by
  rw [h.frames i hi]

theorem tableAt_eq (hi : base ≤ i) : v.tableAt (i + k) = w.tableAt i :=
  congrArg Frame.table (h.frame_eq hi)

/-- A table is handed out in both workspaces. -/
theorem newFrame (t : Table) :
    Shifted k base names
      (fun i => plain i ∨ i = w.frames.size ∧ ∀ column ∈ t.names, Starred names column)
      { v with frames := v.frames.push { table := t } }
      { w with frames := w.frames.push { table := t } } where
  __ := h
  size := by
    rw [size_push, size_push, h.size]
    omega
  base_le := by
    rw [size_push]
    exact Nat.le_succ_of_le h.base_le
  frames i hi := by
    have hSize : i + k = v.frames.size ↔ i = w.frames.size := by
      rw [h.size]
      omega
    rw [getElem?_push, getElem?_push, h.frames i hi]
    simp only [hSize]
  plain i hi := by
    rw [size_push]
    rcases hi with hi | ⟨rfl, hStarred⟩
    · obtain ⟨hBase, hSize, hStarred⟩ := h.plain i hi
      rw [tableAt_push_of_lt hSize]
      exact ⟨hBase, Nat.lt_succ_of_lt hSize, hStarred⟩
    · rw [tableAt_push_size]
      exact ⟨h.base_le, Nat.lt_succ_self _, hStarred⟩

/-- A table changes in both workspaces. -/
theorem setFrame {f : Frame}
    (hPlain : plain i → ∀ column ∈ f.table.names, Starred names column) :
    Shifted k base names plain { v with frames := v.frames.set! (i + k) f }
      { w with frames := w.frames.set! i f } where
  __ := h
  size := by
    rw [size_set!, size_set!, h.size]
  base_le := by
    rw [size_set!]
    exact h.base_le
  frames j hj := by
    have hSame : i + k = j + k ↔ i = j := by omega
    have hSize : i + k < v.frames.size ↔ i < w.frames.size := by
      rw [h.size]
      omega
    rw [set!_eq_setIfInBounds, set!_eq_setIfInBounds, getElem?_setIfInBounds,
      getElem?_setIfInBounds, h.frames j hj]
    simp only [hSame, hSize]
  plain j hj := by
    obtain ⟨hBase, hSize, hStarred⟩ := h.plain j hj
    rw [size_set!]
    refine ⟨hBase, hSize, ?_⟩
    by_cases hSame : i = j
    · subst hSame
      simpa [tableAt, hSize] using hPlain hj
    · simpa [tableAt, getElem?_setIfInBounds_ne hSame] using hStarred

/-- A table is put in scope in both workspaces. -/
theorem addToScope {r : Relation} (hr : ∀ i, r = .frame i → base ≤ i)
    (name : String) :
    Shifted k base names plain
      { v with catalog := { v.catalog with scope := setNamed v.catalog.scope name (r.moved k) } }
      { w with catalog := { w.catalog with scope := setNamed w.catalog.scope name r } } where
  __ := h
  scope other hOther := by
    simp only [lookup_setNamed, h.scope other hOther]
    split <;> rfl
  base_le_scope other i hOther hLookup := by
    simp only [lookup_setNamed] at hLookup
    split at hLookup
    · exact hr i (Option.some.inj hLookup)
    · exact h.base_le_scope other i hOther hLookup

/-- What is in scope does not matter where nothing is qualified. -/
theorem clearScope :
    Shifted k base names plain { v with catalog := { v.catalog with scope := [] } }
      { w with catalog := { w.catalog with scope := [] } } where
  __ := h
  scope _ _ := rfl
  base_le_scope := nofun

end Shifted

namespace Correspondence

open Query

def shift (k base : Nat) (names : String → Prop) : Correspondence where
  Stage := Nat → Prop
  Later plain more := ∀ i, plain i → more i
  State := Shifted k base names
  Source _ r r' := r = r'.moved k ∧ ∀ i, r' = .frame i → base ≤ i
  Own _ r r' := r = r'.moved k ∧ ∀ i, r' = .frame i → base ≤ i
  Plain plain r r' := r = r'.moved k ∧ ∀ i, r' = .frame i → plain i
  Alike v v' := v = v'.moved k
  Permits := Use.Within names

section Shift

variable {k base : Nat} {plain : Nat → Prop} {v w : Workspace}
variable {r r' : Relation}

/-- The ends of two steps that only read. -/
theorem shift_ends {α β : Type} {P : (Nat → Prop) → α → β → Prop}
    (h : Shifted k base names plain v w) {x : Except Fault α} {y : Except Fault β}
    (hOutcome : SameOutcome (P plain) x y) : (shift k base names).Ends plain P (x, v) (y, w) :=
  ⟨plain, fun _ hi => hi, h, hOutcome⟩

theorem shift_source {i j : Nat} (h : (shift k base names).Source plain (.frame i) (.frame j)) :
    i = j + k ∧ base ≤ j :=
  ⟨Relation.frame.inj h.1, h.2 j rfl⟩

theorem shift_columnsNamed (h : Shifted k base names plain v w) {j : Nat} (hj : base ≤ j)
    (name : String) :
    (shift k base names).Ends plain (fun _ => (shift k base names).Alike)
      (run (columnsNamed (j + k) name) v) (run (columnsNamed j name) w) := by
  unfold columnsNamed
  rw [run_bind_ok (run_frame _ v), run_bind_ok (run_frame j w), h.frame_eq hj]
  cases (w.frames[j]?.getD default).table.named name with
  | nil => exact shift_ends h (.ok rfl)
  | cons d rest => cases rest <;> exact shift_ends h (.ok rfl)

theorem shift_scopedColumn (h : Shifted k base names plain v w) {table column : String}
    (hName : names table) :
    (shift k base names).Ends plain (fun _ => (shift k base names).Alike)
      (run (scopedColumn table column [table, column]) v)
      (run (scopedColumn table column [table, column]) w) := by
  rw [run_scopedColumn, run_scopedColumn, h.scope table hName]
  cases hLookup : w.catalog.scope.lookup table with
  | none => exact shift_ends h (.error _)
  | some r =>
    cases r with
    | frame j =>
      have hj := h.base_le_scope table j hName hLookup
      dsimp only [Option.map_some, Relation.moved]
      rw [h.tableAt_eq hj, h.frame_eq hj]
      split
      · refine shift_columnsNamed (h.setFrame fun hPlain => ?_) hj column
        exact (h.plain j hPlain).2.2
      · exact shift_ends h (.error _)
    | _ => exact shift_ends h (.error _)

theorem readsAlike_shift : (shift k base names).ReadsAlike where
  later_refl _ _ h := h
  later_trans h h' i hi := h' i (h i hi)
  source_mono _ h := h
  source_cases := by
    rintro _ r r' ⟨rfl, _⟩
    cases r' with
    | frame j => exact Or.inl ⟨_, j, rfl, rfl⟩
    | absent => exact Or.inr (Or.inl ⟨rfl, rfl⟩)
    | value u => exact Or.inr (Or.inr ⟨u, rfl, rfl⟩)
  tableAt_eq hState h := by
    obtain ⟨rfl, hj⟩ := shift_source h
    exact Shifted.tableAt_eq hState hj
  columnsNamed h name v w hState := by
    obtain ⟨rfl, hj⟩ := shift_source h
    exact shift_columnsNamed hState hj name
  scopedColumn _ _ _ hPermits v w hState := shift_scopedColumn hState hPermits

theorem callAmong_moved {extensions : List (String × Extension)}
    (h : Extension.NoneSeesNumbers extensions) (op : String) (args : List Value) :
    callAmong extensions op (args.map (Value.moved k)) =
      Value.moved k <$> callAmong extensions op args := by
  unfold callAmong
  split
  · rename_i f hFound
    exact h _ f hFound k args
  · cases Operator.ofName (Text.lower op) with
    | error e => rfl
    | ok operator => exact operator.apply_moved k args

theorem sameOutcome_moved {x y : Except Fault Value} (h : x = Value.moved k <$> y) :
    SameOutcome (shift k base names).Alike x y := by
  subst h
  cases y with
  | error e => exact .error e
  | ok u => exact .ok rfl

theorem shift_call (h : Shifted k base names plain v w) (op : String) {values values' : List Value}
    (hValues : List.Forall₂ (shift k base names).Alike values values') :
    (shift k base names).Ends plain (fun _ => (shift k base names).Alike)
      (run (call op values) v) (run (call op values') w) := by
  have hMoved : values = values'.map (Value.moved k) := by
    induction hValues with
    | nil => rfl
    | cons hFirst _ ih => exact congrArg₂ List.cons hFirst ih
  rw [run_call, run_call, h.extensions, hMoved, callAmong_moved h.seesNoNumbers]
  exact shift_ends h (sameOutcome_moved rfl)

/-- A table that is handed out. -/
theorem shift_newFrame (h : Shifted k base names plain v w) (t : Table) :
    (shift k base names).Ends plain
      (fun s i j => (shift k base names).Own s (.frame i) (.frame j) ∧
        ((shift k base names).AllStarrable t.names →
          (shift k base names).Plain s (.frame i) (.frame j))) (run (newFrame t) v)
      (run (newFrame t) w) := by
  refine ⟨_, fun _ => Or.inl, h.newFrame t, .ok ⟨⟨congrArg Relation.frame h.size, ?_⟩, ?_⟩⟩
  · rintro i hi
    cases hi
    exact h.base_le
  · intro hStarred
    refine ⟨congrArg Relation.frame h.size, ?_⟩
    rintro i hi
    cases hi
    exact Or.inr ⟨rfl, hStarred (Or.inl rfl)⟩

theorem shift_addToScope (h : Shifted k base names plain v w)
    (hr : (shift k base names).Source plain r r') (name : String) :
    (shift k base names).Ends plain (fun _ _ _ => True) (run (addToScope name r) v)
      (run (addToScope name r') w) := by
  obtain ⟨rfl, hr⟩ := hr
  exact ⟨plain, fun _ hi => hi, h.addToScope hr name, .ok trivial⟩

/-- The rows of a table that is not cached are fetched anew. -/
theorem shift_rowsOf (h : Shifted k base names plain v w) {e : Entry}
    (he : ∃ key, (key, e) ∈ w.catalog.entries) :
    (shift k base names).Ends plain
      (fun s r r' => (shift k base names).Source s r r' ∧ (shift k base names).Plain s r r')
      (run (rowsOf e) v) (run (rowsOf e) w) := by
  obtain ⟨key, he⟩ := he
  rw [run_rowsOf_uncached (h.uncached _ he), run_rowsOf_uncached (h.uncached _ he), h.drive]
  cases hFetch : e.fetch w.drive with
  | error f => exact shift_ends h (.error f)
  | ok found =>
    cases found with
    | none => exact shift_ends h (.ok ⟨⟨rfl, nofun⟩, rfl, nofun⟩)
    | some t =>
      obtain ⟨s, hLater, hState, hNew⟩ := shift_newFrame h t
      cases hNew with
      | ok hNew => exact ⟨s, hLater, hState, .ok ⟨hNew.1, hNew.2 fun _ => h.fetched _ he t hFetch⟩⟩

theorem shift_tableOf (h : Shifted k base names plain v w) (parts : List String) :
    (shift k base names).Ends plain
      (fun s r r' => (shift k base names).Source s r r' ∧ (shift k base names).Plain s r r')
      (run (tableOf parts) v) (run (tableOf parts) w) := by
  unfold tableOf
  rw [run_bind_ok (run_catalog v), run_bind_ok (run_catalog w), h.entries]
  cases hEntry : entryAt? w.catalog.entries (.text (writeParts parts)) with
  | none => exact shift_ends h (.error _)
  | some e =>
    refine readsAlike_shift.ends_bind (shift_rowsOf h (mem_of_entryAt? hEntry))
      fun s r r' v' w' _ hState hRows _ _ => ?_
    refine readsAlike_shift.ends_bind (shift_addToScope hState hRows.1 _)
      fun s' _ _ v'' w'' hLater hState' _ _ _ => shift_ends hState' (.ok ⟨hRows.1, hRows.2.1, ?_⟩)
    exact fun i hi => hLater i (hRows.2.2 i hi)

theorem shift_addKey (h : Shifted k base names plain v w)
    (hr : (shift k base names).Source plain r r') {name : String} (hName : Starred names name)
    (u : Value) :
    (shift k base names).Ends plain (fun _ _ _ => True) (run (addKey r name (u.moved k)) v)
      (run (addKey r' name u) w) := by
  obtain ⟨rfl, hr⟩ := hr
  cases r' with
  | frame j =>
    have hj := hr j rfl
    have hData : keyData (v.tableAt (j + k)) (u.moved k) = keyData (w.tableAt j) u := by
      rw [h.tableAt_eq hj]
      cases u <;> rfl
    rw [Relation.moved, run_addKey, run_addKey, hData, h.frame_eq hj]
    cases keyData (w.tableAt j) u with
    | error e => exact shift_ends h (.error e)
    | ok d =>
      refine ⟨plain, fun _ hi => hi, h.setFrame fun hPlain => ?_, .ok trivial⟩
      refine List.forall_mem_map.2 (Table.names_setColumn (S := {c | Starred names c}) ?_ hName d)
      exact List.forall_mem_map.1 (h.plain j hPlain).2.2
  | absent => exact shift_ends h (.error _)
  | value x => exact shift_ends h (.error _)

theorem lawful_shift : (shift k base names).Lawful where
  toReadsAlike := readsAlike_shift
  own_mono _ h := h
  plain_mono hLater h := ⟨h.1, fun i hi => hLater i (h.2 i hi)⟩
  source_of_own h := h
  own_absent _ := ⟨rfl, nofun⟩
  own_value _ _ := ⟨rfl, nofun⟩
  plain_value _ _ := ⟨rfl, nofun⟩
  starrable := by
    intro plain v w i j hState h
    obtain ⟨hBase, _, hStarred⟩ := Shifted.plain hState j (h.2 j rfl)
    cases Relation.frame.inj h.1
    rw [Shifted.tableAt_eq hState hBase]
    exact fun _ => hStarred
  starrable_of_permits := by
    rintro (h | h)
    · cases h
    · exact starred_of_forall h
  steady := Or.inr columnsStay
  extensions_eq hState := Shifted.extensions hState
  alike_self h := (Value.moved_eq_self k h).symm
  nameless_eq := by
    rintro _ v rfl
    cases v <;> rfl
  cast := by
    rintro _ v rfl type
    exact sameOutcome_moved (by rw [← Value.under_moving, Value.cast_under])
  call _ _ _ _ _ _ _ _ hValues _ _ _ _ hState := shift_call hState _ hValues
  tableOf _ parts _ _ hState := shift_tableOf hState parts
  newFrame _ t _ _ hState := shift_newFrame hState t
  addToScope hr name _ _ hState := shift_addToScope hState hr name
  clearScope s _ _ hState := ⟨s, fun _ hi => hi, Shifted.clearScope hState, .ok trivial⟩
  keyName hPermits hKeyable := by
    refine readsAlike_shift.agree_bind (readsAlike_shift.agree_columnOf
      (hKeyable.elim id And.left) hPermits) fun s' u u' _ hu => ?_
    subst hu
    cases u' with
    | column c origin => exact readsAlike_shift.agree_pure rfl
    | _ => exact readsAlike_shift.agree_throw s' _ _
  addKey := by
    rintro s r r' key u u' hPermits _ hKeyable rfl v w hState
    exact shift_addKey hState (hKeyable.elim id And.left) hPermits u'

end Shift

end Correspondence

end TableQuery
