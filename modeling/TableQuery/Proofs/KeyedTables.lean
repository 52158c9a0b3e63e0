import TableQuery.Proofs.Conditions
import TableQuery.Proofs.GroupTargets

/-! Tables with columns for the keys of a grouping. A key that is an expression becomes a column of
the table under its text, and what comes later is computed of that table. -/
namespace TableQuery

open List Work Workspace Table

namespace Workspace

variable {w : Workspace} {id : Nat}

def CallsOwn (w : Workspace) (id : Nat) : Prop :=
  ∀ name, (w.frames[id]?.getD default).nameOf name = name

def withColumn (w : Workspace) (id : Nat) (name : String) (d : Data) : Workspace :=
  { w with frames := w.frames.set! id ((w.frames[id]?.getD default).setColumn name d) }

theorem frame_withColumn (w : Workspace) (id : Nat) (name : String) (d : Data) :
    (w.withColumn id name d).frames[id]?.getD default =
      if id < w.frames.size then (w.frames[id]?.getD default).setColumn name d
        else w.frames[id]?.getD default := by
  rw [withColumn, Array.set!_eq_setIfInBounds, Array.getElem?_setIfInBounds_self]
  split
  · rfl
  · rename_i hId
    rw [Array.getElem?_eq_none (Nat.le_of_not_lt hId)]

theorem tableAt_withColumn (h : id < w.frames.size) (name : String) (d : Data) :
    (w.withColumn id name d).tableAt id = (w.tableAt id).setColumn name d := by
  unfold tableAt
  rw [frame_withColumn, if_pos h]
  rfl

/-- The second workspace differs from the first at most in the columns of some names of a table. -/
structure SameBut (id : Nat) (names : List String) (w w' : Workspace) : Prop where
  catalog : w'.catalog = w.catalog
  size : w'.frames.size = w.frames.size
  labels : (w'.tableAt id).labels = (w.tableAt id).labels
  named : ∀ name ∉ names, (w'.tableAt id).named name = (w.tableAt id).named name
  has : ∀ name, (w.tableAt id).has name = true → (w'.tableAt id).has name = true
  callsOwn : w.CallsOwn id → w'.CallsOwn id

namespace SameBut

variable {names : List String} {w' : Workspace}

theorem refl (id : Nat) (names : List String) (w : Workspace) : SameBut id names w w :=
  ⟨rfl, rfl, rfl, fun _ _ => rfl, fun _ h => h, fun h => h⟩

theorem trans {others : List String} {w'' : Workspace} (h : SameBut id names w w')
    (h' : SameBut id others w' w'') : SameBut id (names ++ others) w w'' where
  catalog := h'.catalog.trans h.catalog
  size := h'.size.trans h.size
  labels := h'.labels.trans h.labels
  named name hName := by
    rw [mem_append, not_or] at hName
    exact (h'.named name hName.2).trans (h.named name hName.1)
  has name hName := h'.has name (h.has name hName)
  callsOwn hOwn := h'.callsOwn (h.callsOwn hOwn)

theorem height_eq (h : SameBut id names w w') :
    (w'.tableAt id).height = (w.tableAt id).height := congrArg length h.labels

end SameBut

theorem sameBut_withColumn (w : Workspace) (id : Nat) (name : String) (d : Data) :
    SameBut id [name] w (w.withColumn id name d) := by
  have hSize : (w.withColumn id name d).frames.size = w.frames.size := by simp [withColumn]
  by_cases hId : id < w.frames.size
  · have hTable := tableAt_withColumn hId name d
    refine ⟨rfl, hSize, ?_, fun other hOther => ?_, fun other hOther => ?_, fun hOwn other => ?_⟩
    · rw [hTable, labels_setColumn]
    · rw [hTable, named_setColumn_of_ne (by simpa using hOther)]
    · rw [hTable]
      exact has_setColumn hOther d
    · rw [frame_withColumn, if_pos hId]
      unfold Frame.setColumn Frame.nameOf
      split
      · rfl
      · exact hOwn other
  · have hFrame : (w.withColumn id name d).frames[id]?.getD default =
        w.frames[id]?.getD default := by
      rw [frame_withColumn, if_neg hId]
    have hTable : (w.withColumn id name d).tableAt id = w.tableAt id := congrArg Frame.table hFrame
    refine ⟨rfl, hSize, by rw [hTable], fun _ _ => by rw [hTable], fun _ h => by rwa [hTable],
      fun hOwn other => ?_⟩
    rw [hFrame]
    exact hOwn other

end Workspace

namespace Query

open Sql Work

def columnsValue (id : Nat) (name : String) (labels : List Cell) : List Data → Value
  | [d] => .column ⟨labels, some name, d⟩ (some ⟨id, name⟩)
  | ds => .table ⟨labels, ds.map fun d => (name, d)⟩

theorem run_columnsNamed_own {w : Workspace} {id : Nat} (hOwn : w.CallsOwn id) (name : String) :
    run (columnsNamed id name) w =
      (.ok (columnsValue id name (w.tableAt id).labels ((w.tableAt id).named name)), w) := by
  unfold columnsNamed tableAt
  rw [run_bind_ok (run_frame id w)]
  generalize (w.frames[id]?.getD default).table.named name = ds
  rcases ds with _ | ⟨d, _ | ⟨_, _⟩⟩
  · rfl
  · rw [hOwn name]
    rfl
  · rfl

section Unchanged

variable {id : Nat} {names : List String} {w w' : Workspace}

theorem same_columnOf (h : w.SameBut id names w') (hOwn : w.CallsOwn id) {name : String}
    (hName : name ∉ names) : Same w w' (columnOf [name] (.frame id)) := by
  have hHas : (w'.tableAt id).has name = (w.tableAt id).has name := by
    rw [Bool.eq_iff_iff, has_eq_true_iff, has_eq_true_iff, h.named name hName]
  unfold Same
  rw [run_columnOf_bare, run_columnOf_bare, run_columnsNamed_own hOwn,
    run_columnsNamed_own (h.callsOwn hOwn), hHas, h.named name hName, h.labels]
  split
  · exact ⟨_, rfl, rfl⟩
  · exact ⟨_, rfl, rfl⟩

end Unchanged

end Query

namespace Sql.Node

/-- A key of a grouping: an unqualified column, or an expression over such columns. -/
inductive IsKey : Node → Prop where
  | column (name : String) (tag : Tag) : IsKey (.name [name] tag)
  | expression {form : OpForm} {op : String} {args : List Node} {tag : Tag} :
      (Node.operation form op args tag).IsBare → IsKey (.operation form op args tag)

def keyText (n : Node) : String :=
  match n.tag.alias? with
  | some a => a.render
  | none => n.settled.text

def columnsSet : Node → List String
  | .operation form op args tag => [(Node.operation form op args tag).keyText]
  | _ => []

end Sql.Node

namespace Query

open Sql Work

variable {key : Node} {c : String × Data} {w : Workspace} {names : List String}
variable {id : Nat}

/-- A key of a grouping has some entries over a table that was handed out, in the column of a name.
-/
inductive KeyIs (w : Workspace) (id : Nat) : Node → String × Data → Prop where
  | column {name : String} {d : Data} (tag : Tag) :
      (w.tableAt id).named name = [d] → KeyIs w id (.name [name] tag) (name, d)
  | expression {form : OpForm} {op : String} {args : List Node} {tag : Tag} {v : Value} {d : Data} :
      Work.run (evalExpr (.frame id) (.operation form op args tag)) w = (.ok v, w) →
        keyData (w.tableAt id) v = .ok d →
        KeyIs w id (.operation form op args tag) ((Node.operation form op args tag).keyText, d)

/-- A key has no other entries. -/
theorem KeyIs.unique {c' : String × Data} (h : KeyIs w id key c) (h' : KeyIs w id key c') :
    c = c' := by
  cases h with
  | column tag hNamed =>
    cases h' with
    | column _ hNamed' =>
      cases hNamed.symm.trans hNamed'
      rfl
  | expression hRun hData =>
    cases h' with
    | expression hRun' hData' =>
      cases hRun.symm.trans hRun'
      cases hData.symm.trans hData'
      rfl

def withKey (w : Workspace) (id : Nat) (key : Node) (c : String × Data) : Workspace :=
  match key with
  | .operation _ _ _ _ => w.withColumn id c.1 c.2
  | _ => w

theorem withKey_name (w : Workspace) (id : Nat) (parts : List String) (tag : Tag)
    (c : String × Data) : withKey w id (.name parts tag) c = w := rfl

theorem withKey_operation (w : Workspace) (id : Nat) (form : OpForm) (op : String)
    (args : List Node) (tag : Tag) (c : String × Data) :
    withKey w id (.operation form op args tag) c = w.withColumn id c.1 c.2 := rfl

/-- The keys of a grouping get their entries one after the other, each over the table with those
before. -/
inductive KeysAre (id : Nat) : Workspace → List Node → List (String × Data) → Workspace → Prop where
  | nil (w : Workspace) : KeysAre id w [] [] w
  | cons {w w' : Workspace} {key : Node} {rest : List Node} {c : String × Data}
      {cs : List (String × Data)} :
      KeyIs w id key c → KeysAre id (withKey w id key c) rest cs w' →
        KeysAre id w (key :: rest) (c :: cs) w'

theorem sameBut_withKey (h : KeyIs w id key c) :
    w.SameBut id key.columnsSet (withKey w id key c) := by
  cases h with
  | column tag _ => exact .refl id _ w
  | expression _ _ => exact sameBut_withColumn w id _ _

/-- A key has the same entries over a table in which no column is changed that it refers to. -/
theorem KeyIs.congr {w' : Workspace} (h : w.SameBut id names w') (hOwn : w.CallsOwn id)
    (hKey : key.IsKey) (hNames : ∀ name ∈ names, [name] ∉ key.references) (hc : KeyIs w' id key c) :
    KeyIs w id key c := by
  cases hc with
  | @column name d tag hNamed =>
    refine .column tag ?_
    rw [← h.named name fun hName => hNames name hName (by simp [Node.references])]
    exact hNamed
  | expression hRun hData =>
    cases hKey with
    | expression hBare =>
      obtain ⟨r, hr, hr'⟩ := same_evalExpr h.catalog hBare.flat fun parts hParts => by
        obtain ⟨name, rfl⟩ := hBare.references parts hParts
        exact same_columnOf h hOwn fun hName => hNames name hName hParts
      cases hr'.symm.trans hRun
      have hHeight : (w'.tableAt id).height = (w.tableAt id).height := congrArg length h.labels
      unfold keyData at hData
      rw [h.labels, hHeight] at hData
      exact .expression hr hData

/-- One key after the other gets its entries. -/
theorem keyIs_of_run {w' : Workspace} (hOwn : w.CallsOwn id) (hKey : key.IsKey) {rest : List Node}
    (h : run (evalKeys (.frame id) (key :: rest)) w = (.ok names, w')) :
    ∃ c names', KeyIs w id key c ∧ names = c.1 :: names' ∧
      run (evalKeys (.frame id) rest) (withKey w id key c) = (.ok names', w') := by
  cases hKey with
  | column name tag =>
    rw [evalKeys_name] at h
    obtain ⟨called, w₁, hName, h⟩ := run_bind_eq_ok h
    obtain ⟨names', w₂, hRest, h⟩ := run_bind_eq_ok h
    cases h
    obtain ⟨v, w₃, hColumn, hName⟩ := run_bind_eq_ok hName
    rw [run_columnOf_bare] at hColumn
    split at hColumn
    · rw [run_columnsNamed_own hOwn] at hColumn
      cases hColumn
      rcases hNamed : (w.tableAt id).named name with _ | ⟨d, _ | ⟨_, _⟩⟩
      · rw [hNamed] at hName
        cases hName
      · rw [hNamed] at hName
        cases hName
        exact ⟨(name, d), names', .column tag hNamed, rfl, hRest⟩
      · rw [hNamed] at hName
        cases hName
    · cases hColumn
  | @expression form op args tag hBare =>
    obtain ⟨values, w₁, hArgs, h⟩ := run_bind_eq_ok h
    obtain ⟨v, w₂, hCall, h⟩ := run_bind_eq_ok h
    obtain ⟨_, w₃, hAdd, h⟩ := run_bind_eq_ok h
    obtain ⟨names', w₄, hRest, h⟩ := run_bind_eq_ok h
    cases h
    have hRun : run (evalExpr (.frame id) (.operation form op args tag)) w = (.ok v, w₂) := by
      rw [evalExpr, run_bind_ok hArgs]
      exact hCall
    obtain rfl : w = w₂ := (congrArg Prod.snd ((run_bareExpr id hBare w).symm.trans hRun))
    rw [run_addKey] at hAdd
    cases hData : keyData (w.tableAt id) v with
    | error e =>
      rw [hData] at hAdd
      cases hAdd
    | ok d =>
      rw [hData] at hAdd
      cases hAdd
      exact ⟨(_, d), names', .expression hRun hData, rfl, hRest⟩

theorem exists_keysAre {keys : List Node} (hKeys : ∀ key ∈ keys, key.IsKey) {w' : Workspace}
    (hOwn : w.CallsOwn id) (h : run (evalKeys (.frame id) keys) w = (.ok names, w')) :
    ∃ cs, KeysAre id w keys cs w' ∧ names = cs.map (·.1) := by
  induction keys generalizing w names with
  | nil =>
    cases h
    exact ⟨[], .nil _, rfl⟩
  | cons key rest ih =>
    obtain ⟨hKey, hRest⟩ := forall_mem_cons.1 hKeys
    obtain ⟨c, names', hc, rfl, hRun⟩ := keyIs_of_run hOwn hKey h
    obtain ⟨cs, hcs, rfl⟩ := ih hRest ((sameBut_withKey hc).callsOwn hOwn) hRun
    exact ⟨c :: cs, .cons hc hcs, rfl⟩

/-- No key refers to a column that is called like an expression among the keys before. -/
def FreshKeys (keys : List Node) : Prop :=
  keys.Pairwise fun earlier later => ∀ name ∈ earlier.columnsSet, [name] ∉ later.references

theorem KeyIs.columnsSet_subset (h : KeyIs w id key c) : key.columnsSet ⊆ [c.1] := by
  cases h with
  | column tag _ => exact nil_subset _
  | expression _ _ => exact Subset.refl _

/-- The column that holds the entries of a key has no others. -/
theorem KeyIs.eq_of_mem_named (h : KeyIs w id key c)
    {e : Data} (he : e ∈ ((withKey w id key c).tableAt id).named c.1) : e = c.2 := by
  cases h with
  | column tag hNamed =>
    rw [withKey_name, hNamed] at he
    exact mem_singleton.1 he
  | @expression form op args tag v d _ _ =>
    rw [withKey_operation] at he
    have hId : id < w.frames.size := by
      have hSize := lt_size_of_named (ne_nil_of_mem he)
      rwa [(sameBut_withColumn w id _ d).size] at hSize
    rw [tableAt_withColumn hId] at he
    exact eq_of_mem_named_setColumn he

namespace KeysAre

variable {w' : Workspace} {keys : List Node} {cs : List (String × Data)}

theorem length_eq (h : KeysAre id w keys cs w') : cs.length = keys.length := by
  induction h with
  | nil w => rfl
  | cons _ _ ih => rw [length_cons, length_cons, ih]

theorem sameBut (h : KeysAre id w keys cs w') : w.SameBut id (keys.flatMap Node.columnsSet) w' := by
  induction h with
  | nil w => exact .refl id _ w
  | cons hc _ ih => exact (sameBut_withKey hc).trans ih

theorem columnsSet_subset (h : KeysAre id w keys cs w') :
    keys.flatMap Node.columnsSet ⊆ cs.map (·.1) := by
  induction h with
  | nil w => exact nil_subset _
  | cons hc _ ih =>
    refine append_subset.2 ⟨fun name hName => ?_, fun name hName => mem_cons_of_mem _ (ih hName)⟩
    exact mem_cons.2 (Or.inl (mem_singleton.1 (hc.columnsSet_subset hName)))

/-- The keys have these entries over the source itself if they are fresh. -/
theorem forall₂_keyIs (h : KeysAre id w keys cs w') (hOwn : w.CallsOwn id)
    (hKeys : ∀ key ∈ keys, key.IsKey) (hFresh : FreshKeys keys) : Forall₂ (KeyIs w id) keys cs := by
  induction h with
  | nil w => exact .nil
  | @cons w w' key rest c cs hc hRest ih =>
    obtain ⟨hFirst, hFresh⟩ := pairwise_cons.1 hFresh
    have hRestKeys := (forall_mem_cons.1 hKeys).2
    have hSame := sameBut_withKey hc
    refine .cons hc ?_
    have hOver := (forall₂_and_left _ _).2
      ⟨fun key hKey => And.intro (hRestKeys key hKey) (hFirst key hKey),
        ih (hSame.callsOwn hOwn) hRestKeys hFresh⟩
    exact hOver.imp fun key c' hc' => hc'.2.congr hSame hOwn hc'.1.1 hc'.1.2

/-- In the end the columns of keys of different names hold their entries. -/
theorem eq_of_mem_named (h : KeysAre id w keys cs w') (hOnce : (cs.map (·.1)).Nodup) :
    ∀ c ∈ cs, ∀ e ∈ (w'.tableAt id).named c.1, e = c.2 := by
  induction h with
  | nil w => exact fun _ hc => absurd hc not_mem_nil
  | @cons w w' key rest c cs hc hRest ih =>
    obtain ⟨hNew, hOnce⟩ := nodup_cons.1 hOnce
    refine forall_mem_cons.2 ⟨fun e he => ?_, ih hOnce⟩
    rw [hRest.sameBut.named c.1 fun hSet => hNew (hRest.columnsSet_subset hSet)] at he
    exact hc.eq_of_mem_named he

/-- The keys are columns of the table in the end. -/
theorem has (h : KeysAre id w keys cs w') (hId : id < w.frames.size) :
    ∀ c ∈ cs, (w'.tableAt id).has c.1 = true := by
  induction h with
  | nil w => exact fun _ hc => absurd hc not_mem_nil
  | @cons w w' key rest c cs hc hRest ih =>
    have hSame := sameBut_withKey hc
    refine forall_mem_cons.2 ⟨hRest.sameBut.has c.1 ?_, ih (by rwa [hSame.size])⟩
    cases hc with
    | column tag hNamed =>
      rw [withKey_name, has_eq_true_iff, hNamed]
      exact cons_ne_nil _ _
    | expression _ _ =>
      rw [withKey_operation, tableAt_withColumn hId]
      exact has_setColumn_self _ _ _

end KeysAre

end Query

end TableQuery
