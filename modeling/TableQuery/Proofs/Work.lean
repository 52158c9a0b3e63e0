import TableQuery.Catalog

/-! Running steps of work. A step ends with an answer or a fault and a workspace in either case, and
a sequence of steps stops at the first fault with the workspace as it is then. -/
namespace TableQuery

open Work

/-- A workspace with some tables, all of them in its cache. -/
def Workspace.ofTables (tables : List (String × Table)) : Workspace where
  drive := {}
  frames := (tables.map fun t => { table := t.2 }).toArray
  catalog :=
    { dir := ""
      entries := tables.zipIdx.map fun (t, i) =>
        (.text t.1, { id := i, name := .text t.1, file? := none, cached := true })
      cache := .memory none (tables.zipIdx.map fun (_, i) => (i, .frame i)) 0 0 }

/-- A workspace with the tables of some files, none of them cached. -/
def Workspace.ofFiles (files : List (String × String)) : Workspace where
  drive := { files := files.map fun f => ([f.1 ++ ".csv"], f.2) }
  catalog :=
    { dir := ""
      entries := files.zipIdx.map fun (f, i) =>
        (.text f.1, { id := i, name := .text f.1, file? := some (.text (f.1 ++ ".csv")) })
      created := files.length }

namespace Work

variable {α β : Type}
variable {w w' : Workspace}

@[simp] theorem run_pure (a : α) (w : Workspace) : run (pure a) w = (.ok a, w) := rfl

@[simp] theorem run_throw (f : Fault) (w : Workspace) :
    run (throw f : Work α) w = (.error f, w) := rfl

theorem run_bind (x : Work α) (f : α → Work β) (w : Workspace) :
    run (x >>= f) w =
      match run x w with
      | (.ok a, w') => run (f a) w'
      | (.error e, w') => (.error e, w') := by
  change ExceptT.bindCont f (run x w).1 (run x w).2 = _
  rcases run x w with ⟨_ | a, w'⟩ <;> rfl

theorem run_bind_ok {x : Work α} {f : α → Work β} {a : α}
    (h : run x w = (.ok a, w')) : run (x >>= f) w = run (f a) w' := by
  rw [run_bind, h]

theorem run_bind_error {x : Work α} {f : α → Work β} {e : Fault}
    (h : run x w = (.error e, w')) : run (x >>= f) w = (.error e, w') := by
  rw [run_bind, h]

/-- A sequence ends with an answer only if both of its parts do. -/
theorem run_bind_eq_ok {x : Work α} {f : α → Work β} {w'' : Workspace} {b : β}
    (h : run (x >>= f) w = (.ok b, w'')) :
    ∃ a w', run x w = (.ok a, w') ∧ run (f a) w' = (.ok b, w'') := by
  rw [run_bind] at h
  split at h
  · rename_i a w' heq
    exact ⟨a, w', heq, h⟩
  · cases h

@[simp] theorem run_lift_ok (a : α) (w : Workspace) : run (lift (.ok a)) w = (.ok a, w) := rfl

@[simp] theorem run_lift_error (f : Fault) (w : Workspace) :
    run (lift (.error f) : Work α) w = (.error f, w) := rfl

theorem run_lift (e : Except Fault α) (w : Workspace) : run (lift e) w = (e, w) := by
  cases e <;> rfl

@[simp] theorem run_catalog (w : Workspace) : run catalog w = (.ok w.catalog, w) := rfl

@[simp] theorem run_drive (w : Workspace) : run drive w = (.ok w.drive, w) := rfl

@[simp] theorem run_setCatalog (f : Catalog → Catalog) (w : Workspace) :
    run (setCatalog f) w = (.ok (), { w with catalog := f w.catalog }) := rfl

@[simp] theorem run_setDrive (d : Drive) (w : Workspace) :
    run (setDrive d) w = (.ok (), { w with drive := d }) := rfl

@[simp] theorem run_frame (id : Nat) (w : Workspace) :
    run (frame id) w = (.ok (w.frames[id]?.getD default), w) := rfl

@[simp] theorem run_setFrame (id : Nat) (f : Frame) (w : Workspace) :
    run (setFrame id f) w = (.ok (), { w with frames := w.frames.set! id f }) := rfl

@[simp] theorem run_newFrame (t : Table) (w : Workspace) : run (newFrame t) w =
      (.ok w.frames.size, { w with frames := w.frames.push { table := t } }) := rfl

end Work

end TableQuery
