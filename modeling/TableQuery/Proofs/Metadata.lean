import TableQuery.Proofs.Agreement
import TableQuery.Proofs.DocumentText
import TableQuery.Session

/-! The metadata file of a catalog. Saving empties the file and then writes the text of the entries
to it, so the file stays empty if some entry has no text. Opening a catalog saves it, and so does
every change. -/
namespace TableQuery

open List Work Document Drive Catalog

variable {key : Document}

namespace Drive

variable {d : Drive} {s : String} {path : Path}

theorem lookup_setFile_self (files : List (Path × String)) (path : Path) (text : String) :
    (setFile files path text).lookup path = some text := by
  induction files with
  | nil => simp [setFile]
  | cons f rest ih =>
    by_cases hPath : f.1 = path
    · simp [setFile, hPath]
    · have hPath' : (path == f.1) = false := by simpa using fun h => hPath h.symm
      rw [setFile, if_neg (by simpa using hPath), lookup_cons, hPath']
      exact ih

theorem lookup_setFile_of_ne {p : Path} (h : p ≠ path) (files : List (Path × String))
    (text : String) : (setFile files path text).lookup p = files.lookup p := by
  induction files with
  | nil => simp [setFile, h]
  | cons f rest ih =>
    by_cases hPath : f.1 = path
    · have hp : (p == path) = false := by simpa using h
      rw [setFile, if_pos (by simpa using hPath), lookup_cons, lookup_cons, hPath, hp]
    · rw [setFile, if_neg (by simpa using hPath), lookup_cons, lookup_cons, ih]

def put (d : Drive) (path : Path) (text : String) : Drive :=
  { d with files := setFile d.files path text }

/-- A file can be written at a path: its directory is there, it is no directory itself, and it need
not be made where no file can be made. -/
structure Accepts (d : Drive) (s : String) (path : Path) : Prop where
  path_eq : Path.ofString? s = some path
  notDirectory : d.isDirectory path = false
  noFileAbove : ((ancestors path.dropLast).any fun p => (d.file? p).isSome) = false
  parent : d.isDirectory path.dropLast = true
  unlocked : ((d.file? path).isNone && d.locked.contains path.dropLast) = false

theorem Accepts.write (h : d.Accepts s path) (text : String) :
    d.write s text = .ok (d.put path text) := by
  simp only [Drive.write, h.path_eq, h.notDirectory, h.noFileAbove, h.parent, h.unlocked, put,
    Bool.not_true, Bool.false_eq_true, if_false]

theorem accepts_of_write {d' : Drive} {text : String} (h : d.write s text = .ok d') :
    ∃ path, d.Accepts s path ∧ d' = d.put path text := by
  unfold write at h
  split at h
  · cases h
  · rename_i path hPath
    split_ifs at h with hDirectory hAbove hParent hLocked
    cases h
    exact ⟨path, ⟨hPath, by simpa using hDirectory, by simpa using hAbove, by simpa using hParent,
      Bool.eq_false_of_not_eq_true hLocked⟩, rfl⟩

theorem Accepts.read_put (h : d.Accepts s path) (text : String) :
    (d.put path text).read s = .ok text := by
  simp only [read, h.path_eq, file?, put, lookup_setFile_self]

theorem ne_of_mem_ancestors_dropLast {p : Path} (h : p ∈ ancestors path.dropLast) : p ≠ path := by
  obtain ⟨i, hi, rfl⟩ := mem_map.1 h
  rw [mem_range] at hi
  intro hEq
  have hLength := congrArg length hEq
  simp only [length_take, length_dropLast] at hi hLength
  omega

theorem Accepts.put (h : d.Accepts s path) (text : String) : (d.put path text).Accepts s path where
  path_eq := h.path_eq
  notDirectory := h.notDirectory
  noFileAbove := by
    have hAbove := h.noFileAbove
    simp only [any_eq_false] at hAbove ⊢
    intro p hp
    rw [file?, Drive.put, lookup_setFile_of_ne (ne_of_mem_ancestors_dropLast hp)]
    exact hAbove p hp
  parent := h.parent
  unlocked := by
    rw [file?, Drive.put, lookup_setFile_self]
    rfl

theorem put_put (d : Drive) (path : Path) (text text' : String) :
    (d.put path text).put path text' = d.put path text' := by
  have hFiles (files : List (Path × String)) :
      setFile (setFile files path text) path text' = setFile files path text' := by
    induction files with
    | nil => simp [setFile]
    | cons f rest ih => by_cases h : f.1 = path <;> simp [setFile, h, ih]
  exact congrArg (fun files => { d with files }) (hFiles d.files)

theorem pathExists_put (h : d.pathExists s = true) (path : Path)
    (text : String) : (d.put path text).pathExists s = true := by
  unfold pathExists at h ⊢
  cases hPath : Path.ofString? s with
  | none =>
    rw [hPath] at h
    exact h
  | some p =>
    rw [hPath, Option.any_some, holds, Bool.or_eq_true] at h
    rw [Option.any_some, holds, Bool.or_eq_true]
    refine h.imp id fun hFile => ?_
    by_cases hp : p = path
    · rw [hp, file?, put, lookup_setFile_self]
      rfl
    · rw [file?, put, lookup_setFile_of_ne hp]
      exact hFile

theorem mem_ancestors_self (h : path ≠ []) : path ∈ ancestors path := by
  refine mem_map.2 ⟨path.length - 1, mem_range.2 ?_, ?_⟩
  · exact Nat.sub_lt (length_pos_of_ne_nil h) Nat.one_pos
  · rw [Nat.sub_add_cancel (length_pos_of_ne_nil h), take_length]

theorem read_eq_ok_iff {text : String} :
    d.read s = .ok text ↔ ∃ path, Path.ofString? s = some path ∧ d.file? path = some text := by
  constructor
  · intro h
    unfold read at h
    split at h
    · cases h
    · rename_i path hPath
      split at h
      · rename_i hFile
        exact ⟨path, hPath, hFile.trans (congrArg some (Except.ok.inj h))⟩
      · split_ifs at h
  · rintro ⟨path, hPath, hFile⟩
    simp only [read, hPath, hFile]

theorem pathExists_of_read {text : String} (h : d.read s = .ok text) : d.pathExists s = true := by
  obtain ⟨path, hPath, hFile⟩ := read_eq_ok_iff.1 h
  rw [pathExists, hPath, Option.any_some, holds, hFile, Option.isSome_some, Bool.or_true]

/-- A directory that was made is there. -/
theorem pathExists_makeDirectories {d' : Drive} (h : d.makeDirectories s = .ok d') :
    d'.pathExists s = true := by
  unfold makeDirectories at h
  split at h
  · cases h
  · rename_i path hPath
    split at h
    · cases h
    · cases h
      rw [pathExists, hPath, Option.any_some, holds, Bool.or_eq_true]
      left
      by_cases hEmpty : path = []
      · rw [hEmpty]
        rfl
      · rw [isDirectory, Bool.or_eq_true, contains_iff_mem, mem_append, mem_filter]
        by_cases hOld : d.isDirectory path = true
        · rw [isDirectory, Bool.or_eq_true, contains_iff_mem] at hOld
          exact hOld.imp id .inl
        · exact .inr (.inr ⟨mem_ancestors_self hEmpty, by simpa using hOld⟩)

theorem files_makeDirectories {d' : Drive} (h : d.makeDirectories s = .ok d') :
    d'.files = d.files := by
  unfold makeDirectories at h
  split at h
  · cases h
  · split at h <;> cases h
    rfl

end Drive

namespace Document

theorem sameKey_text (a b : String) : sameKey (.text a) (.text b) = (a == b) := by
  simp [sameKey, isScalar, toCell, Cell.same]

end Document

variable {entries : List (Document × Entry)}

/-- An entry whose key is not there is set at the end. -/
theorem setEntry_of_new (h : ∀ old ∈ entries, old.1.sameKey key = false) (e : Entry) :
    setEntry entries key e = entries ++ [(key, e)] := by
  induction entries with
  | nil => rfl
  | cons old rest ih =>
    rw [setEntry, if_neg (by simp [h old mem_cons_self]),
      ih fun other hOther => h other (mem_cons_of_mem _ hOther), cons_append]

/-- An entry whose key is there is set in its place. -/
theorem map_setEntry_of_old (h : ∃ old ∈ entries, old.1.sameKey key = true) (e : Entry) :
    (setEntry entries key e).map (·.1) = entries.map (·.1) := by
  induction entries with
  | nil => simp at h
  | cons old rest ih =>
    by_cases hOld : old.1.sameKey key = true
    · simp [setEntry, hOld]
    · rw [setEntry, if_neg hOld, map_cons, ih (by simpa [hOld] using h), map_cons]

theorem entryAt?_eq_none_iff :
    entryAt? entries key = none ↔ ∀ old ∈ entries, old.1.sameKey key = false := by
  simp [entryAt?]

theorem entryAt?_append (more : List (Document × Entry)) (key : Document) :
    entryAt? (entries ++ more) key = (entryAt? entries key).or (entryAt? more key) := by
  simp [entryAt?, find?_append, Option.map_or]

def TextKeyed (entries : List (Document × Entry)) : Prop :=
  ∃ names : List String, names.Nodup ∧ entries.map (·.1) = names.map Document.text

theorem TextKeyed.exists_text (h : TextKeyed entries) : ∀ e ∈ entries, ∃ s, e.1 = .text s := by
  obtain ⟨names, -, hKeys⟩ := h
  intro e he
  have hMem : e.1 ∈ names.map text := hKeys ▸ mem_map_of_mem he
  obtain ⟨s, _, hs⟩ := mem_map.1 hMem
  exact ⟨s, hs.symm⟩

theorem TextKeyed.distinct (h : TextKeyed entries) :
    entries.Pairwise fun a b => a.1.sameKey b.1 = false := by
  obtain ⟨names, hNodup, hKeys⟩ := h
  have hPairs : (entries.map (·.1)).Pairwise fun a b => a.sameKey b = false := by
    rw [hKeys, pairwise_map]
    refine hNodup.imp fun {a b} hNe => ?_
    rw [sameKey_text]
    simpa using hNe
  exact pairwise_map.1 hPairs

/-- Keys that differ and are all texts are distinct texts. -/
theorem textKeyed_of_distinct (h : entries.Pairwise fun a b => a.1.sameKey b.1 = false)
    (hText : ∀ e ∈ entries, ∃ s, e.1 = .text s) : TextKeyed entries := by
  refine ⟨entries.map fun e => e.1.memberName, ?_, ?_⟩
  · refine pairwise_map.2 (h.imp_of_mem fun {a b} ha hb hNe => ?_)
    obtain ⟨s, hs⟩ := hText a ha
    obtain ⟨t, ht⟩ := hText b hb
    rw [hs, ht, sameKey_text] at hNe
    simpa [hs, ht, memberName] using hNe
  · rw [map_map]
    refine map_congr_left fun e he => ?_
    obtain ⟨s, hs⟩ := hText e he
    simp [hs, memberName]

/-- Setting an entry under a text keeps the keys distinct texts. -/
theorem TextKeyed.setEntry (h : TextKeyed entries) (s : String)
    (e : Entry) : TextKeyed (setEntry entries (.text s) e) := by
  obtain ⟨names, hNodup, hKeys⟩ := h
  by_cases hOld : ∃ old ∈ entries, old.1.sameKey (.text s) = true
  · exact ⟨names, hNodup, (map_setEntry_of_old hOld e).trans hKeys⟩
  · have hNew : ∀ old ∈ entries, old.1.sameKey (.text s) = false := by simpa using hOld
    refine ⟨names ++ [s], ?_, by rw [setEntry_of_new hNew, map_append, hKeys, map_append]; rfl⟩
    refine nodup_append.2 ⟨hNodup, by simp, ?_⟩
    rintro name hName t ht rfl
    have hMem : text name ∈ entries.map (·.1) := hKeys ▸ mem_map_of_mem hName
    obtain ⟨old, hMem, hEq⟩ := mem_map.1 hMem
    have hSame := hNew old hMem
    rw [hEq, mem_singleton.1 ht, sameKey_text] at hSame
    simp at hSame

theorem eq_of_sameKey_text {d : Document} {s : String} (hText : ∃ t, d = .text t)
    (h : d.sameKey (.text s) = true) : d = .text s := by
  obtain ⟨t, rfl⟩ := hText
  rw [sameKey_text, beq_iff_eq] at h
  rw [h]

section SetEntry

variable (hText : ∀ e ∈ entries, ∃ s, e.1 = .text s) (s : String) (e : Entry)

include hText

theorem mem_setEntry {x : Document × Entry} (hx : x ∈ setEntry entries (.text s) e) :
    x ∈ entries ∨ x = (.text s, e) := by
  induction entries with
  | nil => exact .inr (mem_singleton.1 hx)
  | cons old rest ih =>
    rw [setEntry] at hx
    split at hx
    · rename_i hSame
      rcases mem_cons.1 hx with rfl | hx
      · rw [eq_of_sameKey_text (hText old mem_cons_self) hSame]
        exact .inr rfl
      · exact .inl (mem_cons_of_mem _ hx)
    · rcases mem_cons.1 hx with rfl | hx
      · exact .inl mem_cons_self
      · exact (ih (fun x hx => hText x (mem_cons_of_mem _ hx)) hx).imp_left (mem_cons_of_mem _)

theorem mem_keys_setEntry :
    key ∈ (setEntry entries (.text s) e).map (·.1) ↔ key ∈ entries.map (·.1) ∨ key = .text s := by
  induction entries with
  | nil => simp [setEntry]
  | cons old rest ih =>
    rw [setEntry]
    split
    · rename_i hSame
      rw [map_cons, map_cons, mem_cons, eq_of_sameKey_text (hText old mem_cons_self) hSame]
      exact (or_iff_left_of_imp .inl).symm
    · rw [map_cons, mem_cons, ih fun x hx => hText x (mem_cons_of_mem _ hx)]
      simp [or_assoc]

end SetEntry

/-- Entries that are set one after the other are all that there is then, and their keys are all
there. -/
theorem foldl_setEntry {first : Nat} {pairs : List ((Document × Entry) × Nat)}
    (hPairs : ∀ p ∈ pairs, ∃ s, p.1.1 = .text s) {all : List (Document × Entry)}
    (hKeyed : TextKeyed entries)
    (hAll : pairs.foldl (fun all ((key, e), i) => setEntry all key { e with id := first + i })
      entries = all) :
    TextKeyed all ∧
    (∀ x ∈ all, x ∈ entries ∨ ∃ p ∈ pairs, x = (p.1.1, { p.1.2 with id := first + p.2 })) ∧
    ∀ key, key ∈ all.map (·.1) ↔ key ∈ entries.map (·.1) ∨ ∃ p ∈ pairs, key = p.1.1 := by
  induction pairs generalizing entries with
  | nil =>
    obtain rfl : entries = all := hAll
    exact ⟨hKeyed, by simp⟩
  | cons p rest ih =>
    obtain ⟨⟨key, e⟩, i⟩ := p
    obtain ⟨s, rfl⟩ := hPairs _ mem_cons_self
    have hText := hKeyed.exists_text
    obtain ⟨hAllKeyed, hMem, hKeys⟩ :=
      ih (fun p hp => hPairs p (mem_cons_of_mem _ hp)) (hKeyed.setEntry s _) hAll
    refine ⟨hAllKeyed, fun x hx => ?_, fun key => ?_⟩
    · rcases hMem x hx with hx | ⟨p, hp, rfl⟩
      · rcases mem_setEntry hText s _ hx with hx | rfl
        · exact .inl hx
        · exact .inr ⟨_, mem_cons_self, rfl⟩
      · exact .inr ⟨p, mem_cons_of_mem _ hp, rfl⟩
    · rw [hKeys, mem_keys_setEntry hText]
      simp [or_assoc]

namespace Catalog

/-- Entries that are read have the names of their members as keys. -/
theorem map_readEntries {first : Nat} {ms : List (String × Document)}
    (h : readEntries first ms = .ok entries) : entries.map (·.1) = (ms.map (·.1)).map text := by
  induction ms generalizing first entries with
  | nil =>
    cases h
    rfl
  | cons m rest ih =>
    obtain ⟨e, _, h⟩ := bind_eq_ok h
    obtain ⟨others, hOthers, h⟩ := bind_eq_ok h
    cases h
    rw [map_cons, ih hOthers]
    rfl

/-- An entry that is read has a text. -/
theorem unwritable_ofDocument {id : Nat} {d : Document} {e : Entry}
    (h : Entry.ofDocument id d = .ok e) : e.unwritable? = none := by
  unfold Entry.ofDocument at h
  dsimp only at h
  repeat' split at h
  all_goals cases h
  all_goals rfl

theorem unwritable_readEntries {first : Nat} {ms : List (String × Document)}
    (h : readEntries first ms = .ok entries) : ∀ e ∈ entries, e.2.unwritable? = none := by
  induction ms generalizing first entries with
  | nil =>
    cases h
    simp
  | cons m rest ih =>
    obtain ⟨e, hEntry, h⟩ := bind_eq_ok h
    obtain ⟨others, hOthers, h⟩ := bind_eq_ok h
    cases h
    exact forall_mem_cons.2 ⟨unwritable_ofDocument hEntry, ih hOthers⟩

theorem unwritable_load {drive : Drive} {dir : String} {loaded : List (Document × Entry)}
    (h : load drive dir = .ok loaded) : ∀ e ∈ loaded, e.2.unwritable? = none := by
  unfold load at h
  dsimp only at h
  split at h
  · obtain ⟨text, _, h⟩ := bind_eq_ok h
    obtain ⟨d, hRead, h⟩ := bind_eq_ok h
    split at h
    · exact unwritable_readEntries h
    · cases h
  · cases h
    simp

theorem textKeyed_load {drive : Drive} {dir : String} {loaded : List (Document × Entry)}
    (h : load drive dir = .ok loaded) : TextKeyed loaded := by
  unfold load at h
  dsimp only at h
  split at h
  · obtain ⟨text, _, h⟩ := bind_eq_ok h
    obtain ⟨d, hRead, h⟩ := bind_eq_ok h
    split at h
    · rename_i ms
      exact ⟨ms.map (·.1), nodup_of_read hRead, map_readEntries h⟩
    · cases h
  · cases h
    exact ⟨[], nodup_nil, rfl⟩

end Catalog

namespace Entry

/-- Two entries are for the same table: of one kind, with one name, one plan and one file. -/
structure SameTable (a b : Entry) : Prop where
  kind : a.kindName = b.kindName
  name : a.name = b.name
  plan : a.plan = b.plan
  file : a.file? = b.file?

end Entry

/-- Each entry stands under the name of one of the tables in lower case, and it is for that table.
-/
def StandFor (entries : List (Document × Entry)) (given : List Entry) : Prop :=
  ∀ e ∈ entries, ∃ g ∈ given, ∃ s, g.name = .text s ∧ e.1 = .text (Text.lower s) ∧ e.2.SameTable g

/-- The tables that are given stand under their names in lower case, one for each. -/
theorem standFor_nameEntries {first : Nat} {given : List Entry} {named : List (Document × Entry)}
    (h : nameEntries first given = .ok named) : TextKeyed named ∧ StandFor named given ∧
      ∀ g ∈ given, ∃ s, g.name = .text s ∧ .text (Text.lower s) ∈ named.map (·.1) := by
  obtain ⟨pairs, hPairs, h⟩ := bind_eq_ok h
  have hRule : Forall₂ (fun g p => ∃ s, g.name = .text s ∧ p = (text (Text.lower s), g)) given
      pairs := by
    refine (mapM_eq_ok_iff.1 hPairs).imp fun g p hp => ?_
    split at hp
    · rename_i s hName
      exact ⟨s, hName, (Except.ok.inj hp).symm⟩
    · cases hp
  have hText : ∀ p ∈ pairs.zipIdx, ∃ s, p.1.1 = .text s := by
    intro p hp
    obtain ⟨g, _, s, _, hPair⟩ := exists_mem_left hRule (fst_mem_of_mem_zipIdx hp)
    exact ⟨_, congrArg Prod.fst hPair⟩
  obtain ⟨hKeyed, hMem, hKeys⟩ := foldl_setEntry hText ⟨[], nodup_nil, rfl⟩ (Except.ok.inj h)
  refine ⟨hKeyed, fun e he => ?_, fun g hg => ?_⟩
  · obtain he | ⟨p, hp, rfl⟩ := hMem e he
    · cases he
    · obtain ⟨g, hg, s, hName, hPair⟩ := exists_mem_left hRule (fst_mem_of_mem_zipIdx hp)
      rw [hPair]
      exact ⟨g, hg, s, hName, rfl, rfl, rfl, rfl, rfl⟩
  · obtain ⟨p, hp, s, hName, rfl⟩ := exists_mem_right hRule hg
    refine ⟨s, hName, (hKeys _).2 (.inr ?_)⟩
    rw [← zipIdx_map_fst 0 pairs] at hp
    obtain ⟨q, hq, hEq⟩ := mem_map.1 hp
    exact ⟨q, hq, by rw [hEq]⟩

namespace Catalog

variable {c : Catalog}
variable {names : List String}

theorem entryAt?_of_find {found : Option Entry} (h : c.find key = .ok found) :
    entryAt? c.entries key = found := by
  unfold find at h
  split at h
  · exact Except.ok.inj h
  · cases h

/-- The names of the members that describe entries are the keys of these. -/
theorem map_memberName (hKeys : entries.map (·.1) = names.map text) :
    (entries.map fun (key, e) => (key.memberName, e.toDocument)).map (·.1) = names := by
  have hMap := congrArg (map memberName) hKeys
  simp only [map_map] at hMap ⊢
  exact hMap.trans (map_id' _)

end Catalog

def Workspace.withEntry (w : Workspace) (e : Entry) : Workspace :=
  { w with catalog :=
    { w.catalog with
      entries := w.catalog.entries ++ [(e.name, { e with id := w.catalog.created })]
      created := w.catalog.created + 1 } }

def Workspace.withoutEntry (w : Workspace) (key : Document) : Workspace :=
  { w with catalog := { w.catalog with
    entries := w.catalog.entries.filter fun e => !e.1.sameKey key } }

/-- What opening a catalog does once its tables are saved. -/
def Workspace.linked (w : Workspace) (cache : Cache Relation)
    (extensions : List (String × Extension)) : Workspace :=
  { w with catalog :=
    { w.catalog with
      entries := w.catalog.entries.map fun (key, e) => (key, { e with cached := true })
      cache
      extensions } }

/-- A directory is there, and its metadata file can be written. -/
structure Drive.TakesMetadata (d : Drive) (dir : String) : Prop where
  dirExists : d.pathExists dir = true
  writable : d.isWritable dir = true
  accepts : ∃ path, d.Accepts (metadataPath dir) path

/-- A catalog can be saved: its metadata file can be written, and each entry has a text. -/
structure Workspace.Ready (w : Workspace) (dir : String) :
    Prop extends w.drive.TakesMetadata dir where
  dir_eq : w.catalog.dir = dir
  written : ∀ e ∈ w.catalog.entries, e.2.unwritable? = none

structure Workspace.Mirrored (dir : String) (w : Workspace) : Prop extends w.Ready dir where
  text : w.drive.read (metadataPath dir) = .ok w.catalog.toDocument.print

theorem Workspace.Ready.withEntry {w : Workspace} {dir : String} {e : Entry} (h : w.Ready dir)
    (he : e.unwritable? = none) : (w.withEntry e).Ready dir :=
  ⟨h.toTakesMetadata, h.dir_eq, forall_mem_append.2 ⟨h.written, forall_mem_singleton.2 he⟩⟩

namespace Work

open Workspace

variable {w : Workspace} {I : Workspace → Prop} {e : Entry}

theorem dump_eq_ok {c : Catalog} (h : ∀ e ∈ c.entries, e.2.unwritable? = none) :
    c.dump = .ok c.toDocument.print := by
  unfold dump
  rw [findSome?_eq_none_iff.2 h]

/-- There is no text if some entry has none. -/
theorem dump_eq_error {c : Catalog} {f : Fault} (h : c.dump = .error f) :
    ∃ e ∈ c.entries, e.2.unwritable? = some f := by
  unfold dump at h
  split at h
  · rename_i found hFound
    cases h
    exact exists_of_findSome?_eq_some hFound
  · cases h

theorem dump_cases (c : Catalog) :
    (∃ f, c.dump = .error f) ∨
    (∀ e ∈ c.entries, e.2.unwritable? = none) ∧ c.dump = .ok c.toDocument.print := by
  unfold dump
  cases hFound : c.entries.findSome? fun e => e.2.unwritable? with
  | some f => exact .inl ⟨f, rfl⟩
  | none => exact .inr ⟨findSome?_eq_none_iff.1 hFound, rfl⟩

theorem run_ensureDirectory {dir : String} (h : w.drive.pathExists dir = true) :
    run (ensureDirectory dir) w = (.ok (), w) := by
  unfold ensureDirectory
  rw [run_bind_ok (run_drive w), h]
  rfl

/-- Making sure of a directory fails and does nothing, or leaves the files. -/
theorem run_ensureDirectory_cases (dir : String) (w : Workspace) :
    (∃ f, run (ensureDirectory dir) w = (.error f, w)) ∨
      ∃ d, run (ensureDirectory dir) w = (.ok (), { w with drive := d }) ∧ d.files = w.drive.files ∧
        d.pathExists dir = true := by
  unfold ensureDirectory
  rw [run_bind_ok (run_drive w)]
  split
  · cases hMade : w.drive.makeDirectories dir with
    | error f => exact .inl ⟨f, rfl⟩
    | ok d => exact .inr ⟨d, rfl, files_makeDirectories hMade, pathExists_makeDirectories hMade⟩
  · rename_i hExists
    exact .inr ⟨w.drive, rfl, rfl, by simpa using hExists⟩

section Saving

variable {path : Path} (hExists : w.drive.pathExists w.catalog.dir = true)
  (hWritable : w.drive.isWritable w.catalog.dir = true)
  (hAccepts : w.drive.Accepts (metadataPath w.catalog.dir) path)

include hExists hWritable hAccepts

/-- Saving writes the text of the entries, and nothing else. -/
theorem run_saveMetadata_put (hDump : w.catalog.dump = .ok w.catalog.toDocument.print) :
    run (saveMetadata true) w =
      (.ok (), { w with drive := w.drive.put path w.catalog.toDocument.print }) := by
  unfold saveMetadata
  rw [run_bind_ok (run_catalog w), run_bind_ok (run_ensureDirectory hExists),
    run_bind_ok (run_drive w)]
  simp only [hWritable, hAccepts.write, hDump, Bool.not_true, Bool.false_eq_true, if_false,
    Bool.false_and]
  change run (lift (Drive.write (w.drive.put path "") _ _) >>= setDrive) _ = _
  rw [(hAccepts.put "").write, put_put]
  rfl

/-- Entries without a text leave the file empty. -/
theorem run_saveMetadata_empty {f : Fault} (hDump : w.catalog.dump = .error f) :
    run (saveMetadata true) w = (.error f, { w with drive := w.drive.put path "" }) := by
  unfold saveMetadata
  rw [run_bind_ok (run_catalog w), run_bind_ok (run_ensureDirectory hExists),
    run_bind_ok (run_drive w)]
  simp only [hWritable, hAccepts.write, hDump, Bool.not_true, Bool.false_eq_true, if_false,
    Bool.false_and]
  rfl

end Saving

/-- Saving succeeds where all is ready, and then the file holds the text of the entries. -/
theorem run_saveMetadata {dir : String} (h : w.Ready dir) :
    ∃ d, run (saveMetadata true) w = (.ok (), { w with drive := d }) ∧
      { w with drive := d }.Ready dir ∧
      d.read (metadataPath dir) = .ok w.catalog.toDocument.print := by
  obtain ⟨⟨hExists, hWritable, path, hAccepts⟩, hDir, hWritten⟩ := h
  subst hDir
  exact ⟨w.drive.put path w.catalog.toDocument.print,
    run_saveMetadata_put hExists hWritable hAccepts (dump_eq_ok hWritten),
    ⟨⟨pathExists_put hExists _ _, hWritable, path, hAccepts.put _⟩, rfl, hWritten⟩,
    hAccepts.read_put _⟩

/-- A file that cannot be written is left, and so is all else. -/
theorem accepts_or_fails (hExists : w.drive.pathExists w.catalog.dir = true) :
    (w.drive.isWritable w.catalog.dir = true ∧
      ∃ path, w.drive.Accepts (metadataPath w.catalog.dir) path) ∨
    ∃ f, run (saveMetadata true) w = (.error f, w) := by
  unfold saveMetadata
  rw [run_bind_ok (run_catalog w), run_bind_ok (run_ensureDirectory hExists),
    run_bind_ok (run_drive w)]
  cases hWritable : w.drive.isWritable w.catalog.dir with
  | false => exact .inr ⟨.query (.notWritable w.catalog.dir), rfl⟩
  | true =>
    cases hWrite : w.drive.write (metadataPath w.catalog.dir) "" with
    | error f => exact .inr ⟨f, rfl⟩
    | ok d =>
      obtain ⟨path, hAccepts, -⟩ := accepts_of_write hWrite
      exact .inl ⟨rfl, path, hAccepts⟩

/-- Saving fails and leaves the files; or it leaves the metadata file empty, since some entry has no
text; or it writes the text of the entries, and then all is ready. -/
theorem run_saveMetadata_cases (w : Workspace) :
    (∃ f d, run (saveMetadata true) w = (.error f, { w with drive := d }) ∧
      d.files = w.drive.files) ∨
    ∃ (d : Drive) (path : Path), d.files = w.drive.files ∧
      d.Accepts (metadataPath w.catalog.dir) path ∧
      ((∃ f, w.catalog.dump = .error f ∧
          run (saveMetadata true) w = (.error f, { w with drive := d.put path "" })) ∨
        run (saveMetadata true) w =
          (.ok (), { w with drive := d.put path w.catalog.toDocument.print }) ∧
        { w with drive := d.put path w.catalog.toDocument.print }.Ready w.catalog.dir) := by
  obtain ⟨f, hEnsured⟩ | ⟨d, hEnsured, hFiles, hExists⟩ := run_ensureDirectory_cases w.catalog.dir w
  · unfold saveMetadata
    rw [run_bind_ok (run_catalog w), run_bind_error hEnsured]
    exact .inl ⟨f, w.drive, rfl, rfl⟩
  -- The directory is there now, so making sure of it once more does nothing.
  have hSame : run (saveMetadata true) w = run (saveMetadata true) { w with drive := d } := by
    unfold saveMetadata
    rw [run_bind_ok (run_catalog w), run_bind_ok hEnsured, run_bind_ok (run_catalog _),
      run_bind_ok (run_ensureDirectory hExists)]
  rw [hSame]
  obtain ⟨hWritable, path, hAccepts⟩ | ⟨f, hFails⟩ :=
    accepts_or_fails (w := { w with drive := d }) hExists
  · refine .inr ⟨d, path, hFiles, hAccepts, ?_⟩
    obtain ⟨f, hDump⟩ | ⟨hWritten, hDump⟩ := dump_cases w.catalog
    · exact .inl ⟨f, hDump,
        run_saveMetadata_empty (w := { w with drive := d }) hExists hWritable hAccepts hDump⟩
    · exact .inr ⟨run_saveMetadata_put (w := { w with drive := d }) hExists hWritable hAccepts
          hDump,
        ⟨pathExists_put hExists _ _, hWritable, path, hAccepts.put _⟩, rfl, hWritten⟩
  · exact .inl ⟨f, d, hFails, hFiles⟩

theorem catalog_saveMetadata (w : Workspace) :
    (run (saveMetadata true) w).2.catalog = w.catalog := by
  obtain ⟨f, d, hRun, -⟩ | ⟨d, path, -, -, ⟨f, -, hRun⟩ | ⟨hRun, -⟩⟩ :=
    run_saveMetadata_cases w <;> rw [hRun]

/-- Where saving succeeded all is ready. -/
theorem ready_of_saveMetadata {w' : Workspace} (h : run (saveMetadata true) w = (.ok (), w')) :
    w'.Ready w.catalog.dir ∧ w'.catalog = w.catalog ∧
      w'.drive.read (metadataPath w.catalog.dir) = .ok w.catalog.toDocument.print := by
  obtain ⟨f, d, hRun, -⟩ | ⟨d, path, -, hAccepts, ⟨f, -, hRun⟩ | ⟨hRun, hReady⟩⟩ :=
    run_saveMetadata_cases w
  all_goals cases hRun.symm.trans h
  exact ⟨hReady, rfl, hAccepts.read_put _⟩

/-- An entry whose name is free is set at the end, and then the entries are saved. Otherwise nothing
is done. -/
theorem run_addEntry_cases (e : Entry) (w : Workspace) :
    (w.catalog.find e.name = .ok none ∧
      run (addEntry e) w = run (saveMetadata true) (w.withEntry e)) ∨
    w.catalog.find e.name ≠ .ok none ∧ ∃ f, run (addEntry e) w = (.error f, w) := by
  unfold addEntry
  rw [run_bind_ok (run_catalog w)]
  rcases hFind : w.catalog.find e.name with f | _ | old
  · exact .inr ⟨by simp, _, rfl⟩
  · have hNew := entryAt?_eq_none_iff.1 (entryAt?_of_find hFind)
    refine .inl ⟨rfl, ?_⟩
    rw [run_bind_ok (run_lift_ok none w), run_bind_ok (run_setCatalog _ w), setEntry_of_new hNew]
    rfl
  · exact .inr ⟨by simp, _, rfl⟩

theorem run_addEntry_of_new (h : w.catalog.find e.name = .ok none) :
    run (addEntry e) w = run (saveMetadata true) (w.withEntry e) := by
  obtain ⟨_, hRun⟩ | ⟨hTaken, _⟩ := run_addEntry_cases e w
  · exact hRun
  · exact absurd h hTaken

/-- The entry of a file has its name and its path, and is not cached. -/
theorem fields_of_ofFile {id : Nat} {drive : Drive} {path : String} {clean : Bool}
    (h : Entry.ofFile id drive path clean = .ok e) :
    e.name = .text (Path.withoutExtension (Path.baseName path)) ∧ e.file? = some (.text path) ∧
    e.cached = false := by
  obtain ⟨raw, _, h⟩ := bind_eq_ok h
  split at h
  · cases h
    split <;> exact ⟨rfl, rfl, rfl⟩
  · cases h
    exact ⟨rfl, rfl, rfl⟩

theorem unwritable_ofFile {id : Nat} {drive : Drive} {path : String} {clean : Bool}
    (h : Entry.ofFile id drive path clean = .ok e) : e.unwritable? = none := by
  obtain ⟨raw, _, h⟩ := bind_eq_ok h
  split at h
  · cases h
    split <;> rfl
  · cases h
    rfl

theorem run_addFile (path : String) (clean : Bool) (w : Workspace) : run (addFile path clean) w =
      match Entry.ofFile 0 w.drive path clean with
      | .ok e => run (addEntry e) w
      | .error f => (.error f, w) := by
  unfold addFile
  rw [run_bind_ok (run_drive w)]
  cases Entry.ofFile 0 w.drive path clean <;> rfl

/-- An entry that is there is taken away, and then the entries are saved. Otherwise nothing is done.
-/
theorem run_dropEntry_cases (key : Document) (w : Workspace) :
    (∃ old, w.catalog.find key = .ok (some old) ∧
      run (dropEntry key) w = run (saveMetadata true) (w.withoutEntry key)) ∨
    (∀ old, w.catalog.find key ≠ .ok (some old)) ∧ ∃ f, run (dropEntry key) w = (.error f, w) := by
  unfold dropEntry
  rw [run_bind_ok (run_catalog w)]
  rcases hFind : w.catalog.find key with f | _ | old
  · exact .inr ⟨by simp, _, rfl⟩
  · exact .inr ⟨by simp, _, rfl⟩
  · exact .inl ⟨old, rfl, rfl⟩

/-- A new entry keeps what the entries with it keep while they are saved. -/
theorem maintains_addEntry_of (h : ∀ w, I w → entryAt? w.catalog.entries e.name = none →
    I (run (saveMetadata true) (w.withEntry e)).2) : Maintains I (addEntry e) := by
  intro w hw
  obtain ⟨hFind, hRun⟩ | ⟨_, f, hRun⟩ := run_addEntry_cases e w
  all_goals rw [hRun]
  · exact h w hw (entryAt?_of_find hFind)
  · exact hw

theorem maintains_dropEntry_of (h : ∀ w, I w →
    I (run (saveMetadata true) (w.withoutEntry key)).2) : Maintains I (dropEntry key) := by
  intro w hw
  obtain ⟨old, _, hRun⟩ | ⟨_, f, hRun⟩ := run_dropEntry_cases key w
  all_goals rw [hRun]
  · exact h w hw
  · exact hw

/-- The metadata mirrors the catalog again once the table of a file is added. -/
theorem maintains_addFile (dir path : String) (clean : Bool) :
    Maintains (Mirrored dir) (addFile path clean) := by
  intro w hw
  rw [run_addFile]
  cases hFile : Entry.ofFile 0 w.drive path clean with
  | error f => exact hw
  | ok e =>
    refine maintains_addEntry_of (I := Mirrored dir) (fun w hw _ => ?_) w hw
    obtain ⟨d, hRun, hReady, hText⟩ :=
      run_saveMetadata (hw.toReady.withEntry (unwritable_ofFile hFile))
    rw [hRun]
    exact ⟨hReady, hText⟩

/-- The entry of a file keeps what an entry of its name without a link keeps. -/
theorem maintains_addFile_of {path : String} {clean : Bool}
    (h : ∀ e, e.name = .text (Path.withoutExtension (Path.baseName path)) → e.cached = false →
      Maintains I (addEntry e)) : Maintains I (addFile path clean) := by
  intro w hw
  rw [run_addFile]
  cases hFile : Entry.ofFile 0 w.drive path clean with
  | error f => exact hw
  | ok e => exact h e (fields_of_ofFile hFile).1 (fields_of_ofFile hFile).2.2 w hw

theorem maintains_listing : Maintains I listing :=
  maintains_catalog.bind fun _ => (maintains_lift _).bind fun _ => maintains_pure _

section Changes

variable (hAdd : ∀ path clean, Maintains I (addFile path clean))

include hAdd

/-- What adding one file keeps, adding many files keeps. -/
theorem maintains_addFiles_of (filesDir : String) (names : List String) :
    Maintains I (addFiles filesDir names) := by
  induction names with
  | nil => exact maintains_pure _
  | cons name rest ih =>
    unfold addFiles
    split
    · exact (hAdd _ true).bind fun _ => ih
    · exact ih

/-- What adding a file and dropping a table keep, every command keeps. -/
theorem maintains_execute_of (hDrop : ∀ key, Maintains I (dropEntry key)) (command : Command) :
    Maintains I (execute command) := by
  unfold execute
  split
  · exact maintains_pure _
  · exact (hAdd _ _).bind fun _ => maintains_pure _
  · exact maintains_throw _
  · exact (hDrop _).bind fun _ => maintains_pure _
  · exact maintains_throw _
  · exact maintains_listing.bind fun _ => maintains_pure _

/-- A statement is a command, or a query, which changes neither entries nor files. -/
theorem maintains_query_of (hI : OutlastsQueries I) (hDrop : ∀ key, Maintains I (dropEntry key))
    (sql : String) : Maintains I (query sql) := by
  refine (maintains_lift _).bind fun c => ?_
  cases c with
  | some command => exact maintains_execute_of hAdd hDrop command
  | none => exact (maintains_lift _).bind fun n => Query.maintains_eval hI true n

end Changes

section Opening

variable {dir : String} {given : List Entry} {cache : Cache Relation}
  {extensions : List (String × Extension)} {w' : Workspace}

/-- Opening a catalog saves the catalog of the directory. -/
theorem run_openCatalog {d : Drive} {c : Catalog}
    (hEnsured : run (ensureDirectory dir) w = (.ok (), { w with drive := d }))
    (hCatalog : catalogOf d dir given = .ok c) :
    run (openCatalog dir given cache extensions) w =
      run (saveMetadata true >>=
        fun _ => setCache cache >>= fun _ => setCatalog fun c => { c with extensions })
        { w with drive := d, catalog := c } := by
  unfold openCatalog
  rw [run_bind_ok hEnsured, run_bind_ok (run_drive _), hCatalog, run_bind_ok (run_lift_ok c _),
    run_bind_ok (run_setCatalog _ _)]

/-- The catalog of a directory has the entries that are loaded, or those that are given if there are
none. -/
theorem catalogOf_eq_ok {d : Drive} {c : Catalog} (h : catalogOf d dir given = .ok c) :
    ∃ named loaded, nameEntries 0 given = .ok named ∧ load d dir = .ok loaded ∧
      (loaded = [] ∨ named = []) ∧ c.dir = dir ∧
      c.entries = if loaded.isEmpty then named else loaded := by
  obtain ⟨named, hNamed, h⟩ := bind_eq_ok h
  obtain ⟨loaded, hLoaded, h⟩ := bind_eq_ok h
  refine ⟨named, loaded, hNamed, hLoaded, ?_⟩
  cases hBoth : !loaded.isEmpty && !named.isEmpty with
  | true =>
    rw [if_pos hBoth] at h
    cases h
  | false =>
    rw [if_neg (by simp [hBoth])] at h
    cases h
    refine ⟨?_, rfl, rfl⟩
    by_cases hEmpty : loaded = []
    · exact .inl hEmpty
    · exact .inr (by simpa [hEmpty] using hBoth)

/-- An opening comes so far that a catalog is saved, to a file that can be written. -/
structure Reaches (dir : String) (given : List Entry) (w : Workspace) (d : Drive) (path : Path)
    (c : Catalog) : Prop where
  ensured : run (ensureDirectory dir) w = (.ok (), { w with drive := d })
  files : d.files = w.drive.files
  dirExists : d.pathExists dir = true
  catalog : catalogOf d dir given = .ok c
  writable : d.isWritable dir = true
  accepts : d.Accepts (metadataPath dir) path

section Reaches

variable {d : Drive} {path : Path} {c : Catalog} (h : Reaches dir given w d path c)

include h

theorem Reaches.dir_eq : c.dir = dir := by
  obtain ⟨_, _, _, _, _, hDir, _⟩ := catalogOf_eq_ok h.catalog
  exact hDir

/-- An opening that came so far succeeds if each entry has a text. -/
theorem Reaches.run_of_written (hWritten : ∀ e ∈ c.entries, e.2.unwritable? = none) :
    run (openCatalog dir given cache extensions) w =
      (.ok (),
        linked { w with drive := d.put path c.toDocument.print, catalog := c } cache
          extensions) := by
  obtain rfl := h.dir_eq
  rw [run_openCatalog h.ensured h.catalog,
    run_bind_ok (run_saveMetadata_put (w := { w with drive := d, catalog := c }) h.dirExists
      h.writable h.accepts (dump_eq_ok hWritten))]
  rfl

/-- It leaves an empty file if some entry has none. -/
theorem Reaches.run_of_unwritable {f : Fault} (hDump : c.dump = .error f) :
    run (openCatalog dir given cache extensions) w =
      (.error f, { w with drive := d.put path "", catalog := c }) := by
  obtain rfl := h.dir_eq
  rw [run_openCatalog h.ensured h.catalog,
    run_bind_error (run_saveMetadata_empty (w := { w with drive := d, catalog := c }) h.dirExists
      h.writable h.accepts hDump)]

end Reaches

/-- An opening that does not come so far fails, and leaves the files. -/
theorem reaches_or_fails (dir : String) (given : List Entry) (cache : Cache Relation)
    (extensions : List (String × Extension)) (w : Workspace) :
    (∃ d path c, Reaches dir given w d path c) ∨
    ∃ f w', run (openCatalog dir given cache extensions) w = (.error f, w') ∧
      w'.drive.files = w.drive.files := by
  obtain ⟨f, hEnsured⟩ | ⟨d, hEnsured, hFiles, hExists⟩ := run_ensureDirectory_cases dir w
  · refine .inr ⟨f, w, ?_, rfl⟩
    unfold openCatalog
    rw [run_bind_error hEnsured]
  cases hCatalog : catalogOf d dir given with
  | error f =>
    refine .inr ⟨f, { w with drive := d }, ?_, hFiles⟩
    unfold openCatalog
    rw [run_bind_ok hEnsured, run_bind_ok (run_drive _), hCatalog]
    rfl
  | ok c =>
    obtain ⟨_, _, _, _, _, rfl, _⟩ := catalogOf_eq_ok hCatalog
    obtain ⟨hWritable, path, hAccepts⟩ | ⟨f, hFails⟩ :=
      accepts_or_fails (w := { w with drive := d, catalog := c }) hExists
    · exact .inl ⟨d, path, c, hEnsured, hFiles, hExists, hCatalog, hWritable, hAccepts⟩
    · exact .inr ⟨f, _, (run_openCatalog hEnsured hCatalog).trans (run_bind_error hFails), hFiles⟩

/-- Opening a catalog fails and leaves the files; or it leaves the metadata file empty; or it
succeeds. -/
theorem openCatalog_cases {r : Except Fault Unit}
    (h : run (openCatalog dir given cache extensions) w = (r, w')) :
    (∃ f, r = .error f ∧ w'.drive.files = w.drive.files ∧
      ∀ d path c, ¬Reaches dir given w d path c) ∨
    ∃ d path c, Reaches dir given w d path c ∧
      ((∃ f, c.dump = .error f ∧ r = .error f ∧
          w' = { w with drive := d.put path "", catalog := c }) ∨
        (∀ e ∈ c.entries, e.2.unwritable? = none) ∧ r = .ok () ∧
        w' =
          linked { w with drive := d.put path c.toDocument.print, catalog := c } cache
            extensions) := by
  by_cases hReaches : ∃ d path c, Reaches dir given w d path c
  · obtain ⟨d, path, c, hReaches⟩ := hReaches
    refine .inr ⟨d, path, c, hReaches, ?_⟩
    obtain ⟨f, hDump⟩ | ⟨hWritten, -⟩ := dump_cases c
    · rw [hReaches.run_of_unwritable hDump] at h
      cases h
      exact .inl ⟨f, hDump, rfl, rfl⟩
    · rw [hReaches.run_of_written hWritten] at h
      cases h
      exact .inr ⟨hWritten, rfl, rfl⟩
  · obtain ⟨f, v, hRun, hFiles⟩ :=
      (reaches_or_fails dir given cache extensions w).resolve_left hReaches
    rw [hRun] at h
    cases h
    exact .inl ⟨f, rfl, hFiles, fun d path c hReach => hReaches ⟨d, path, c, hReach⟩⟩

/-- An opening that succeeds saved the catalog of the directory. -/
theorem openCatalog_eq_ok (h : run (openCatalog dir given cache extensions) w = (.ok (), w')) :
    ∃ d path c, Reaches dir given w d path c ∧ (∀ e ∈ c.entries, e.2.unwritable? = none) ∧
      w' =
        linked { w with drive := d.put path c.toDocument.print, catalog := c } cache
          extensions := by
  obtain ⟨f, hError, _⟩ | ⟨d, path, c, hReaches, ⟨f, _, hError, _⟩ | ⟨hWritten, _, hw'⟩⟩ :=
    openCatalog_cases h
  · cases hError
  · cases hError
  · exact ⟨d, path, c, hReaches, hWritten, hw'⟩

/-- A catalog that was opened has its metadata saved. -/
theorem mirrored_of_openCatalog
    (h : run (openCatalog dir given cache extensions) w = (.ok (), w')) : Mirrored dir w' := by
  obtain ⟨d, path, c, hReaches, hWritten, rfl⟩ := openCatalog_eq_ok h
  have hDocument : (c.entries.map fun (key, e) => (key, { e with cached := true })).map
      (fun (key, e) => (key.memberName, e.toDocument)) =
      c.entries.map fun (key, e) => (key.memberName, e.toDocument) := map_map
  refine ⟨⟨⟨pathExists_put hReaches.dirExists _ _, hReaches.writable, path, hReaches.accepts.put _⟩,
    hReaches.dir_eq, forall_mem_map.2 hWritten⟩, ?_⟩
  change (d.put path c.toDocument.print).read _ = .ok (object _).print
  rw [hReaches.accepts.read_put]
  exact congrArg (fun ms => Except.ok (object ms).print) hDocument.symm

/-- Tables that are loaded all have texts. -/
theorem Reaches.written_of_nil {d : Drive} {path : Path} {c : Catalog}
    (h : Reaches dir [] w d path c) : ∀ e ∈ c.entries, e.2.unwritable? = none := by
  obtain ⟨named, loaded, hNamed, hLoaded, _, _, hEntries⟩ := catalogOf_eq_ok h.catalog
  cases hNamed
  rw [hEntries]
  split
  · simp
  · exact unwritable_load hLoaded

/-- An opening without tables that fails leaves the files. -/
theorem files_of_failed_opening {f : Fault}
    (h : run (openCatalog dir [] cache extensions) w = (.error f, w')) :
    w'.drive.files = w.drive.files := by
  obtain ⟨_, _, hFiles, _⟩ | ⟨d, path, c, hReaches, ⟨f, hDump, _⟩ | ⟨_, hOk, _⟩⟩ :=
    openCatalog_cases h
  · exact hFiles
  · rw [dump_eq_ok hReaches.written_of_nil] at hDump
    cases hDump
  · cases hOk

/-- Opening a catalog with files fails and leaves the files where the catalog was not opened.
Otherwise it leaves what adding the files left. -/
theorem openFiles_cases {filesDir : String} {r : Except Fault Unit}
    (h : run (openFiles dir filesDir) w = (r, w')) :
    (r ≠ .ok () ∧ w'.drive.files = w.drive.files ∧
      ∀ names w₁, w.drive.list filesDir = .ok names →
        run (openCatalog dir [] (Cache.fresh none) []) w ≠ (.ok (), w₁)) ∨
    ∃ names w₁ s, w.drive.list filesDir = .ok names ∧
      run (openCatalog dir [] (Cache.fresh none) []) w = (.ok (), w₁) ∧
      run (addFiles filesDir names) w₁ = (s, w') := by
  unfold openFiles at h
  rw [run_bind_ok (run_drive w)] at h
  cases hList : w.drive.list filesDir with
  | error fault =>
    rw [hList] at h
    cases h
    exact .inl ⟨nofun, rfl, fun names w₁ hNames => by cases hNames⟩
  | ok names =>
    rw [hList, run_bind_ok (run_lift_ok names w)] at h
    rcases hOpen : run (openCatalog dir [] (Cache.fresh none) []) w with ⟨fault | _, w₁⟩
    · rw [run_bind_error hOpen] at h
      cases h
      exact .inl ⟨nofun, files_of_failed_opening hOpen, fun names w₂ _ hOk => by cases hOk⟩
    · rw [run_bind_ok hOpen] at h
      rcases hAdd : run (addFiles filesDir names) w₁ with ⟨fault | _, w₂⟩
      · rw [run_bind_error hAdd] at h
        cases h
        exact .inr ⟨names, w₁, _, rfl, rfl, hAdd⟩
      · rw [run_bind_ok hAdd, run_bind_ok (run_catalog w₂)] at h
        split at h
        all_goals
          cases h
          exact .inr ⟨names, w₁, _, rfl, rfl, hAdd⟩

end Opening

/-- A catalog is opened on a directory, with some tables if there is no metadata; on one whose
metadata is taken away; or with the tables of some files. -/
inductive Opening where
  | onDirectory (dir : String) (given : List Entry) (cache : Cache Relation)
    (extensions : List (String × Extension))
  | anew (dir : String) (given : List Entry)
  | withFiles (dir filesDir : String)

def Opening.dir : Opening → String
  | .onDirectory dir _ _ _ => dir
  | .anew dir _ => dir
  | .withFiles dir _ => dir

def Opening.work : Opening → Work Unit
  | .onDirectory dir given cache extensions => openCatalog dir given cache extensions
  | .anew dir given => createCatalog dir given
  | .withFiles dir filesDir => openFiles dir filesDir

inductive Step where
  | addTable (e : Entry)
  | addFile (path : String) (clean : Bool)
  | dropTable (key : Document)
  | execute (command : Command)
  | query (sql : String)
  | evaluate (reduce : Bool) (n : Sql.Node)
  | setCache (cache : Cache Relation)
  | register (name : String) (f : Extension)

def Step.after (w : Workspace) : Step → Workspace
  | .addTable e => (Work.run (Work.addEntry e) w).2
  | .addFile path clean => (Work.run (Work.addFile path clean) w).2
  | .dropTable key => (Work.run (dropEntry key) w).2
  | .execute command => (Work.run (Work.execute command) w).2
  | .query sql => (Work.run (Work.query sql) w).2
  | .evaluate reduce n => (Work.run (Query.eval reduce n) w).2
  | .setCache cache => (Work.run (Work.setCache cache) w).2
  | .register name f => (Work.run (Work.register name f) w).2

def Step.afterAll (w : Workspace) (steps : List Step) : Workspace := steps.foldl Step.after w

section Steps

variable (hAdd : ∀ path clean, Maintains I (Work.addFile path clean))
  (hDrop : ∀ key, Maintains I (dropEntry key)) (hI : OutlastsQueries I)
  (hExtensions : ∀ f : Catalog → List (String × Extension),
    Maintains I (setCatalog fun c => { c with extensions := f c }))

include hAdd hDrop hI hExtensions

/-- What the other steps keep, every step keeps if it does where it adds a table or puts a cache in
place. -/
theorem Step.after_of {step : Step} (hTable : ∀ e, step = .addTable e → Maintains I (addEntry e))
    (hCache : ∀ cache, step = .setCache cache → Maintains I (Work.setCache cache)) (hw : I w) :
    I (step.after w) := by
  cases step with
  | addTable e => exact hTable e rfl w hw
  | addFile path clean => exact hAdd path clean w hw
  | dropTable key => exact hDrop key w hw
  | execute command => exact maintains_execute_of hAdd hDrop command w hw
  | query sql => exact maintains_query_of hAdd hI hDrop sql w hw
  | evaluate reduce n => exact Query.maintains_eval hI reduce n w hw
  | setCache cache => exact hCache cache rfl w hw
  | register name f =>
    exact ((hExtensions fun c => setNamed c.extensions name f).bind fun _ =>
      maintains_catalog.bind fun _ => maintains_pure _) w hw

end Steps

end Work

end TableQuery
