import TableQuery.Proofs.Metadata
import TableQuery.Proofs.Rereading

/-! Entries that stand under their own names. Adding and dropping entries keeps them so, and so does
saving and loading them. Tables that are given to an opening stand under their names in lower case.
-/
namespace TableQuery

open List Document Catalog

variable {first : Nat}

/-- Each entry stands under its name, and these are distinct texts. -/
structure NameKeyed (entries : List (Document × Entry)) : Prop where
  distinct : entries.Pairwise fun a b => a.1.sameKey b.1 = false
  named : ∀ e ∈ entries, ∃ s, e.1 = .text s ∧ e.2.name = .text s

namespace NameKeyed

variable {entries : List (Document × Entry)}
variable {e : Document × Entry}

theorem nil : NameKeyed [] := ⟨.nil, by simp⟩

theorem filter (h : NameKeyed entries) (p : Document × Entry → Bool) :
    NameKeyed (entries.filter p) where
  distinct := h.distinct.filter p
  named e he := h.named e (mem_of_mem_filter he)

theorem map (h : NameKeyed entries) {f : Entry → Entry} (hf : ∀ e, (f e).name = e.name) :
    NameKeyed (entries.map fun (key, e) => (key, f e)) where
  distinct := pairwise_map.2 h.distinct
  named := by
    intro e he
    obtain ⟨old, hOld, rfl⟩ := mem_map.1 he
    rw [hf]
    exact h.named old hOld

theorem append (h : NameKeyed entries) {e : Entry} {s : String} (hName : e.name = .text s)
    (hNew : ∀ old ∈ entries, old.1.sameKey e.name = false) :
    NameKeyed (entries ++ [(e.name, e)]) where
  distinct := pairwise_append.2
    ⟨h.distinct, pairwise_singleton _ _, fun old hOld new hn => by
      rw [mem_singleton.1 hn]
      exact hNew old hOld⟩
  named := by
    intro entry hEntry
    rcases mem_append.1 hEntry with hOld | hn
    · exact h.named entry hOld
    · rw [mem_singleton.1 hn]
      exact ⟨s, hName, hName⟩

theorem textKeyed (h : NameKeyed entries) : TextKeyed entries :=
  textKeyed_of_distinct h.distinct fun e he => (h.named e he).imp fun _ hKey => hKey.1

theorem key_eq (h : NameKeyed entries) (he : e ∈ entries) : e.1 = e.2.name := by
  obtain ⟨s, hKey, hName⟩ := h.named e he
  rw [hKey, hName]

/-- Looking for the name of an entry finds that entry alone. -/
theorem sameKey_iff (h : NameKeyed entries) {a b : Document × Entry} (ha : a ∈ entries)
    (hb : b ∈ entries) : a.1.sameKey b.2.name = true ↔ a.2.name = b.2.name := by
  obtain ⟨s, hKey, hName⟩ := h.named a ha
  obtain ⟨t, _, hOther⟩ := h.named b hb
  rw [hKey, hName, hOther, sameKey_text, beq_iff_eq, text.injEq]

theorem exists_find {c : Catalog} (h : NameKeyed c.entries) (he : e ∈ c.entries) :
    ∃ old, c.find e.2.name = .ok (some old) := by
  obtain ⟨s, _, hName⟩ := h.named e he
  have hFind : c.find e.2.name = .ok (entryAt? c.entries e.2.name) := by
    rw [hName]
    rfl
  cases hEntry : entryAt? c.entries e.2.name with
  | some old => exact ⟨old, by rw [hFind, hEntry]⟩
  | none =>
    have hSelf := (h.sameKey_iff he he).2 rfl
    rw [entryAt?_eq_none_iff.1 hEntry e he] at hSelf
    cases hSelf

theorem name_ne (h : NameKeyed entries) : entries.Pairwise fun a b => a.2.name ≠ b.2.name := by
  refine h.distinct.imp_of_mem fun {a b} ha hb hNe hSame => ?_
  rw [h.key_eq hb, (h.sameKey_iff ha hb).2 hSame] at hNe
  cases hNe

end NameKeyed

namespace Entry

variable {id : Nat}

theorem lookup_name_toDocument (e : Entry) :
    ∃ ms, e.toDocument = .object ms ∧ (ms.map (·.1)).Nodup ∧ ms.lookup "name" = some e.name := by
  unfold toDocument
  cases e.file? with
  | none => exact ⟨_, rfl, by simp, rfl⟩
  | some path => exact ⟨_, rfl, by simp, rfl⟩

theorem lookup_name_of_ofDocument {ms : List (String × Document)} {e : Entry}
    (h : ofDocument id (.object ms) = .ok e) : ms.lookup "name" = some e.name := by
  -- Every way to an entry goes through the member with the name.
  unfold ofDocument at h
  dsimp only at h
  repeat' split at h
  all_goals cases h
  all_goals assumption

/-- An entry that is read from the text of another has its name, if this is a text. -/
theorem name_of_readAs {e e' : Entry} {d : Document} {s : String} (hRead : e.toDocument.ReadAs d)
    (hEntry : ofDocument id d = .ok e') (hName : e.name = .text s) : e'.name = .text s := by
  obtain ⟨ms, hDocument, hNames, hLookup⟩ := e.lookup_name_toDocument
  rw [hDocument] at hRead
  obtain ⟨ms', rfl, hMembers⟩ := hRead.object hNames
  obtain ⟨d', hLookup', hText⟩ := hMembers.lookup hLookup
  rw [lookup_name_of_ofDocument hEntry, Option.some.injEq] at hLookup'
  rw [hName] at hText
  rw [hLookup', hText.text]

end Entry

namespace Catalog

variable {loaded : List (Document × Entry)} {drive : Drive}

/-- Entries that are read from the text of others stand under their names, as the others do. -/
theorem named_of_readEntries {entries : List (Document × Entry)} {ms : List (String × Document)}
    (hNamed : ∀ e ∈ entries, ∃ s, e.1 = .text s ∧ e.2.name = .text s)
    (hMembers : MembersReadAs (entries.map fun (key, e) => (key.memberName, e.toDocument)) ms)
    (hLoaded : readEntries first ms = .ok loaded) :
    ∀ e ∈ loaded, ∃ s, e.1 = .text s ∧ e.2.name = .text s := by
  induction entries generalizing ms first loaded with
  | nil =>
    cases hMembers
    cases hLoaded
    simp
  | cons entry rest ih =>
    obtain ⟨s, hKey, hName⟩ := hNamed entry mem_cons_self
    cases hMembers with
    | @cons _ m _ ms hFirst hRest =>
      obtain ⟨e, hEntry, hLoaded⟩ := bind_eq_ok hLoaded
      obtain ⟨others, hOthers, hLoaded⟩ := bind_eq_ok hLoaded
      cases hLoaded
      have hMember : m.1 = s := hFirst.1.trans (congrArg memberName hKey)
      intro found hFound
      rcases mem_cons.1 hFound with rfl | hFound
      · exact ⟨s, congrArg text hMember, Entry.name_of_readAs hFirst.2 hEntry hName⟩
      · exact ih (fun e he => hNamed e (mem_cons_of_mem _ he)) hRest hOthers found hFound

def Describes (text : String) (entries : List (Document × Entry)) : Prop :=
  ∃ ms, Document.read text = .ok (.object ms) ∧ readEntries 0 ms = .ok entries

/-- The text of entries that stand under their names describes such entries only. -/
theorem nameKeyed_of_describes {c : Catalog} (h : NameKeyed c.entries)
    (hLoaded : Describes c.toDocument.print loaded) : NameKeyed loaded := by
  obtain ⟨ms, hRead, hLoaded⟩ := hLoaded
  obtain ⟨names, hNodup, hKeys⟩ := h.textKeyed
  obtain ⟨ms', hSame, hMembers⟩ :=
    (readAs_of_read hRead).object (by rw [map_memberName hKeys]; exact hNodup)
  obtain rfl := object.inj hSame
  exact ⟨TextKeyed.distinct ⟨ms.map (·.1), nodup_of_read hRead, map_readEntries hLoaded⟩,
    named_of_readEntries h.named hMembers hLoaded⟩

/-- An empty text describes no entries, not even none of them. -/
theorem not_describes_empty : ¬Describes "" loaded := by
  rintro ⟨ms, hRead, -⟩
  cases hRead

theorem load_eq_ok {dir : String} (h : load drive dir = .ok loaded) :
    loaded = [] ∨ ∃ text, drive.read (metadataPath dir) = .ok text ∧ Describes text loaded := by
  unfold load at h
  dsimp only at h
  split at h
  · obtain ⟨text, hText, h⟩ := bind_eq_ok h
    obtain ⟨d, hRead, h⟩ := bind_eq_ok h
    split at h
    · exact .inr ⟨text, hText, _, hRead, h⟩
    · cases h
  · cases h
    exact .inl rfl

theorem load_of_describes {dir text : String} (hText : drive.read (metadataPath dir) = .ok text)
    (hLoaded : Describes text loaded) : load drive dir = .ok loaded := by
  obtain ⟨ms, hRead, hLoaded⟩ := hLoaded
  simp only [load, Drive.pathExists_of_read hText, if_true, hText, hRead, bind, Except.bind]
  exact hLoaded

end Catalog

namespace Drive

variable {text : String}

def KeyedByName (d : Drive) : Prop :=
  ∀ dir loaded, Catalog.load d dir = .ok loaded → NameKeyed loaded

variable {d d' : Drive}

theorem keyedByName_of_read
    (h : ∀ dir text loaded, d.read (metadataPath dir) = .ok text → Describes text loaded →
      NameKeyed loaded) : d.KeyedByName := by
  intro dir loaded hLoad
  rcases load_eq_ok hLoad with rfl | ⟨text, hText, hLoaded⟩
  · exact .nil
  · exact h dir text loaded hText hLoaded

/-- What is read stands under its name if each text was there before, or describes such entries
itself. -/
theorem KeyedByName.of_read (h : d.KeyedByName)
    (hRead : ∀ s text, d'.read s = .ok text →
      d.read s = .ok text ∨ ∀ loaded, Describes text loaded → NameKeyed loaded) :
    d'.KeyedByName := by
  refine keyedByName_of_read fun dir text loaded hText hLoaded => ?_
  rcases hRead _ text hText with hOld | hNew
  · exact h dir loaded (load_of_describes hOld hLoaded)
  · exact hNew loaded hLoaded

theorem KeyedByName.of_files (h : d.KeyedByName) (hFiles : d'.files = d.files) :
    d'.KeyedByName := by
  refine h.of_read fun s text hText => .inl ?_
  obtain ⟨path, hPath, hFile⟩ := read_eq_ok_iff.1 hText
  rw [file?, hFiles] at hFile
  exact read_eq_ok_iff.2 ⟨path, hPath, hFile⟩

theorem KeyedByName.put (h : d.KeyedByName) (path : Path)
    (hText : ∀ loaded, Describes text loaded → NameKeyed loaded) :
    (d.put path text).KeyedByName := by
  refine h.of_read fun s found hFound => ?_
  obtain ⟨p, hPath, hFile⟩ := read_eq_ok_iff.1 hFound
  by_cases hSame : p = path
  · rw [hSame, file?, Drive.put, lookup_setFile_self] at hFile
    exact .inr (Option.some.inj hFile ▸ hText)
  · rw [file?, Drive.put, lookup_setFile_of_ne hSame] at hFile
    exact .inl (read_eq_ok_iff.2 ⟨p, hPath, hFile⟩)

theorem lookup_of_lookup_filter {files : List (Path × String)} {path p : Path}
    (h : (files.filter fun f => f.1 != path).lookup p = some text) :
    files.lookup p = some text := by
  have hNe : p ≠ path := by
    rintro rfl
    have hNone : (files.filter fun f => f.1 != p).lookup p = none :=
      lookup_eq_none_iff.2 fun f hf => by
        rw [bne_comm]
        exact (mem_filter.1 hf).2
    rw [hNone] at h
    cases h
  rw [← h]
  clear h
  induction files with
  | nil => rfl
  | cons f rest ih =>
    by_cases hf : f.1 = path
    · have hp : (p == f.1) = false := by simpa [hf] using hNe
      rw [lookup_cons, hp, filter_cons_of_neg (by simpa using hf)]
      exact ih
    · rw [filter_cons_of_pos (by simpa using hf), lookup_cons, lookup_cons, ih]

theorem KeyedByName.remove (h : d.KeyedByName) {s : String} (hRemoved : d.remove s = .ok d') :
    d'.KeyedByName := by
  refine h.of_read fun other text hText => .inl ?_
  obtain ⟨p, hPath, hFile⟩ := read_eq_ok_iff.1 hText
  refine read_eq_ok_iff.2 ⟨p, hPath, ?_⟩
  unfold Drive.remove at hRemoved
  split at hRemoved
  · cases hRemoved
  · split_ifs at hRemoved
    cases hRemoved
    exact lookup_of_lookup_filter hFile

end Drive

end TableQuery
