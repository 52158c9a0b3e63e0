import TableQuery.Proofs.SameValues

/-! The rows that joins pair. Equality of keys is an equivalence, and each kind of join lists every
row that belongs to it once, so the numbers of their rows balance. -/
namespace TableQuery

open List Data

namespace Cell

variable {a : Cell}

namespace SameValue

variable {b c : Cell}

theorem symm (h : SameValue a b) : SameValue b a := by
  cases h with
  | refl => exact .refl a
  | nums ha hb hPlace => exact .nums hb ha hPlace.symm

theorem trans (h : SameValue a b) (h' : SameValue b c) : SameValue a c := by
  cases h with
  | refl => exact h'
  | nums ha hb hPlace =>
    obtain ⟨n, hc, hPlace'⟩ := h'.exists_place hb
    exact .nums ha hc (hPlace.trans hPlace')

end SameValue

/-- A scalar is the same object as the values that are the same as it. -/
theorem sameObject_iff (ha : a.isDistinguishable = true) (b : Cell) :
    sameObject a b = true ↔ a.SameValue b := by
  have hNumber {m : Num} (hNum : a.num? = some m) : sameObject a b = true ↔ a.SameValue b := by
    cases hOther : b.num? with
    | none =>
      rw [sameObject_of_num_ne (by simp [hNum, hOther])]
      refine iff_of_false nofun fun h => ?_
      obtain ⟨n, hn, -⟩ := h.exists_place hNum
      rw [hOther] at hn
      cases hn
    | some n =>
      rw [sameObject_nums hNum hOther]
      refine ⟨.nums hNum hOther, fun h => ?_⟩
      obtain ⟨n', hn', hPlace⟩ := h.exists_place hNum
      cases hOther.symm.trans hn'
      exact hPlace
  have hOther (hNum : a.num? = none) (hSame : a.same b = true ↔ a = b) :
      sameObject a b = true ↔ a.SameValue b := by
    have hObject : sameObject a b = a.same b := by
      unfold sameObject
      rw [hNum]
    rw [hObject, hSame]
    exact ⟨fun h => h ▸ .refl a, fun h => h.eq_of_num? hNum⟩
  cases a with
  | bool _ | int _ | float _ | packed _ => exact hNumber rfl
  | null => exact hOther rfl (by cases b <;> simp [same, num?])
  | na => exact hOther rfl (by cases b <;> simp [same, num?])
  | text s => exact hOther rfl (by cases b <;> simp [same, num?])
  | list _ | column _ _ _ | table _ _ => cases ha

/-- Keys that a join takes for equal: the same value, or both missing. -/
def KeyEquals (a b : Cell) : Prop := a.SameValue b ∨ a.isMissing = true ∧ b.isMissing = true

namespace KeyEquals

variable {b c : Cell}

theorem refl (a : Cell) : a.KeyEquals a := Or.inl (.refl a)

theorem symm (h : a.KeyEquals b) : b.KeyEquals a := h.imp SameValue.symm And.symm

theorem trans (h : a.KeyEquals b) (h' : b.KeyEquals c) : a.KeyEquals c := by
  rcases h with h | ⟨ha, hb⟩
  · rcases h' with h' | ⟨hb, hc⟩
    · exact Or.inl (h.trans h')
    · exact Or.inr ⟨h.isMissing_eq.trans hb, hc⟩
  · rcases h' with h' | ⟨-, hc⟩
    · exact Or.inr ⟨ha, h'.isMissing_eq.symm.trans hb⟩
    · exact Or.inr ⟨ha, hc⟩

end KeyEquals

theorem matching_iff (ha : a.isDistinguishable = true) (b : Cell) :
    JoinRow.matching a b = true ↔ a.KeyEquals b := by
  unfold JoinRow.matching sameEntry KeyEquals
  cases hMissing : a.isMissing with
  | false => simp [sameObject_iff ha b]
  | true =>
    rw [if_pos rfl]
    refine ⟨fun h => Or.inr ⟨rfl, h⟩, fun h => h.elim (fun hSame => ?_) And.right⟩
    rw [← hSame.isMissing_eq, hMissing]

end Cell

namespace JoinKind

def keepsLeft : JoinKind → Bool
  | .left | .full => true
  | .inner | .right => false

def keepsRight : JoinKind → Bool
  | .right | .full => true
  | .inner | .left => false

def mirror : JoinKind → JoinKind
  | .left => .right
  | .right => .left
  | kind => kind

end JoinKind

namespace JoinRow

variable {keys : List Cell} {key : Cell}

/-- The pairs with equal keys, and the rows without a match of the tables whose rows are kept. -/
inductive Belongs (kind : JoinKind) (ls rs : List Cell) : JoinRow → Prop where
  | pair {i j : Nat} {a b : Cell} : ls[i]? = some a → rs[j]? = some b → a.KeyEquals b →
      Belongs kind ls rs ⟨some i, some j⟩
  | left {i : Nat} {a : Cell} : kind.keepsLeft = true → ls[i]? = some a →
      (∀ b ∈ rs, ¬a.KeyEquals b) →
      Belongs kind ls rs ⟨some i, none⟩
  | right {j : Nat} {b : Cell} : kind.keepsRight = true → rs[j]? = some b →
      (∀ a ∈ ls, ¬a.KeyEquals b) →
      Belongs kind ls rs ⟨none, some j⟩

def swap (row : JoinRow) : JoinRow := ⟨row.right, row.left⟩

theorem swap_injective : swap.Injective := fun _ _ h => congrArg swap h

/-- The same row, seen from the other table. -/
theorem Belongs.swap {kind : JoinKind} {ls rs : List Cell} {row : JoinRow}
    (h : Belongs kind ls rs row) : Belongs kind.mirror rs ls row.swap := by
  cases h with
  | pair ha hb hSame => exact .pair hb ha hSame.symm
  | left hKeeps ha hNone =>
    exact .right (by cases kind <;> first | rfl | cases hKeeps) ha
      fun b hb hSame => hNone b hb hSame.symm
  | right hKeeps hb hNone =>
    exact .left (by cases kind <;> first | rfl | cases hKeeps) hb
      fun a ha hSame => hNone a ha hSame.symm

structure Within (row : JoinRow) (m n : Nat) : Prop where
  left_lt : ∀ i, row.left = some i → i < m
  right_lt : ∀ j, row.right = some j → j < n
  present : row.left = none → row.right ≠ none

theorem nodup_matchesOf (keys : List Cell) (key : Cell) : (matchesOf keys key).Nodup := by
  refine Nodup.sublist (filter_sublist.map _) ?_
  rw [zipIdx_map_snd]
  exact nodup_range'

section Matches

variable (hKey : key.isDistinguishable = true)
include hKey

theorem mem_matchesOf_iff {j : Nat} :
    j ∈ matchesOf keys key ↔ ∃ k, keys[j]? = some k ∧ key.KeyEquals k := by
  unfold matchesOf
  rw [mem_map]
  constructor
  · rintro ⟨⟨k, i⟩, h, rfl⟩
    obtain ⟨hMem, hMatch⟩ := mem_filter.1 h
    exact ⟨k, mk_mem_zipIdx_iff_getElem?.1 hMem, (Cell.matching_iff hKey k).1 hMatch⟩
  · rintro ⟨k, hk, hSame⟩
    exact ⟨(k, j),
      mem_filter.2 ⟨mk_mem_zipIdx_iff_getElem?.2 hk, (Cell.matching_iff hKey k).2 hSame⟩, rfl⟩

theorem matchesOf_eq_nil_iff : matchesOf keys key = [] ↔ ∀ k ∈ keys, ¬key.KeyEquals k := by
  rw [eq_nil_iff_forall_not_mem]
  constructor
  · intro h k hk hSame
    obtain ⟨j, hj⟩ := mem_iff_getElem?.1 hk
    exact h j ((mem_matchesOf_iff hKey).2 ⟨k, hj, hSame⟩)
  · intro h j hj
    obtain ⟨k, hk, hSame⟩ := (mem_matchesOf_iff hKey).1 hj
    exact h k (mem_of_getElem? hk) hSame

end Matches

def halves (keys : List Cell) (key : Cell) : List (Option Nat) :=
  match matchesOf keys key with
  | [] => [none]
  | js => js.map some

theorem halves_of_eq_nil (h : matchesOf keys key = []) : halves keys key = [none] := by
  rw [halves, h]

theorem halves_of_ne_nil (h : matchesOf keys key ≠ []) :
    halves keys key = (matchesOf keys key).map some := by
  unfold halves
  split
  · rename_i hNil
    exact absurd hNil h
  · rfl

theorem nodup_halves (keys : List Cell) (key : Cell) : (halves keys key).Nodup := by
  unfold halves
  split
  · exact nodup_singleton none
  · exact (nodup_matchesOf keys key).map (Option.some_injective Nat)

section Halves

variable (hKey : key.isDistinguishable = true)
include hKey

theorem some_mem_halves_iff {j : Nat} :
    some j ∈ halves keys key ↔ ∃ k, keys[j]? = some k ∧ key.KeyEquals k := by
  rw [← mem_matchesOf_iff hKey]
  unfold halves
  split
  · rename_i hNil
    simp [hNil]
  · simp

theorem none_mem_halves_iff : none ∈ halves keys key ↔ ∀ k ∈ keys, ¬key.KeyEquals k := by
  rw [← matchesOf_eq_nil_iff hKey]
  unfold halves
  split
  · rename_i hNil
    simp [hNil]
  · rename_i hSome
    simpa using hSome

end Halves

theorem ofLeft_eq (ls rs : List Cell) :
    ofLeft ls rs = ls.zipIdx.flatMap fun x => (halves rs x.1).map fun r => ⟨some x.2, r⟩ := by
  refine flatMap_congr fun x _ => ?_
  unfold halves
  cases hMatches : matchesOf rs x.1 <;> simp [hMatches]

theorem ofRight_eq (ls rs : List Cell) : ofRight ls rs = (ofLeft rs ls).map swap := by
  unfold ofRight ofLeft
  rw [map_flatMap]
  refine flatMap_congr fun x _ => ?_
  cases hMatches : matchesOf ls x.1 <;> simp [hMatches, swap]

theorem ofInner_eq (ls rs : List Cell) :
    ofInner ls rs = (ofLeft ls rs).filter (·.right.isSome) := by
  unfold ofInner ofLeft
  rw [filter_flatMap]
  refine flatMap_congr fun x _ => ?_
  cases hMatches : matchesOf rs x.1 <;> simp [hMatches, filter_map, Function.comp_def]

def keyRows (ls rs : List Cell) (key : Cell) : List JoinRow :=
  ((halves ls key).flatMap fun l => (halves rs key).map fun r => ⟨l, r⟩).filter (· ≠ ⟨none, none⟩)

theorem ofFull_eq (ls rs : List Cell) :
    ofFull ls rs = (orderedKeys ls rs).flatMap (keyRows ls rs) := by
  have hKept {rows : List JoinRow} (h : ⟨none, none⟩ ∉ rows) :
      rows.filter (· ≠ ⟨none, none⟩) = rows :=
    filter_eq_self.2 fun row hRow => decide_eq_true fun hNone => h (hNone ▸ hRow)
  refine flatMap_congr fun key _ => ?_
  unfold keyRows
  split
  · rename_i hLeft
    rw [halves_of_eq_nil hLeft]
    by_cases hRight : matchesOf rs key = []
    · rw [halves_of_eq_nil hRight, hRight]
      rfl
    · rw [halves_of_ne_nil hRight, hKept (by simp)]
      simp
  · rename_i hRight hLeft
    rw [halves_of_ne_nil hLeft, halves_of_eq_nil hRight, hKept (by simp), flatMap_map]
    exact map_eq_flatMap
  · rename_i hLeft hRight
    rw [halves_of_ne_nil hLeft, halves_of_ne_nil hRight, hKept (by simp)]
    simp [flatMap_map, Function.comp_def]

theorem mem_keyRows_iff {ls rs : List Cell} {row : JoinRow} :
    row ∈ keyRows ls rs key ↔
      row.left ∈ halves ls key ∧ row.right ∈ halves rs key ∧ row ≠ ⟨none, none⟩ := by
  unfold keyRows
  rw [mem_filter, decide_eq_true_iff, ← and_assoc]
  cases row
  simp

theorem nodup_keyRows (ls rs : List Cell) (key : Cell) : (keyRows ls rs key).Nodup := by
  refine Nodup.filter _ (nodup_flatMap.2 ⟨fun l _ => ?_, ?_⟩)
  · exact (nodup_halves rs key).map fun r r' h => congrArg right h
  · refine (nodup_halves ls key).imp fun {l l'} hNe row hl hl' => hNe ?_
    obtain ⟨r, _, rfl⟩ := mem_map.1 hl
    obtain ⟨r', _, h⟩ := mem_map.1 hl'
    exact (congrArg left h).symm

theorem nodup_ofLeft (ls rs : List Cell) : (ofLeft ls rs).Nodup := by
  rw [ofLeft_eq]
  refine nodup_flatMap.2 ⟨fun x _ => (nodup_halves rs x.1).map fun r r' h => congrArg right h, ?_⟩
  have hPositions : (ls.zipIdx.map (·.2)).Nodup := by
    rw [zipIdx_map_snd]
    exact nodup_range'
  refine (pairwise_map.1 hPositions).imp fun {x y} hNe row hx hy => hNe ?_
  obtain ⟨r, _, rfl⟩ := mem_map.1 hx
  obtain ⟨r', _, h⟩ := mem_map.1 hy
  exact Option.some.inj (congrArg left h).symm

section OrderedKeys

variable {seen all : List Cell}

/-- Keys of which each one equals one of some keys, and no two of which are equal. -/
structure Represents (keys all : List Cell) : Prop where
  apart : keys.Pairwise fun a b => ¬a.KeyEquals b
  subset : ∀ k ∈ keys, k ∈ all
  complete : ∀ a ∈ all, ∃ k ∈ keys, a.KeyEquals k

def noteKey (seen : List Cell) (k : Cell) : List Cell :=
  if seen.any (matching k) then seen else k :: seen

theorem Represents.noteKey (h : Represents seen all) {k : Cell}
    (hKey : k.isDistinguishable = true) : Represents (noteKey seen k) (all ++ [k]) := by
  unfold JoinRow.noteKey
  have hSeen : seen.any (matching k) = true ↔ ∃ s ∈ seen, k.KeyEquals s := by
    simp only [any_eq_true, Cell.matching_iff hKey]
  split
  · rename_i hAny
    refine ⟨h.apart, fun s hs => mem_append_left _ (h.subset s hs), fun a ha => ?_⟩
    rcases mem_append.1 ha with ha | ha
    · exact h.complete a ha
    · rw [mem_singleton.1 ha]
      exact hSeen.1 hAny
  · rename_i hNone
    rw [hSeen] at hNone
    refine ⟨pairwise_cons.2 ⟨fun s hs hSame => hNone ⟨s, hs, hSame⟩, h.apart⟩, ?_, fun a ha => ?_⟩
    · rintro s (_ | ⟨_, hs⟩)
      · simp
      · exact mem_append_left _ (h.subset s hs)
    · rcases mem_append.1 ha with ha | ha
      · obtain ⟨s, hs, hSame⟩ := h.complete a ha
        exact ⟨s, mem_cons_of_mem k hs, hSame⟩
      · rw [mem_singleton.1 ha]
        exact ⟨k, mem_cons_self, .refl k⟩

theorem Represents.foldl_noteKey (h : Represents seen all) {xs : List Cell}
    (hKeys : ∀ k ∈ xs, k.isDistinguishable = true) :
    Represents (xs.foldl JoinRow.noteKey seen) (all ++ xs) := by
  induction xs generalizing seen all with
  | nil => simpa using h
  | cons k rest ih =>
    have hRest := ih (h.noteKey (hKeys k mem_cons_self)) fun k hk => hKeys k (mem_cons_of_mem _ hk)
    simpa using hRest

theorem Represents.perm {keys' : List Cell} (h : Represents keys all) (hPerm : keys'.Perm keys) :
    Represents keys' all where
  apart := (hPerm.pairwise_iff fun {_ _} hNot hSame => hNot hSame.symm).2 h.apart
  subset k hk := h.subset k (hPerm.mem_iff.1 hk)
  complete a ha := (h.complete a ha).imp fun _ hk => ⟨hPerm.mem_iff.2 hk.1, hk.2⟩

theorem orderedKeys_perm (ls rs : List Cell) :
    (orderedKeys ls rs).Perm ((ls ++ rs).foldl noteKey []) := by
  unfold orderedKeys
  dsimp only
  rw [partition_eq_filter_filter]
  refine ((mergeSort_perm _ _).trans (reverse_perm _)).append_right _ |>.trans ?_
  exact perm_append_comm.trans (filter_append_perm _ _)

theorem represents_orderedKeys {ls rs : List Cell}
    (hKeys : ∀ k ∈ ls ++ rs, k.isDistinguishable = true) :
    Represents (orderedKeys ls rs) (ls ++ rs) := by
  have hNone : Represents [] [] := ⟨Pairwise.nil, nofun, nofun⟩
  simpa using (hNone.foldl_noteKey hKeys).perm (orderedKeys_perm ls rs)

end OrderedKeys

section Members

variable {ls rs : List Cell} (hLeft : ∀ a ∈ ls, a.isDistinguishable = true)
  (hRight : ∀ b ∈ rs, b.isDistinguishable = true) {row : JoinRow}
variable {kind : JoinKind}

include hLeft in
theorem mem_ofLeft_iff : row ∈ ofLeft ls rs ↔ row.Belongs .left ls rs := by
  rw [ofLeft_eq, mem_flatMap]
  constructor
  · rintro ⟨⟨a, i⟩, hMem, hRow⟩
    have ha := mk_mem_zipIdx_iff_getElem?.1 hMem
    have hKey := hLeft a (mem_of_getElem? ha)
    obtain ⟨r, hr, rfl⟩ := mem_map.1 hRow
    cases r with
    | none => exact .left rfl ha ((none_mem_halves_iff hKey).1 hr)
    | some j =>
      obtain ⟨b, hb, hSame⟩ := (some_mem_halves_iff hKey).1 hr
      exact .pair ha hb hSame
  · rintro (⟨ha, hb, hSame⟩ | ⟨-, ha, hNone⟩ | ⟨hKeeps, _, _⟩)
    · have hHalf := (some_mem_halves_iff (hLeft _ (mem_of_getElem? ha))).2 ⟨_, hb, hSame⟩
      exact ⟨_, mk_mem_zipIdx_iff_getElem?.2 ha, mem_map.2 ⟨_, hHalf, rfl⟩⟩
    · have hHalf := (none_mem_halves_iff (hLeft _ (mem_of_getElem? ha))).2 hNone
      exact ⟨_, mk_mem_zipIdx_iff_getElem?.2 ha, mem_map.2 ⟨_, hHalf, rfl⟩⟩
    · cases hKeeps

include hLeft in
theorem mem_ofInner_iff : row ∈ ofInner ls rs ↔ row.Belongs .inner ls rs := by
  rw [ofInner_eq, mem_filter, mem_ofLeft_iff hLeft]
  constructor
  · rintro ⟨⟨ha, hb, hSame⟩ | _ | ⟨hKeeps, _, _⟩, hSome⟩
    · exact .pair ha hb hSame
    · cases hSome
    · cases hKeeps
  · rintro (⟨ha, hb, hSame⟩ | ⟨hKeeps, _, _⟩ | ⟨hKeeps, _, _⟩)
    · exact ⟨.pair ha hb hSame, rfl⟩
    · cases hKeeps
    · cases hKeeps

include hRight in
theorem mem_ofRight_iff : row ∈ ofRight ls rs ↔ row.Belongs .right ls rs := by
  rw [ofRight_eq, mem_map]
  constructor
  · rintro ⟨row, hRow, rfl⟩
    exact ((mem_ofLeft_iff hRight).1 hRow).swap
  · exact fun h => ⟨row.swap, (mem_ofLeft_iff hRight).2 h.swap, rfl⟩

include hLeft hRight

theorem isDistinguishable_of_mem_append : ∀ k ∈ ls ++ rs, k.isDistinguishable = true := fun k hk =>
  (mem_append.1 hk).elim (hLeft k) (hRight k)

/-- A full join goes key by key, and every key stands for those that are equal to it. -/
theorem mem_ofFull_iff : row ∈ ofFull ls rs ↔ row.Belongs .full ls rs := by
  have hAll := isDistinguishable_of_mem_append hLeft hRight
  have hKeys := represents_orderedKeys hAll
  rw [ofFull_eq, mem_flatMap]
  constructor
  · rintro ⟨key, hMem, hRow⟩
    have hKey := hAll key (hKeys.subset key hMem)
    obtain ⟨hl, hr, hSome⟩ := mem_keyRows_iff.1 hRow
    obtain ⟨_ | i, _ | j⟩ := row
    · exact absurd rfl hSome
    · obtain ⟨b, hb, hSame⟩ := (some_mem_halves_iff hKey).1 hr
      exact .right rfl hb fun a ha hEquals =>
        (none_mem_halves_iff hKey).1 hl a ha (hSame.trans hEquals.symm)
    · obtain ⟨a, ha, hSame⟩ := (some_mem_halves_iff hKey).1 hl
      exact .left rfl ha fun b hb hEquals =>
        (none_mem_halves_iff hKey).1 hr b hb (hSame.trans hEquals)
    · obtain ⟨a, ha, hSame⟩ := (some_mem_halves_iff hKey).1 hl
      obtain ⟨b, hb, hSame'⟩ := (some_mem_halves_iff hKey).1 hr
      exact .pair ha hb (hSame.symm.trans hSame')
  · rintro (⟨ha, hb, hSame⟩ | ⟨-, ha, hNone⟩ | ⟨-, hb, hNone⟩)
    · obtain ⟨key, hMem, hKeySame⟩ := hKeys.complete _ (mem_append_left rs (mem_of_getElem? ha))
      have hKey := hAll key (hKeys.subset key hMem)
      exact ⟨key, hMem, mem_keyRows_iff.2 ⟨(some_mem_halves_iff hKey).2 ⟨_, ha, hKeySame.symm⟩,
        (some_mem_halves_iff hKey).2 ⟨_, hb, hKeySame.symm.trans hSame⟩, nofun⟩⟩
    · obtain ⟨key, hMem, hKeySame⟩ := hKeys.complete _ (mem_append_left rs (mem_of_getElem? ha))
      have hKey := hAll key (hKeys.subset key hMem)
      exact ⟨key, hMem,
        mem_keyRows_iff.2 ⟨(some_mem_halves_iff hKey).2 ⟨_, ha, hKeySame.symm⟩,
          (none_mem_halves_iff hKey).2 fun b hb hEquals => hNone b hb (hKeySame.trans hEquals),
          nofun⟩⟩
    · obtain ⟨key, hMem, hKeySame⟩ := hKeys.complete _ (mem_append_right ls (mem_of_getElem? hb))
      have hKey := hAll key (hKeys.subset key hMem)
      exact ⟨key, hMem,
        mem_keyRows_iff.2 ⟨(none_mem_halves_iff hKey).2 fun a ha hEquals =>
          hNone a ha (hEquals.symm.trans hKeySame.symm),
          (some_mem_halves_iff hKey).2 ⟨_, hb, hKeySame.symm⟩, nofun⟩⟩

theorem nodup_ofFull : (ofFull ls rs).Nodup := by
  have hAll := isDistinguishable_of_mem_append hLeft hRight
  have hKeys := represents_orderedKeys hAll
  have hApart {key key' : Cell} {keys : List Cell} {j : Nat} (hKey : key.isDistinguishable = true)
      (hKey' : key'.isDistinguishable = true) (h : some j ∈ halves keys key)
      (h' : some j ∈ halves keys key') : key.KeyEquals key' := by
    obtain ⟨k, hk, hSame⟩ := (some_mem_halves_iff hKey).1 h
    obtain ⟨k', hk', hSame'⟩ := (some_mem_halves_iff hKey').1 h'
    cases hk.symm.trans hk'
    exact hSame.trans hSame'.symm
  rw [ofFull_eq]
  refine nodup_flatMap.2 ⟨fun key _ => nodup_keyRows ls rs key, ?_⟩
  refine hKeys.apart.imp_of_mem fun {key key'} hMem hMem' hNot row hRow hRow' => hNot ?_
  have hKey := hAll key (hKeys.subset key hMem)
  have hKey' := hAll key' (hKeys.subset key' hMem')
  obtain ⟨hl, hr, hSome⟩ := mem_keyRows_iff.1 hRow
  obtain ⟨hl', hr', -⟩ := mem_keyRows_iff.1 hRow'
  obtain ⟨_ | i, _ | j⟩ := row
  · exact absurd rfl hSome
  · exact hApart hKey hKey' hr hr'
  · exact hApart hKey hKey' hl hl'
  · exact hApart hKey hKey' hl hl'

/-- A join has the rows that belong to it. -/
theorem mem_ofKeys_iff (kind : JoinKind) : row ∈ ofKeys kind ls rs ↔ row.Belongs kind ls rs := by
  cases kind with
  | inner => exact mem_ofInner_iff hLeft
  | left => exact mem_ofLeft_iff hLeft
  | right => exact mem_ofRight_iff hRight
  | full => exact mem_ofFull_iff hLeft hRight

/-- A join has each of its rows once. -/
theorem nodup_ofKeys (kind : JoinKind) : (ofKeys kind ls rs).Nodup := by
  cases kind with
  | inner =>
    rw [ofKeys, ofInner_eq]
    exact (nodup_ofLeft ls rs).filter _
  | left => exact nodup_ofLeft ls rs
  | right =>
    rw [ofKeys, ofRight_eq]
    exact (nodup_ofLeft rs ls).map swap_injective
  | full => exact nodup_ofFull hLeft hRight

/-- A join that keeps the rows of the right table differs from the one that does not by those
without a match. -/
theorem ofKeys_perm {kind' : JoinKind} (hKeeps : kind.keepsRight = true)
    (hDrops : kind'.keepsRight = false) (hSame : kind.keepsLeft = kind'.keepsLeft) :
    (ofKeys kind ls rs).Perm
      (ofKeys kind' ls rs ++ (ofKeys .right ls rs).filter (·.left.isNone)) := by
  have hNodup := nodup_ofKeys hLeft hRight
  have hMem {kind : JoinKind} {row : JoinRow} : row ∈ ofKeys kind ls rs ↔ row.Belongs kind ls rs :=
    mem_ofKeys_iff hLeft hRight kind
  refine (perm_ext_iff_of_nodup (hNodup kind) ?_).2 fun row => ?_
  · refine nodup_append'.2 ⟨hNodup kind', (hNodup .right).filter _, fun row hRow hAlone => ?_⟩
    have hNone := (mem_filter.1 hAlone).2
    cases hMem.1 hRow with
    | pair _ _ _ | left _ _ _ => cases hNone
    | right h _ _ => exact absurd (h.symm.trans hDrops) nofun
  · rw [mem_append, mem_filter, hMem, hMem, hMem]
    constructor
    · intro h
      cases h with
      | pair ha hb hEquals => exact Or.inl (.pair ha hb hEquals)
      | left h ha hNone => exact Or.inl (.left (hSame.symm.trans h) ha hNone)
      | right _ hb hNone => exact Or.inr ⟨.right rfl hb hNone, rfl⟩
    · rintro (h | ⟨h, hAlone⟩)
      · cases h with
        | pair ha hb hEquals => exact .pair ha hb hEquals
        | left h ha hNone => exact .left (hSame.trans h) ha hNone
        | right h _ _ => exact absurd (h.symm.trans hDrops) nofun
      · cases h with
        | pair _ _ _ | left _ _ _ => cases hAlone
        | right _ hb hNone => exact .right hKeeps hb hNone

/-- The numbers of rows of the four kinds balance. -/
theorem length_ofKeys_balance :
    (ofKeys .full ls rs).length + (ofKeys .inner ls rs).length =
      (ofKeys .left ls rs).length + (ofKeys .right ls rs).length := by
  have hFull : (ofKeys .full ls rs).Perm (ofKeys .left ls rs ++ _) :=
    ofKeys_perm hLeft hRight rfl rfl rfl
  have hOuter : (ofKeys .right ls rs).Perm (ofKeys .inner ls rs ++ _) :=
    ofKeys_perm hLeft hRight rfl rfl rfl
  rw [hFull.length_eq, hOuter.length_eq, length_append, length_append]
  omega

/-- A row is there once if it is the only one of its kind. -/
theorem filter_ofKeys_eq_singleton {P : JoinRow → Bool} (hRow : row.Belongs kind ls rs)
    (hOnly : ∀ other : JoinRow, other.Belongs kind ls rs → (P other = true ↔ other = row)) :
    (ofKeys kind ls rs).filter P = [row] := by
  have hMem {row : JoinRow} : row ∈ ofKeys kind ls rs ↔ row.Belongs kind ls rs :=
    mem_ofKeys_iff hLeft hRight kind
  have hNodup : ((ofKeys kind ls rs).filter P).Nodup := (nodup_ofKeys hLeft hRight kind).filter P
  refine perm_singleton.1 ((perm_ext_iff_of_nodup hNodup (nodup_singleton row)).2 fun other => ?_)
  rw [mem_filter, hMem, mem_singleton]
  constructor
  · exact fun h => (hOnly other h.1).1 h.2
  · rintro rfl
    exact ⟨hRow, (hOnly other hRow).2 rfl⟩

end Members

namespace Belongs

variable {kind : JoinKind} {ls rs : List Cell}
variable {i j : Nat} {a b : Cell} {row : JoinRow}

theorem exists_left (hKeeps : kind.keepsLeft = true) (ha : ls[i]? = some a) :
    ∃ r, Belongs kind ls rs ⟨some i, r⟩ := by
  by_cases hNone : ∀ b ∈ rs, ¬a.KeyEquals b
  · exact ⟨none, .left hKeeps ha hNone⟩
  · simp only [not_forall, not_not] at hNone
    obtain ⟨b, hMem, hSame⟩ := hNone
    obtain ⟨j, hb⟩ := mem_iff_getElem?.1 hMem
    exact ⟨some j, .pair ha hb hSame⟩

theorem exists_right (hKeeps : kind.keepsRight = true) (hb : rs[j]? = some b) :
    ∃ l, Belongs kind ls rs ⟨l, some j⟩ := by
  have hMirror : kind.mirror.keepsLeft = true ∧ kind.mirror.mirror = kind := by
    cases kind <;> first | exact ⟨rfl, rfl⟩ | cases hKeeps
  obtain ⟨l, hRow⟩ : ∃ l, Belongs _ rs ls ⟨_, l⟩ := exists_left hMirror.1 hb
  exact ⟨l, hMirror.2 ▸ hRow.swap⟩

theorem left_eq_iff (ha : ls[i]? = some a) (hNone : ∀ b ∈ rs, ¬a.KeyEquals b)
    (h : Belongs kind ls rs row) : row.left = some i ↔ row = ⟨some i, none⟩ := by
  refine ⟨fun hLeft => ?_, fun hRow => hRow ▸ rfl⟩
  cases h with
  | left _ _ _ => rw [JoinRow.mk.injEq, and_iff_left rfl]; exact hLeft
  | right _ _ _ => cases hLeft
  | pair ha' hb hSame =>
    cases hLeft
    cases ha.symm.trans ha'
    exact absurd hSame (hNone _ (mem_of_getElem? hb))

theorem right_eq_iff (hb : rs[j]? = some b) (hNone : ∀ a ∈ ls, ¬a.KeyEquals b)
    (h : Belongs kind ls rs row) : row.right = some j ↔ row = ⟨none, some j⟩ := by
  rw [← swap_injective.eq_iff]
  exact h.swap.left_eq_iff hb fun a ha hSame => hNone a ha hSame.symm

theorem within (h : Belongs kind ls rs row) : row.Within ls.length rs.length := by
  have hIn {keys : List Cell} {i : Nat} {k : Cell} (hk : keys[i]? = some k) : i < keys.length :=
    (List.getElem?_eq_some_iff.1 hk).1
  cases h with
  | pair ha hb _ => exact ⟨by simpa using hIn ha, by simpa using hIn hb, nofun⟩
  | left _ ha _ => exact ⟨by simpa using hIn ha, nofun, nofun⟩
  | right _ hb _ => exact ⟨nofun, by simpa using hIn hb, nofun⟩

end Belongs

end JoinRow

end TableQuery
