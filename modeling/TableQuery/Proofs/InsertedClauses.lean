import Mathlib
import TableQuery.FromClause

/-! Texts with a clause inserted. A place that lies before the one found last starts over from
there, so the text between the two is repeated. Nothing is repeated exactly if the places are in
order. -/
namespace TableQuery.FromClause

open List Nat

variable {clause cs out : List Char}

/-- A text with copies of a clause inserted: consecutive pieces of the text, joined by the clause.
-/
def Spliced (clause cs out : List Char) : Prop :=
  ∃ pieces : List (List Char), pieces ≠ [] ∧ pieces.flatten = cs ∧
    List.intercalate clause pieces = out

theorem Spliced.self (clause cs : List Char) : Spliced clause cs cs :=
  ⟨[cs], cons_ne_nil _ _, flatten_singleton, intercalate_singleton⟩

theorem Spliced.insert (h : Spliced clause cs out) (first : List Char) :
    Spliced clause (first ++ cs) (first ++ clause ++ out) := by
  obtain ⟨pieces, hSome, rfl, rfl⟩ := h
  exact ⟨first :: pieces, cons_ne_nil _ _, flatten_cons, intercalate_cons_of_ne_nil hSome⟩

theorem Spliced.length_eq (h : Spliced clause cs out) :
    ∃ n, out.length = cs.length + n * clause.length := by
  obtain ⟨pieces, hSome, rfl, rfl⟩ := h
  induction pieces with
  | nil => exact absurd rfl hSome
  | cons piece rest ih =>
    cases rest with
    | nil => exact ⟨0, by simp⟩
    | cons next rest =>
      obtain ⟨n, hn⟩ := ih (cons_ne_nil _ _)
      refine ⟨n + 1, ?_⟩
      have hFlatten : (piece :: next :: rest).flatten.length =
          piece.length + (next :: rest).flatten.length := by
        rw [flatten_cons, length_append]
      rw [intercalate_cons_cons, length_append, length_append, hn, succ_mul]
      omega

/-- How many characters of a text of some length are repeated by going from place to place. -/
def repeated (length last : Nat) : List Nat → Nat
  | [] => 0
  | place :: places => min last length - min place length + repeated length place places

theorem repeated_eq_zero_iff {length last : Nat} {places : List Nat} :
    repeated length last places = 0 ↔ ((last :: places).map (min · length)).Pairwise (· ≤ ·) := by
  rw [← isChain_iff_pairwise]
  induction places generalizing last with
  | nil => simp [repeated]
  | cons place places ih =>
    rw [repeated, Nat.add_eq_zero_iff, ih, Nat.sub_eq_zero_iff_le]
    exact isChain_cons_cons.symm

theorem length_weave (clause cs : List Char) (last : Nat) (places : List Nat) :
    (weave clause cs last places).length =
      cs.length - last + places.length * clause.length + repeated cs.length last places := by
  induction places generalizing last with
  | nil => simp [weave, repeated]
  | cons place places ih =>
    simp only [weave, repeated, length_append, length_take, length_drop, length_cons, ih,
      succ_mul]
    omega

/-- The text from a place up to the next one, if this is not before it, and the text from there on.
-/
theorem take_append_drop_place {last place : Nat} (h : min last cs.length ≤ min place cs.length) :
    (cs.drop last).take (place - last) ++ cs.drop place = cs.drop last := by
  rcases le_total last place with hLe | hLe
  · rw [← Nat.add_sub_cancel' hLe, ← drop_drop, Nat.add_sub_cancel_left, take_append_drop]
  · rcases lt_or_ge place cs.length with hIn | hOut
    · obtain rfl : last = place := by omega
      simp
    · rw [drop_eq_nil_of_le hOut, drop_eq_nil_of_le (hOut.trans hLe)]
      simp

theorem spliced_weave {last : Nat} {places : List Nat} (h : repeated cs.length last places = 0) :
    Spliced clause (cs.drop last) (weave clause cs last places) := by
  induction places generalizing last with
  | nil => exact .self clause _
  | cons place places ih =>
    obtain ⟨hNext, hRest⟩ := Nat.add_eq_zero_iff.1 h
    have hSplice := (ih hRest).insert ((cs.drop last).take (place - last))
    rwa [take_append_drop_place (Nat.sub_eq_zero_iff_le.1 hNext)] at hSplice

/-- No text is lost. -/
theorem sublist_weave (clause cs : List Char) (last : Nat) (places : List Nat) :
    (cs.drop last).Sublist (weave clause cs last places) := by
  induction places generalizing last with
  | nil => exact .refl _
  | cons place places ih =>
    rw [weave, append_assoc]
    rcases le_total (min last cs.length) (min place cs.length) with hLe | hLe
    · nth_rewrite 1 [← take_append_drop_place hLe]
      exact (Sublist.refl _).append ((ih place).trans (sublist_append_right _ _))
    · have hBack : (cs.drop last).Sublist (cs.drop place) := by
        rcases lt_or_ge last place with h | h
        · rw [drop_eq_nil_of_le (by omega)]
          exact nil_sublist _
        · exact drop_sublist_drop_left cs h
      exact hBack.trans ((ih place).trans
        ((sublist_append_right _ _).trans (sublist_append_right _ _)))

/-- The clause that is inserted. -/
def clauseOf (table : String) : List Char := (" from " ++ table ++ " ").toList

theorem toList_complete (sql table : String) : (complete sql table).toList =
    weave (clauseOf table) (normalise sql.toList) 0 (insertions (normalise sql.toList)) :=
  String.toList_ofList

/-- No text is ever lost. The query comes back with clauses inserted and nothing else exactly if the
places of the clauses are in order. -/
theorem text_not_repeated_iff (sql : String) :
    (∀ table, (normalise sql.toList).Sublist (complete sql table).toList) ∧
    ((∀ table, Spliced (clauseOf table) (normalise sql.toList) (complete sql table).toList) ↔
      ((insertions (normalise sql.toList)).map (min · (normalise sql.toList).length)).Pairwise
        (· ≤ ·)) := by
  generalize hcs : normalise sql.toList = cs
  have hOrder : repeated cs.length 0 (insertions cs) = 0 ↔
      ((insertions cs).map (min · cs.length)).Pairwise (· ≤ ·) := by
    rw [repeated_eq_zero_iff, map_cons, pairwise_cons]
    simp
  simp only [toList_complete, hcs]
  refine ⟨fun table => sublist_weave _ cs 0 _, fun h => hOrder.1 ?_,
    fun h table => spliced_weave (hOrder.2 h)⟩
  -- a clause that is longer than all that is repeated cannot make up for it
  obtain ⟨n, hn⟩ :=
    (h (String.ofList (replicate (repeated cs.length 0 (insertions cs)) 'a'))).length_eq
  rw [length_weave] at hn
  have hClause : (clauseOf
      (String.ofList (replicate (repeated cs.length 0 (insertions cs)) 'a'))).length =
      repeated cs.length 0 (insertions cs) + 7 := by
    simp [clauseOf]
  rw [hClause] at hn
  generalize repeated cs.length 0 (insertions cs) = extra at hn
  have hMultiple : extra = (n - (insertions cs).length) * (extra + 7) := by
    rw [Nat.sub_mul]
    omega
  cases hCount : n - (insertions cs).length with
  | zero => rw [hMultiple, hCount, Nat.zero_mul]
  | succ m =>
    rw [hCount, Nat.succ_mul] at hMultiple
    omega

/-- A subquery without FROM that is closed before the place of the outer clause: what follows it is
there twice. -/
theorem subquery_repeats_text :
    (complete "SELECT (SELECT 1), 2" "temp" =
      "SELECT ( SELECT 1 ) , 2 from temp  from temp ) , 2") ∧
    ¬ Spliced (clauseOf "temp") (normalise "SELECT (SELECT 1), 2".toList)
      (complete "SELECT (SELECT 1), 2" "temp").toList := by
  refine ⟨rfl, fun h => ?_⟩
  obtain ⟨n, hn⟩ := h.length_eq
  have hLong : 50 = 23 + n * 11 := hn
  omega

end TableQuery.FromClause
