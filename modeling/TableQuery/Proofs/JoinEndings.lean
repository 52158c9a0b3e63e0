import Mathlib.Data.List.Infix
import TableQuery.Query.Join

/-! The endings that tell the columns of two joined tables apart. An ending is taken out wherever it
occurs in a name, so that names which contain one of their own come out changed. -/
namespace TableQuery

open List

variable {name c : String} {others : List String}
variable {b : Char} {table key : String}

theorem occursIn_eq_true_iff {part whole : String} :
    occursIn part whole = true ↔ part.toList <:+: whole.toList := by
  have hSearch (p cs : List Char) : occursIn.search p cs = true ↔ p <:+: cs := by
    induction cs with
    | nil => simp [occursIn.search]
    | cons c rest ih =>
      rw [occursIn.search, Bool.or_eq_true, isPrefixOf_iff_prefix, ih, infix_cons_iff]
  exact hSearch part.toList whole.toList

section Marks

variable {a : Char}
variable {cs : List Char}

/-- The text that is left after a mark at the start, or after the first character. -/
theorem without_cons (c : Char) (cs : List Char) : without [a, b] 0 (c :: cs) =
      if [a, b] <+: c :: cs then without [a, b] 0 cs.tail else c :: without [a, b] 0 cs := by
  rw [without]
  by_cases hMark : [a, b] <+: c :: cs
  · rw [if_pos (List.isPrefixOf_iff_prefix.2 hMark), if_pos hMark]
    cases cs with
    | nil => rfl
    | cons d rest => rfl
  · rw [if_neg fun h => hMark (List.isPrefixOf_iff_prefix.1 h), if_neg hMark]

/-- Other characters stay. -/
theorem count_without {c : Char} (ha : c ≠ a) (hb : c ≠ b) (cs : List Char) :
    (without [a, b] 0 cs).count c = cs.count c := by
  match cs with
  | [] => rfl
  | [d] =>
    rw [without_cons, if_neg (by simp)]
    rfl
  | d :: e :: rest =>
    rw [without_cons]
    split
    · rename_i hMark
      obtain ⟨rfl, rfl, -⟩ : a = d ∧ b = e ∧ True := by simpa using hMark
      rw [tail_cons, count_without ha hb rest, count_cons_of_ne ha.symm, count_cons_of_ne hb.symm]
    · rw [count_cons, count_cons, count_without ha hb (e :: rest)]

theorem length_without_le (cs : List Char) : (without [a, b] 0 cs).length ≤ cs.length := by
  match cs with
  | [] => exact Nat.le_refl 0
  | c :: rest =>
    rw [without_cons]
    split
    · have hTail := length_without_le rest.tail
      rw [length_tail] at hTail
      rw [length_cons]
      omega
    · exact Nat.succ_le_succ (length_without_le rest)
termination_by cs.length

/-- A mark that occurs is taken out. -/
theorem length_without_of_infix (h : [a, b] <:+: cs) :
    (without [a, b] 0 cs).length + 2 ≤ cs.length := by
  induction cs with
  | nil => simp at h
  | cons c rest ih =>
    rw [without_cons]
    split
    · rename_i hMark
      have hTail := length_without_le (a := a) (b := b) rest.tail
      have hSize := hMark.length_le
      simp only [length_cons, length_nil, length_tail] at hSize hTail ⊢
      omega
    · rename_i hMark
      have hRest := ih ((infix_cons_iff.1 h).resolve_left hMark)
      rw [length_cons, length_cons]
      omega

/-- Taking out a mark changes nothing exactly if it does not occur. -/
theorem without_eq_self_iff : without [a, b] 0 cs = cs ↔ ¬[a, b] <:+: cs := by
  constructor
  · intro hSame hMark
    have hSize := length_without_of_infix hMark
    rw [hSame] at hSize
    omega
  · intro hNone
    induction cs with
    | nil => simp [without]
    | cons c rest ih =>
      rw [infix_cons_iff, not_or] at hNone
      rw [without_cons, if_neg hNone.1, ih hNone.2]

/-- A mark at the end is taken out with the others. -/
theorem without_append (hab : a ≠ b) (cs : List Char) :
    without [a, b] 0 (cs ++ [a, b]) = without [a, b] 0 cs := by
  match cs with
  | [] => simp [without]
  | [c] =>
    have hFirst : ¬[a, b] <+: [c, a, b] := by
      intro hMark
      exact hab (by simpa using hMark : a = c ∧ b = a).2.symm
    have hLast : without [a, b] 0 [a, b] = without [a, b] 0 [] := without_append hab []
    rw [singleton_append, without_cons, if_neg hFirst, hLast, without_cons, if_neg (by simp)]
  | c :: d :: rest =>
    have hFirst : [a, b] <+: c :: d :: (rest ++ [a, b]) ↔ [a, b] <+: c :: d :: rest := by simp
    have hRest : without [a, b] 0 (d :: (rest ++ [a, b])) = without [a, b] 0 (d :: rest) :=
      without_append hab (d :: rest)
    rw [cons_append, cons_append, without_cons, without_cons c (d :: rest), hRest]
    simp only [hFirst, tail_cons]
    rw [without_append hab rest]

/-- Another mark at the end brings in no new occurrence. -/
theorem infix_append_mark_iff (hab : a ≠ b) {d : Char} (hbd : b ≠ d) :
    [a, b] <:+: cs ++ [a, d] ↔ [a, b] <:+: cs := by
  refine ⟨fun h => ?_, fun h => h.trans (prefix_append cs [a, d]).isInfix⟩
  induction cs with
  | nil =>
    simp only [nil_append, infix_cons_iff, cons_prefix_cons, infix_nil] at h
    simp [hbd] at h
  | cons c rest ih =>
    rw [cons_append, infix_cons_iff] at h
    rw [infix_cons_iff]
    refine h.imp (fun hFirst => ?_) ih
    cases rest with
    | nil => exact absurd (by simpa using hFirst : a = c ∧ b = a).2.symm hab
    | cons e more => simpa using hFirst

end Marks

def HasMark (b : Char) (name : String) : Prop := ['_', b] <:+: name.toList

theorem occursIn_x_iff : occursIn "_x" name = true ↔ HasMark 'x' name := occursIn_eq_true_iff

theorem occursIn_y_iff : occursIn "_y" name = true ↔ HasMark 'y' name := occursIn_eq_true_iff

def stripped (b : Char) (name : String) : String := String.ofList (without ['_', b] 0 name.toList)

theorem hasMark_left (name : String) : HasMark 'x' (name ++ "_x") := ⟨name.toList, [], by simp⟩

theorem hasMark_right (name : String) : HasMark 'y' (name ++ "_y") := ⟨name.toList, [], by simp⟩

theorem hasMark_left_right_iff : HasMark 'x' (name ++ "_y") ↔ HasMark 'x' name := by
  have hList : (name ++ "_y").toList = name.toList ++ ['_', 'y'] := by simp
  rw [HasMark, hList]
  exact infix_append_mark_iff (by decide) (by decide)

theorem stripped_eq_self_iff : stripped b name = name ↔ ¬HasMark b name := by
  rw [HasMark, ← without_eq_self_iff, stripped, ← String.toList_inj, String.toList_ofList]

theorem stripped_left (name : String) : stripped 'x' (name ++ "_x") = stripped 'x' name := by
  have hList : (name ++ "_x").toList = name.toList ++ ['_', 'x'] := by simp
  rw [stripped, hList, without_append (by decide), stripped]

theorem stripped_right (name : String) : stripped 'y' (name ++ "_y") = stripped 'y' name := by
  have hList : (name ++ "_y").toList = name.toList ++ ['_', 'y'] := by simp
  rw [stripped, hList, without_append (by decide), stripped]

theorem count_stripped {c : Char} (hc : c ≠ '_') (hb : c ≠ b) (name : String) :
    (stripped b name).toList.count c = name.toList.count c := by
  rw [stripped, String.toList_ofList, count_without hc hb]

/-- The name of a table in front gives a name one dot more. -/
theorem qualified_stripped_ne (table : String) (hb : '.' ≠ b) (name : String) :
    table ++ "." ++ stripped b name ≠ name := by
  intro hSame
  have hDots := congrArg (fun s => s.toList.count '.') hSame
  simp [count_stripped (by decide) hb] at hDots
  omega

theorem left_ne_right (name other : String) : name ++ "_x" ≠ other ++ "_y" := by
  intro hSame
  have hLast := congrArg (fun s => s.toList.getLast?) hSame
  simp at hLast

/-- A column of the right table that is taken for one of the left does not get its right name by
chance. -/
theorem left_qualified_ne (hc : HasMark 'x' c) (leftName rightName : String) :
    leftName ++ "." ++ stripped 'x' (c ++ "_y") ≠ rightName ++ "." ++ c := by
  intro hSame
  have hList : leftName.toList ++ '.' :: (stripped 'x' (c ++ "_y")).toList =
      rightName.toList ++ '.' :: c.toList := by
    simpa using congrArg String.toList hSame
  have hCount : (stripped 'x' (c ++ "_y")).toList.count 'y' = c.toList.count 'y' + 1 := by
    rw [count_stripped (by decide) (by decide)]
    simp
  have hLength : (stripped 'x' (c ++ "_y")).toList.length ≤ c.toList.length := by
    have hShort := length_without_of_infix (hasMark_left_right_iff.2 hc)
    rw [stripped]
    simpa using hShort
  rcases append_eq_append_iff.1 hList with ⟨xs, -, hRest⟩ | ⟨xs, -, hRest⟩
  · -- the right name is the longer one, which leaves nothing between the two
    have hSize := congrArg length hRest
    simp only [length_append, length_cons] at hSize
    obtain rfl : xs = [] := length_eq_zero_iff.1 (by omega)
    rw [nil_append, cons_inj_right] at hRest
    rw [hRest] at hCount
    omega
  · have hRestCount := congrArg (count 'y') hRest
    simp only [count_append, count_cons_of_ne (show ('.' : Char) ≠ 'y' by decide)] at hRestCount
    omega

section JoinedName

variable (leftName rightName leftOn rightOn : String)

theorem joinedName_key_right :
    joinedName leftName rightName leftOn rightOn (rightOn ++ "_y") = rightOn :=
  if_pos (beq_self_eq_true _)

theorem joinedName_key_left :
    joinedName leftName rightName leftOn rightOn (leftOn ++ "_x") = leftOn := by
  unfold joinedName
  rw [if_neg (by simpa using left_ne_right leftOn rightOn), if_pos (beq_self_eq_true _)]

/-- Apart from the compared columns, a name loses the endings in it and gets the name of a table. -/
theorem joinedName_of_ne (hRight : c ≠ rightOn ++ "_y") (hLeft : c ≠ leftOn ++ "_x") :
    (HasMark 'x' c →
      joinedName leftName rightName leftOn rightOn c = leftName ++ "." ++ stripped 'x' c) ∧
    (¬HasMark 'x' c → HasMark 'y' c →
      joinedName leftName rightName leftOn rightOn c = rightName ++ "." ++ stripped 'y' c) ∧
    (¬HasMark 'x' c → ¬HasMark 'y' c → joinedName leftName rightName leftOn rightOn c = c) := by
  unfold joinedName
  rw [if_neg (by simpa using hRight), if_neg (by simpa using hLeft)]
  refine ⟨fun h => ?_, fun h h' => ?_, fun h h' => ?_⟩
  · exact if_pos (occursIn_x_iff.2 h)
  · rw [if_neg (mt occursIn_x_iff.1 h)]
    exact if_pos (occursIn_y_iff.2 h')
  · rw [if_neg (mt occursIn_x_iff.1 h), if_neg (mt occursIn_y_iff.1 h')]

/-- A name stays exactly if no ending occurs in it. -/
theorem joinedName_eq_self_iff :
    joinedName leftName rightName leftOn rightOn c = c ↔ ¬HasMark 'x' c ∧ ¬HasMark 'y' c := by
  have hAppend (name ending : String) (hEnding : ending.length ≠ 0) : name ≠ name ++ ending := by
    intro hSame
    have hLength := congrArg String.length hSame
    rw [String.length_append] at hLength
    omega
  by_cases hRight : c = rightOn ++ "_y"
  · subst hRight
    rw [joinedName_key_right]
    exact iff_of_false (hAppend _ _ (by decide)) fun h => h.2 (hasMark_right rightOn)
  by_cases hLeft : c = leftOn ++ "_x"
  · subst hLeft
    rw [joinedName_key_left]
    exact iff_of_false (hAppend _ _ (by decide)) fun h => h.1 (hasMark_left leftOn)
  obtain ⟨hMarkX, hMarkY, hNone⟩ := joinedName_of_ne leftName rightName leftOn rightOn hRight hLeft
  by_cases hx : HasMark 'x' c
  · rw [hMarkX hx]
    exact iff_of_false (qualified_stripped_ne _ (by decide) c) fun h => h.1 hx
  by_cases hy : HasMark 'y' c
  · rw [hMarkY hx hy]
    exact iff_of_false (qualified_stripped_ne _ (by decide) c) fun h => h.2 hy
  · exact iff_of_true (hNone hx hy) ⟨hx, hy⟩

/-- A shared left column is called by its table exactly if the left ending does not occur in its
name. -/
theorem joinedName_left_eq_iff (hc : c ≠ leftOn) :
    joinedName leftName rightName leftOn rightOn (c ++ "_x") = leftName ++ "." ++ c ↔
      ¬HasMark 'x' c := by
  have hKey : c ++ "_x" ≠ leftOn ++ "_x" := fun hSame => hc (by simpa using hSame)
  rw [(joinedName_of_ne leftName rightName leftOn rightOn (left_ne_right c rightOn) hKey).1
      (hasMark_left c),
    stripped_left, ← stripped_eq_self_iff]
  exact ⟨fun hSame => by simpa using hSame, fun hSame => by rw [hSame]⟩

/-- A shared column of the right table is called by its table exactly if neither ending occurs in
its own name. -/
theorem joinedName_right_eq_iff (hc : c ≠ rightOn) :
    joinedName leftName rightName leftOn rightOn (c ++ "_y") = rightName ++ "." ++ c ↔
      ¬HasMark 'x' c ∧ ¬HasMark 'y' c := by
  have hKey : c ++ "_y" ≠ rightOn ++ "_y" := fun hSame => hc (by simpa using hSame)
  obtain ⟨hMarkX, hMarkY, -⟩ :=
    joinedName_of_ne leftName rightName leftOn rightOn hKey (left_ne_right leftOn c).symm
  by_cases hx : HasMark 'x' c
  · -- the column is taken for one of the left table
    rw [hMarkX (hasMark_left_right_iff.2 hx)]
    exact iff_of_false (left_qualified_ne hx leftName rightName) fun h => h.1 hx
  · rw [hMarkY (mt hasMark_left_right_iff.1 hx) (hasMark_right c), stripped_right, and_iff_right hx,
      ← stripped_eq_self_iff]
    exact ⟨fun hSame => by simpa using hSame, fun hSame => by rw [hSame]⟩

end JoinedName

/-- A column's name next to other ones: with an ending if it is among them. -/
def endedName (others : List String) (ending name : String) : String :=
  if others.contains name then name ++ ending else name

theorem endedName_of_mem (h : name ∈ others) (ending : String) :
    endedName others ending name = name ++ ending :=
  if_pos (contains_iff_mem.2 h)

theorem endedName_of_notMem (h : name ∉ others) (ending : String) :
    endedName others ending name = name :=
  if_neg (mt contains_iff_mem.1 h)

/-- What a column is called next to another table: by its own table if both have it, unless it is
compared. -/
def calledName (table key : String) (others : List String) (column : String) : String :=
  if column ∈ others ∧ column ≠ key then table ++ "." ++ column else column

theorem calledName_of_shared (h : c ∈ others ∧ c ≠ key) :
    calledName table key others c = table ++ "." ++ c :=
  if_pos h

theorem calledName_of_own (h : ¬(c ∈ others ∧ c ≠ key)) : calledName table key others c = c :=
  if_neg h

section Called

variable (leftName rightName leftOn rightOn : String) (others : List String)

/-- When a column of the left table is called as it should be. -/
theorem joinedName_ended_left_iff :
    joinedName leftName rightName leftOn rightOn (endedName others "_x" c) =
      calledName leftName leftOn others c ↔
      c ∈ others ∧ c = leftOn ∨ ¬HasMark 'x' c ∧ (c ∉ others → ¬HasMark 'y' c) := by
  by_cases hOther : c ∈ others
  · rw [endedName_of_mem hOther]
    by_cases hKey : c = leftOn
    · rw [calledName_of_own fun h => h.2 hKey, hKey, joinedName_key_left]
      exact iff_of_true rfl (Or.inl ⟨hKey ▸ hOther, rfl⟩)
    · rw [calledName_of_shared ⟨hOther, hKey⟩, joinedName_left_eq_iff _ _ _ _ hKey]
      simp [hOther, hKey]
  · rw [endedName_of_notMem hOther, calledName_of_own fun h => hOther h.1, joinedName_eq_self_iff]
    simp [hOther]

/-- When a column of the right table is called as it should be. -/
theorem joinedName_ended_right_iff :
    joinedName leftName rightName leftOn rightOn (endedName others "_y" c) =
      calledName rightName rightOn others c ↔
      c ∈ others ∧ c = rightOn ∨ ¬HasMark 'x' c ∧ ¬HasMark 'y' c := by
  by_cases hOther : c ∈ others
  · rw [endedName_of_mem hOther]
    by_cases hKey : c = rightOn
    · rw [calledName_of_own fun h => h.2 hKey, hKey, joinedName_key_right]
      exact iff_of_true rfl (Or.inl ⟨hKey ▸ hOther, rfl⟩)
    · rw [calledName_of_shared ⟨hOther, hKey⟩, joinedName_right_eq_iff _ _ _ _ hKey]
      simp [hKey]
  · rw [endedName_of_notMem hOther, calledName_of_own fun h => hOther h.1, joinedName_eq_self_iff]
    simp [hOther]

end Called

end TableQuery
