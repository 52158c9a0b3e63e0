import TableQuery.Proofs.JoinFaults
import TableQuery.Proofs.Joins

/-! The condition of a join. Its operands are assigned to the two tables by looking for the first
part of each in the name of the table. For some names both columns come from one operand. -/
namespace TableQuery

open List Work

namespace Sql

theorem Node.tag_settled (n : Node) : n.settled.tag = n.tag := by
  cases n <;> rfl

/-- The parts of the name that a side of a join goes by: its alias, or else the name of the table.
-/
def Node.sideParts? (n : Node) : Option (List String) :=
  match n.tag.alias?, n with
  | some a, _ => some a.parts
  | none, .name parts _ => some parts
  | none, _ => none

theorem infix_writePart (part : String) : part.toList <:+: (writePart part).toList := by
  unfold writePart
  dsimp only
  split
  · exact infix_rfl
  · exact ⟨['`'], ['`'], by simp⟩

theorem infix_writeParts (part : String) (rest : List String) :
    part.toList <:+: (writeParts (part :: rest)).toList := by
  refine (infix_writePart part).trans ?_
  rw [writeParts, map_cons]
  cases rest with
  | nil => rw [map_nil, String.intercalate_singleton]
  | cons next rest =>
    rw [map_cons, String.intercalate_cons_cons, String.append_assoc, String.toList_append]
    exact (prefix_append _ _).isInfix

end Sql

namespace Table

variable {kind : JoinKind} {leftName rightName leftOn rightOn : String} {l r joined : Table}

/-- Two compared columns of different names stay both, one that both tables have is there once. -/
theorem not_joinTables_shared {c : String} (hOn : leftOn ≠ rightOn)
    (h : joinTables kind leftName rightName leftOn rightOn l r = .ok joined) :
    joinTables kind leftName rightName c c l r ≠ .ok joined := by
  intro hShared
  have hWidth := congrArg length ((names_of_joinTables h).symm.trans (names_of_joinTables hShared))
  rw [keptNames, if_neg hOn, keptNames] at hWidth
  simp only [length_append, length_map, Nat.add_left_cancel_iff] at hWidth
  have hAll := length_filter_eq_length_iff.1 hWidth.symm c (mem_names_of_joinTables hShared).2
  simp at hAll

/-- A compared column keeps its name. If its namesake is compared, it gets the name of its table. -/
theorem not_joinTables_crossed (hOn : leftOn ≠ rightOn)
    (h : joinTables kind leftName rightName leftOn rightOn l r = .ok joined) :
    joinTables kind leftName rightName rightOn leftOn l r ≠ .ok joined := by
  intro hCrossed
  have hMem := (mem_names_of_joinTables h).1
  have hOther : leftOn ∈ r.names := (mem_names_of_joinTables hCrossed).2
  have hNames := (names_of_joinTables h).symm.trans (names_of_joinTables hCrossed)
  have hLeft := map_inj_left.1 (append_inj_left hNames (by simp)) leftOn hMem
  rw [keptNames, if_neg hOn, keptNames, if_neg hOn.symm, endedName_of_mem hOther,
    joinedName_key_left] at hLeft
  have hQualified := (joinedName_of_ne leftName rightName rightOn leftOn
    (left_ne_right leftOn leftOn) fun hSame => hOn (by simpa using hSame)).1 (hasMark_left leftOn)
  rw [hQualified, stripped_left] at hLeft
  exact qualified_stripped_ne leftName (by decide) leftOn hLeft.symm

end Table

namespace Query

open Sql

/-- The name of a side is found where it is looked for. -/
theorem occursIn_sideName {n : Node} {part : String} {rest : List String}
    (h : n.sideParts? = some (part :: rest)) : occursIn part (sideName n) = true := by
  have hWrapped (body : String) (parens : Bool) :
      body.toList <:+: (if parens then "(" ++ body ++ ")" else body).toList := by
    cases parens
    · exact infix_rfl
    · exact ⟨['('], [')'], by simp⟩
  rw [occursIn_eq_true_iff, sideName, Node.outputName, Node.tag_settled]
  unfold Node.sideParts? at h
  split at h
  · rename_i a hAlias
    cases a
    cases h
    rw [hAlias]
    exact (infix_writeParts part rest).trans (hWrapped _ _)
  · rename_i parts tag hAlias
    cases h
    rw [hAlias]
    exact (infix_writeParts part rest).trans (hWrapped _ tag.parens)
  · cases h

def equality (p : List String) (a : String) (q : List String) (b : String) : Node :=
  .operation .binary "=" [.name (p ++ [a]) {}, .name (q ++ [b]) {}] {}

def MergesOn (w : Workspace) (words : String) (left right : Node) (leftOn rightOn : String)
    (joined : Table) : Prop :=
  ∃ kind l r, JoinKind.ofWords words = .ok kind ∧ SideTables w left right l r ∧
    joinTables kind (sideName left) (sideName right) leftOn rightOn l r = .ok joined

theorem yields_join_iff {w : Workspace} {words : String} {left right : Node}
    {condition : Option Node} {leftOn rightOn : String}
    (hOn : comparedColumns left right condition = .ok (leftOn, rightOn)) (implicit : Bool)
    (tag : Tag) (joined : Table) :
    Yields w (.join words left right condition implicit tag) joined ↔
      MergesOn w words left right leftOn rightOn joined := by
  constructor
  · intro h
    obtain ⟨kind, l, r, _, _, hJoins⟩ := h.joins
    cases hOn.symm.trans hJoins.on_eq
    exact ⟨kind, l, r, hJoins.kind_eq, hJoins.sides, hJoins.joined_eq⟩
  · rintro ⟨kind, l, r, hKind, hSides, hJoined⟩
    exact Joins.yields ⟨hKind, hSides, hOn, hJoined⟩ implicit tag

theorem joinColumns_eq {leftName rightName : String} {m n : Node} {p q a b : String}
    (hm : m.firstPart = .ok p) (hn : n.firstPart = .ok q) (ha : m.lastPart = .ok a)
    (hb : n.lastPart = .ok b) :
    joinColumns leftName rightName m n =
      .ok (if occursIn p leftName then a else b, if occursIn q rightName then b else a) := by
  have hChoice (left right : Bool) :
      (do return (← (if left then m else n).lastPart, ← (if right then n else m).lastPart) :
        Except Fault (String × String)) = .ok (if left then a else b, if right then b else a) := by
    cases left <;> cases right <;> simp only [Bool.false_eq_true, if_false, if_true, ha, hb] <;> rfl
  rw [joinColumns, hm, hn]
  exact hChoice _ _

/-- The columns that an equality compares, by the occurrences of its first parts. -/
theorem comparedColumns_equality (left right : Node) (p q : String) (ps qs : List String)
    (a b : String) :
    comparedColumns left right (some (equality (p :: ps) a (q :: qs) b)) =
      .ok (if occursIn p (sideName left) then a
        else b, if occursIn q (sideName right) then b else a) := by
  have hLast (parts : List String) (c : String) :
      Node.lastPart (.name (parts ++ [c]) {}) = .ok c := by
    rw [Node.lastPart, getLast?_concat]
  exact joinColumns_eq rfl rfl (hLast (p :: ps) a) (hLast (q :: qs) b)

section Swapped

variable {left right : Node} {l r : String} {ls rs : List String}
  (hLeft : left.sideParts? = some (l :: ls)) (hRight : right.sideParts? = some (r :: rs))

def NamesApart (left right : Node) (l r : String) : Prop :=
  occursIn r (sideName left) = false ∧ occursIn l (sideName right) = false

include hLeft hRight

theorem comparedColumns_straight (a b : String) :
    comparedColumns left right (some (equality (l :: ls) a (r :: rs) b)) = .ok (a, b) := by
  rw [comparedColumns_equality, occursIn_sideName hLeft, occursIn_sideName hRight, if_pos rfl,
    if_pos rfl]

/-- An equality may be written the other way round exactly if neither side's name occurs in that of
the other, or both columns have the same name. -/
theorem swapped_equality_joins_alike_iff (words a b : String) (implicit : Bool) (tag : Tag) :
    let straight :=
      Node.join words left right (some (equality (l :: ls) a (r :: rs) b)) implicit tag
    let swapped := Node.join words left right (some (equality (r :: rs) b (l :: ls) a)) implicit tag
    (∀ w joined, Yields w straight joined ↔ MergesOn w words left right a b joined) ∧
    (∀ w joined, Yields w swapped joined ↔
      MergesOn w words left right (if occursIn r (sideName left) then b else a)
        (if occursIn l (sideName right) then a else b) joined) ∧
    (a = b ∨ NamesApart left right l r → evalSource swapped = evalSource straight) ∧
    ∀ w joined, Yields w straight joined →
      (Yields w swapped joined ↔ a = b ∨ NamesApart left right l r) := by
  have hStraight := comparedColumns_straight hLeft hRight a b
  have hSwapped := comparedColumns_equality left right r l rs ls b a
  have hAlike (h : a = b ∨ NamesApart left right l r) :
      comparedColumns left right (some (equality (r :: rs) b (l :: ls) a)) = .ok (a, b) := by
    rw [hSwapped]
    rcases h with rfl | ⟨hl, hr⟩
    · simp
    · simp [hl, hr]
  refine ⟨fun w joined => yields_join_iff hStraight implicit tag joined,
    fun w joined => yields_join_iff hSwapped implicit tag joined, fun h => ?_,
    fun w joined h => ⟨fun h' => ?_, fun h' => ?_⟩⟩
  · rw [evalSource_join, evalSource_join, hStraight, hAlike h]
  · obtain ⟨kind, lt, rt, hKind, hSides, hJoined⟩ :=
      (yields_join_iff hStraight implicit tag joined).1 h
    obtain ⟨kind', lt', rt', hKind', hSides', hJoined'⟩ :=
      (yields_join_iff hSwapped implicit tag joined).1 h'
    cases hKind.symm.trans hKind'
    obtain ⟨rfl, rfl⟩ := hSides.unique hSides'
    by_contra hNot
    obtain ⟨hOn, hApart⟩ := not_or.1 hNot
    cases hl : occursIn r (sideName left) <;> cases hr : occursIn l (sideName right) <;>
      rw [hl, hr] at hJoined'
    · exact hApart ⟨hl, hr⟩
    · exact Table.not_joinTables_shared hOn hJoined hJoined'
    · exact Table.not_joinTables_shared hOn hJoined hJoined'
    · exact Table.not_joinTables_crossed hOn hJoined hJoined'
  · rw [yields_join_iff (hAlike h')]
    exact (yields_join_iff hStraight implicit tag joined).1 h

end Swapped

/-- Two tables whose names contain one another, `ab` and `b`. -/
def nestedNames : Workspace :=
  .ofTables
    [("ab", ⟨Column.freshLabels 2, [("x", .ints .int64 [1, 2]), ("y", .ints .int64 [2, 1])]⟩),
    ("b", ⟨Column.freshLabels 2, [("y", .ints .int64 [1, 2]), ("w", .ints .int64 [10, 20])]⟩)]

def tableAs (table name : String) : Node := .name [table] { alias? := some { parts := [name] } }

/-- `FROM ab AS p INNER JOIN b AS q` on `p.x` and `q.y`: under these names both orders compare the
same columns. -/
theorem swapped_equality_joins_alike_aliased :
    (tableAs "ab" "p").sideParts? = some ["p"] ∧ (tableAs "b" "q").sideParts? = some ["q"] ∧
    ∃ joined, joined.names = ["x", "p.y", "y", "w"] ∧
      Yields nestedNames (.join "INNER JOIN" (tableAs "ab" "p") (tableAs "b" "q")
        (some (equality ["p"] "x" ["q"] "y")) false {}) joined ∧
      Yields nestedNames (.join "INNER JOIN" (tableAs "ab" "p") (tableAs "b" "q")
        (some (equality ["q"] "y" ["p"] "x")) false {}) joined := by
  have hYields : Yields nestedNames
      (.join "INNER JOIN" (tableAs "ab" "p") (tableAs "b" "q") (some (equality ["p"] "x" ["q"] "y"))
        false {}) ⟨Column.freshLabels 2,
      [("x", .ints .int64 [1, 2]), ("p.y", .ints .int64 [2, 1]), ("y", .ints .int64 [1, 2]),
        ("w", .ints .int64 [10, 20])]⟩ := ⟨2, _, rfl, rfl⟩
  have hLeft : (tableAs "ab" "p").sideParts? = some ["p"] := rfl
  have hRight : (tableAs "b" "q").sideParts? = some ["q"] := rfl
  obtain ⟨-, -, -, hAlike⟩ :=
    swapped_equality_joins_alike_iff hLeft hRight "INNER JOIN" "x" "y" false {}
  exact ⟨hLeft, hRight, _, rfl, hYields, (hAlike nestedNames _ hYields).2 (Or.inr ⟨rfl, rfl⟩)⟩

/-- With `ON ab.x = b.y` the columns `x` and `y` are compared, and with `ON b.y = ab.x` it is `y`
twice. -/
theorem swapped_equality_joins_other_rows :
    Yields nestedNames (.join "INNER JOIN" (.name ["ab"] {}) (.name ["b"] {})
      (some (equality ["ab"] "x" ["b"] "y")) false {})
      ⟨Column.freshLabels 2,
        [("x", .ints .int64 [1, 2]), ("ab.y", .ints .int64 [2, 1]), ("y", .ints .int64 [1, 2]),
          ("w", .ints .int64 [10, 20])]⟩ ∧
    Yields nestedNames (.join "INNER JOIN" (.name ["ab"] {}) (.name ["b"] {})
      (some (equality ["b"] "y" ["ab"] "x")) false {})
      ⟨Column.freshLabels 2,
        [("x", .ints .int64 [1, 2]), ("y", .ints .int64 [2, 1]), ("w", .ints .int64 [20, 10])]⟩ :=
  ⟨⟨2, _, rfl, rfl⟩, ⟨2, _, rfl, rfl⟩⟩

section Refused

variable {condition : Option Node}

theorem noQueryFault_run_bind {α β : Type} {x : Work α} {f : α → Work β} {w : Workspace}
    (hx : NoQueryFault (run x w).1) (hf : ∀ a w', NoQueryFault (run (f a) w').1) :
    NoQueryFault (run (x >>= f) w).1 := by
  cases hRun : (run x w).1 with
  | error e =>
    rw [run_bind_error (Prod.ext hRun rfl)]
    rw [hRun] at hx
    exact noQueryFault_error_iff.2 (noQueryFault_error_iff.1 hx)
  | ok a =>
    rw [run_bind_ok (Prod.ext hRun rfl)]
    exact hf a _

theorem noQueryFault_run_joinSide (r : Relation) (w : Workspace) :
    NoQueryFault (run (joinSide r) w).1 := by
  unfold joinSide
  split
  · exact noQueryFault_ok _
  · split
    · exact noQueryFault_ok _
    · exact noQueryFault_error_iff.2 (by simp)
  · exact noQueryFault_ok _
  · exact noQueryFault_error_iff.2 (by simp)

theorem noQueryFault_run_joinOn (kind : JoinKind) (left right : Node) (tag : Tag) (l r : Relation)
    (leftOn rightOn : String) (w : Workspace) :
    NoQueryFault (run (joinOn kind left right tag l r leftOn rightOn) w).1 := by
  refine noQueryFault_run_bind (noQueryFault_run_joinSide l w) fun lt v => ?_
  refine noQueryFault_run_bind (noQueryFault_run_joinSide r v) fun rt v' => ?_
  refine noQueryFault_run_bind ?_ fun joined u => ?_
  · rw [run_lift]
    exact (Table.noQueryFault_join kind leftOn rightOn lt rt).bind fun _ => noQueryFault_ok _
  rw [run_bind_ok (run_newFrame joined u)]
  obtain ⟨scope, hRun⟩ :=
    run_withAlias tag (.frame u.frames.size) { u with frames := u.frames.push { table := joined } }
  rw [hRun]
  exact noQueryFault_ok _

/-- Of two operands only the names count. -/
theorem comparedColumns_binary (left right : Node) (op op' : String) (args : List Node) (t : Tag) :
    comparedColumns left right (some (.operation .binary op args t)) =
      comparedColumns left right (some (.operation .binary op' args t)) := rfl

/-- A condition that compares columns is an operation on two names. -/
theorem comparedColumns_eq_ok {left right : Node} {on : String × String}
    (h : comparedColumns left right condition = .ok on) :
    ∃ op p s q s' rest t,
      condition = some (.operation .binary op (.name p s :: .name q s' :: rest) t) := by
  have hName {n : Node} {part : String} (h : n.firstPart = .ok part) : ∃ p s, n = .name p s := by
    cases n with
    | name p s => exact ⟨p, s, rfl⟩
    | _ => cases h
  obtain ⟨⟨a, b⟩, hSides, h⟩ := bind_eq_ok h
  obtain ⟨_, ha, h⟩ := bind_eq_ok h
  obtain ⟨_, hb, -⟩ := bind_eq_ok h
  obtain ⟨p, s, rfl⟩ := hName ha
  obtain ⟨q, s', rfl⟩ := hName hb
  unfold conditionSides at hSides
  split at hSides
  · split at hSides
    · cases hSides
      exact ⟨_, p, s, q, s', _, _, rfl⟩
    · cases hSides
  · cases hSides
  · cases hSides

/-- The only conditions that are refused as such are operations that are not of two operands. -/
theorem comparedColumns_eq_queryFault_iff (left right : Node) {cause : QueryFault} :
    comparedColumns left right condition = .error (.query cause) ↔
      ∃ form op args t, condition = some (.operation form op args t) ∧ form ≠ .binary ∧
        cause = .joinCondition op := by
  constructor
  · intro h
    cases hSides : conditionSides condition with
    | ok sides =>
      rw [comparedColumns, hSides] at h
      exact absurd h (noQueryFault_joinColumns _ _ _ _ cause)
    | error e =>
      have he : e = .query cause := by
        rw [comparedColumns, hSides] at h
        exact Except.error.inj h
      rw [he] at hSides
      unfold conditionSides at hSides
      split at hSides
      · split at hSides <;> cases hSides
      · rename_i form op args t hForm
        cases hSides
        exact ⟨form, op, args, t, rfl, hForm, rfl⟩
      · cases hSides
  · rintro ⟨form, op, args, t, rfl, hForm, rfl⟩
    cases form with
    | binary => exact absurd rfl hForm
    | _ => rfl

/-- A condition is refused exactly if it is an operation without two operands. One of two operands
is taken for an equality, whatever its operator is. -/
theorem join_condition_refused_iff {w v v' : Workspace} {words : String} {kind : JoinKind}
    {left right : Node} {l r : Relation} (hKind : JoinKind.ofWords words = .ok kind)
    (hLeft : Work.run (evalSide left) w = (.ok l, v))
    (hRight : Work.run (evalSide right) v = (.ok r, v')) (condition : Option Node)
    (implicit : Bool) (tag : Tag) :
    let source := Node.join words left right condition implicit tag
    (∀ cause, (run (evalSource source) w).1 = .error (.query cause) ↔
      ∃ form op args t, condition = some (.operation form op args t) ∧ form ≠ .binary ∧
        cause = .joinCondition op) ∧
    (∀ joined, Yields w source joined →
      ∃ op p s q s' rest t,
        condition = some (.operation .binary op (.name p s :: .name q s' :: rest) t)) ∧
    ∀ op args t, condition = some (.operation .binary op args t) →
      evalSource source = evalSource
        (.join words left right (some (.operation .binary "=" args t)) implicit tag) := by
  intro source
  have hRun : run (evalSource source) w =
      run (lift (comparedColumns left right condition) >>= fun on =>
        joinOn kind left right tag l r on.1 on.2) v' := by
    rw [evalSource_join, hKind, run_bind_ok (run_lift_ok _ _), run_bind_ok hLeft,
      run_bind_ok hRight]
  refine ⟨fun cause => ?_, fun joined h => ?_, ?_⟩
  · rw [← comparedColumns_eq_queryFault_iff left right, hRun]
    cases hOn : comparedColumns left right condition with
    | error e =>
      rw [run_bind_error (run_lift_error _ _)]
      simp only [Except.error.injEq]
    | ok on =>
      rw [run_bind_ok (run_lift_ok _ _)]
      exact iff_of_false (noQueryFault_run_joinOn _ _ _ _ _ _ _ _ _ cause) (by simp)
  · obtain ⟨_, _, _, _, _, hJoins⟩ := h.joins
    exact comparedColumns_eq_ok hJoins.on_eq
  · rintro op args t rfl
    rw [evalSource_join, evalSource_join, comparedColumns_binary left right op "="]

def keyedTables : Workspace := .ofTables [("l", TableJoin.leftRows), ("r", TableJoin.rightRows)]

/-- `FROM l INNER JOIN r ON l.k BETWEEN 1 AND 2` is refused. -/
theorem join_condition_refused_between :
    JoinKind.ofWords "INNER JOIN" = .ok .inner ∧
    ∃ v v', Work.run (evalSide (.name ["l"] {})) keyedTables = (.ok (.frame 0), v) ∧
      Work.run (evalSide (.name ["r"] {})) v = (.ok (.frame 1), v') ∧
      (Work.run (evalSource (.join "INNER JOIN" (.name ["l"] {}) (.name ["r"] {})
        (some (.operation .between "between"
          [.name ["l", "k"] {}, .constant (.int 1) {}, .constant (.int 2) {}] {})) false {}))
        keyedTables).1 = .error (.query (.joinCondition "between")) := by
  have hKind : JoinKind.ofWords "INNER JOIN" = .ok .inner := rfl
  have hLeft : run (evalSide (.name ["l"] {})) keyedTables =
      (.ok (.frame 0), (run (tableOf ["l"]) keyedTables).2) := rfl
  have hRight : run (evalSide (.name ["r"] {})) (run (tableOf ["l"]) keyedTables).2 =
      (.ok (.frame 1), (run (tableOf ["r"]) (run (tableOf ["l"]) keyedTables).2).2) := rfl
  obtain ⟨hRefused, -, -⟩ := join_condition_refused_iff hKind hLeft hRight
    (some (.operation .between "between"
      [.name ["l", "k"] {}, .constant (.int 1) {}, .constant (.int 2) {}] {})) false {}
  exact ⟨hKind, _, _, hLeft, hRight, (hRefused _).2 ⟨.between, "between", _, {}, rfl, nofun, rfl⟩⟩

/-- `FROM l INNER JOIN r ON l.k > r.k` gives the rows whose keys are equal. -/
theorem inequality_joins_equal_keys :
    Yields keyedTables
      (.join "INNER JOIN" (.name ["l"] {}) (.name ["r"] {})
        (some (.operation .binary ">" [.name ["l", "k"] {}, .name ["r", "k"] {}] {})) false {})
      ⟨Column.freshLabels 2,
        [("k", .ints .int64 [2, 3]), ("v", .ints .int64 [20, 30]), ("l.s", .ints .int64 [6, 7]),
         ("w", .ints .int64 [200, 300]), ("r.s", .ints .int64 [8, 9])]⟩ :=
  ⟨2, _, rfl, rfl⟩

end Refused

end Query

end TableQuery
