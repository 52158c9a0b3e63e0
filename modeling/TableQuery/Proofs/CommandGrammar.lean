import TableQuery.Proofs.Metadata

/-! The grammar of commands. Each command has one form, and a text is read as a command exactly if
it has that form, however the text is divided. -/
namespace TableQuery.Command

open List Text

variable {cs rest p q w : List Char} {c : Command}

/-- Some characters, none of which is white space. -/
def IsRun (cs : List Char) : Prop := cs ≠ [] ∧ ∀ c ∈ cs, isBlank c = false

def flagTexts : List (List Char) := [[], ", True".toList, ", False".toList]

def semicolons : List (List Char) := [[], [';']]

def lineEnds : List (List Char) := [[], ['\n']]

def Ends (cs : List Char) : Prop := ∃ e ∈ semicolons, ∃ n ∈ lineEnds, cs = e ++ n

/-- The form of a creation, with what stands in the place of the path. -/
def CreatesTable (path cs : List Char) : Prop :=
  IsRun path ∧ ∃ flag ∈ flagTexts, ∃ last, Ends last ∧
    cs = "CREATE TABLE (".toList ++ (path ++ (flag ++ ')' :: last))

/-- The form of a removal. A semicolon has no place of its own in it. -/
def DropsTable (name cs : List Char) : Prop :=
  IsRun name ∧ ∃ n ∈ lineEnds, cs = "DROP TABLE ".toList ++ (name ++ n)

def ShowsTables (cs : List Char) : Prop :=
  ∃ v last, (∀ c ∈ v, isBlank c = true) ∧ Ends last ∧ cs = "SHOW TABLES".toList ++ (v ++ last)

theorem after?_eq_some_iff {words : String} :
    after? words cs = some rest ↔ cs = words.toList ++ rest := by
  unfold after?
  split
  · rename_i h
    obtain ⟨tail, rfl⟩ := isPrefixOf_iff_prefix.1 h
    simp [eq_comm]
  · rename_i h
    refine iff_of_false (by simp) fun hText => h ?_
    rw [hText]
    exact isPrefixOf_iff_prefix.2 (prefix_append _ _)

theorem isEnd_iff : isEnd cs = true ↔ cs ∈ lineEnds := by simp [isEnd, lineEnds]

theorem isClosed_iff : isClosed cs = true ↔ Ends cs := by
  unfold Ends isClosed
  split
  · rename_i rest
    simp [isEnd_iff, semicolons, lineEnds]
  · rename_i h
    have hOther (n : List Char) : cs ≠ ';' :: n := fun hText => h n hText
    simp [isEnd_iff, semicolons, lineEnds, hOther]

/-- The flags of a creation, the missing one among them. -/
def flags : List (Option (List Char)) := [none, some "True".toList, some "False".toList]

def flagPart : Option (List Char) → List Char
  | none => []
  | some flag => ", ".toList ++ flag

theorem flagPart_mem {flag : Option (List Char)} (h : flag ∈ flags) :
    flagPart flag ∈ flagTexts := by
  simp only [flags, mem_cons, not_mem_nil, or_false] at h
  rcases h with rfl | rfl | rfl <;> simp [flagPart, flagTexts]

theorem closingFlag?_eq_some {flag : Option (List Char)} (h : closingFlag? cs = some flag) :
    flag ∈ flags ∧ ∃ last, Ends last ∧ cs = flagPart flag ++ ')' :: last := by
  simp only [closingFlag?] at h
  split_ifs at h with hTrue hFalse hNone
  all_goals cases h
  · obtain ⟨rest, hText, h⟩ := (Option.any_eq_true _ _).1 hTrue
    rw [after?_eq_some_iff] at hText
    split at h
    · exact ⟨by simp [flags], _, isClosed_iff.1 h, hText⟩
    · cases h
  · obtain ⟨rest, hText, h⟩ := (Option.any_eq_true _ _).1 hFalse
    rw [after?_eq_some_iff] at hText
    split at h
    · exact ⟨by simp [flags], _, isClosed_iff.1 h, hText⟩
    · cases h
  · split at hNone
    · exact ⟨by simp [flags], _, isClosed_iff.1 hNone, rfl⟩
    · cases hNone

/-- Where a creation ends, some flag is found. -/
theorem exists_closingFlag {flag last : List Char} (hFlag : flag ∈ flagTexts) (hLast : Ends last) :
    ∃ found, closingFlag? (flag ++ ')' :: last) = some found := by
  simp only [flagTexts, mem_cons, not_mem_nil, or_false] at hFlag
  rcases hFlag with rfl | rfl | rfl
  all_goals simp [closingFlag?, after?, isClosed_iff.2 hLast]

/-- A path that is found is a part of the text with such an end behind it. -/
theorem closes_of_longestPath? {n : Nat} {flag : Option (List Char)}
    (h : longestPath? cs n = some (p, flag)) :
    ∃ m < n, p = cs.take (m + 1) ∧ closingFlag? (cs.drop (m + 1)) = some flag := by
  induction n with
  | zero => cases h
  | succ n ih =>
    rw [longestPath?] at h
    split at h
    · cases h
      exact ⟨n, n.lt_succ_self, rfl, ‹_›⟩
    · obtain ⟨m, hm, hPath⟩ := ih h
      exact ⟨m, Nat.lt_succ_of_lt hm, hPath⟩

theorem longestPath?_isSome {n m : Nat} {flag : Option (List Char)} (hm : m < n)
    (h : closingFlag? (cs.drop (m + 1)) = some flag) : ∃ found, longestPath? cs n = some found := by
  induction n with
  | zero => cases hm
  | succ n ih =>
    rw [longestPath?]
    split
    · exact ⟨_, rfl⟩
    · rename_i hOpen
      refine ih (lt_of_le_of_ne (Nat.le_of_lt_succ hm) fun hSame => ?_)
      rw [hSame, hOpen] at h
      cases h

theorem IsRun.takeWhile_append (h : IsRun w) (rest : List Char) :
    (w ++ rest).takeWhile (fun c => !isBlank c) = w ++ rest.takeWhile fun c => !isBlank c :=
  takeWhile_append_of_pos fun c hc => by simp [h.2 c hc]

theorem isRun_take {n : Nat} (hn : n < (cs.takeWhile fun c => !isBlank c).length) :
    IsRun (cs.take (n + 1)) := by
  obtain ⟨t, ht⟩ := takeWhile_prefix (l := cs) fun c => !isBlank c
  have hTake : cs.take (n + 1) = (cs.takeWhile fun c => !isBlank c).take (n + 1) := by
    rw [← take_append_of_le_length hn, ht]
  rw [hTake]
  refine ⟨fun hNil => ?_, fun c hc => by simpa using mem_takeWhile_imp (mem_of_mem_take hc)⟩
  have hLength := congrArg length hNil
  rw [length_take, length_nil] at hLength
  omega

/-- The last parenthesis is found from the end. -/
theorem Ends.dropWhile_reverse (h : Ends cs) (before : List Char) :
    (before ++ ')' :: cs).reverse.dropWhile (· != ')') = ')' :: before.reverse := by
  obtain ⟨e, he, n, hn, rfl⟩ := h
  simp only [semicolons, lineEnds, mem_cons, not_mem_nil, or_false] at he hn
  rcases he with rfl | rfl <;> rcases hn with rfl | rfl <;> simp

/-- The only blank is that of a flag. -/
theorem IsRun.dropWhile_flag (h : IsRun p) {flag : List Char} (hFlag : flag ∈ flagTexts) :
    (p ++ flag).dropWhile (· != ' ') = flag.tail := by
  have hBlank : ∀ c ∈ p, (c != ' ') = true := by
    intro c hc
    rw [bne_iff_ne]
    rintro rfl
    cases h.2 ' ' hc
  rw [dropWhile_append_of_pos hBlank]
  simp only [flagTexts, mem_cons, not_mem_nil, or_false] at hFlag
  rcases hFlag with rfl | rfl | rfl <;> rfl

/-- A creation can be divided in one way only. -/
theorem CreatesTable.unique (hp : CreatesTable p cs) (hq : CreatesTable q cs) : p = q := by
  obtain ⟨hRun, flag, hFlag, last, hLast, rfl⟩ := hp
  obtain ⟨hRun', flag', hFlag', last', hLast', hText⟩ := hq
  have hSame : p ++ flag = q ++ flag' := by
    rw [append_cancel_left_eq, ← append_assoc, ← append_assoc] at hText
    have hBack := congrArg (fun cs => cs.reverse.dropWhile (· != ')')) hText
    rw [hLast.dropWhile_reverse, hLast'.dropWhile_reverse, cons_inj_right, reverse_inj] at hBack
    exact hBack
  have hTail : flag.tail = flag'.tail := by
    rw [← hRun.dropWhile_flag hFlag, ← hRun'.dropWhile_flag hFlag', hSame]
  have hFlags : ∀ a ∈ flagTexts, ∀ b ∈ flagTexts, a.tail = b.tail → a = b := by decide
  obtain rfl := hFlags flag hFlag flag' hFlag' hTail
  exact append_cancel_right hSame

/-- Quotes and spaces. -/
def marks : List Char := [' ', '\'', '"']

/-- A text without the quotes and spaces at its two ends: these are all that is cut off, and none of
them is left. -/
structure Stripped (cs inner : List Char) : Prop where
  around : ∃ before after, cs = before ++ (inner ++ after) ∧ before ⊆ marks ∧ after ⊆ marks
  first : ∀ c ∈ inner.head?, c ∉ marks
  last : ∀ c ∈ inner.getLast?, c ∉ marks

theorem stripped_unquote (cs : List Char) : Stripped cs (unquote cs).toList := by
  let isMark (c : Char) : Bool := c == ' ' || c == '\'' || c == '"'
  have hMark (c : Char) : isMark c = true ↔ c ∈ marks := by simp [isMark, marks, or_assoc]
  have hEnd (l : List Char) : ∀ c ∈ (l.dropWhile isMark).head?, c ∉ marks := by
    intro c hc
    have hFirst := head?_dropWhile_not isMark l
    rw [Option.mem_def.1 hc] at hFirst
    rw [← hMark, hFirst]
    exact Bool.false_ne_true
  have hTaken (l : List Char) : l.takeWhile isMark ⊆ marks :=
    fun c hc => (hMark c).1 (mem_takeWhile_imp hc)
  have hText : (unquote cs).toList = ((cs.dropWhile isMark).reverse.dropWhile isMark).reverse := by
    simp [unquote, isMark]
  have hRest : ((cs.dropWhile isMark).reverse.dropWhile isMark).reverse ++
      ((cs.dropWhile isMark).reverse.takeWhile isMark).reverse = cs.dropWhile isMark := by
    rw [← reverse_append, takeWhile_append_dropWhile, reverse_reverse]
  rw [hText]
  refine ⟨⟨cs.takeWhile isMark, ((cs.dropWhile isMark).reverse.takeWhile isMark).reverse, ?_,
      hTaken cs, ?_⟩,
    fun c hc => ?_, fun c hc => ?_⟩
  · rw [hRest, takeWhile_append_dropWhile]
  · exact reverse_subset.2 (hTaken _)
  · refine hEnd cs c ?_
    rw [← hRest, head?_append, hc]
    rfl
  · rw [getLast?_reverse] at hc
    exact hEnd _ c hc

def creation (path : List Char) : Command := ⟨.createTable, some [.text (unquote path), .bool true]⟩

def removal (name : List Char) : Command := ⟨.dropTable, some [.text (unquote name)]⟩

/-- Whatever flag is written, and if none is, the table is to be cleaned. -/
theorem make_creation {flag : Option (List Char)} (h : flag ∈ flags) (p : List Char) :
    make .createTable (arguments .createTable [some p, flag]) = .ok (creation p) := by
  simp only [flags, mem_cons, not_mem_nil, or_false] at h
  rcases h with rfl | rfl | rfl <;> rfl

theorem parts?_createTable {parts : List (Option (List Char))}
    (h : parts? .createTable cs = some parts) :
    ∃ p flag, CreatesTable p cs ∧ flag ∈ flags ∧ parts = [some p, flag] := by
  obtain ⟨body, hBody, h⟩ := Option.bind_eq_some_iff.1 h
  obtain ⟨⟨path, flag⟩, hPath, h⟩ := Option.bind_eq_some_iff.1 h
  rw [after?_eq_some_iff] at hBody
  obtain ⟨m, hm, rfl, hClosed⟩ := closes_of_longestPath? hPath
  obtain ⟨hFlag, last, hLast, hRest⟩ := closingFlag?_eq_some hClosed
  refine ⟨_, flag, ⟨isRun_take hm, flagPart flag, flagPart_mem hFlag, last, hLast, ?_⟩, hFlag,
    (Option.some.inj h).symm⟩
  rw [← hRest, take_append_drop, hBody]

theorem CreatesTable.exists_parts (h : CreatesTable p cs) :
    ∃ parts, parts? .createTable cs = some parts := by
  obtain ⟨hRun, flag, hFlag, last, hLast, rfl⟩ := h
  obtain ⟨m, hm⟩ := Nat.exists_eq_add_one.2 (length_pos_of_ne_nil hRun.1)
  obtain ⟨found, hFound⟩ := exists_closingFlag hFlag hLast
  have hClosed : closingFlag? ((p ++ (flag ++ ')' :: last)).drop (m + 1)) = some found := by
    rw [← hm, drop_left]
    exact hFound
  have hBound : m < ((p ++ (flag ++ ')' :: last)).takeWhile fun c => !isBlank c).length := by
    rw [hRun.takeWhile_append, length_append]
    omega
  obtain ⟨path, hPath⟩ := longestPath?_isSome hBound hClosed
  rw [parts?, after?_eq_some_iff.2 rfl]
  exact ⟨_, Option.bind_eq_some_iff.2 ⟨_, rfl, Option.bind_eq_some_iff.2 ⟨path, hPath, rfl⟩⟩⟩

theorem parts?_dropTable_iff {parts : List (Option (List Char))} :
    parts? .dropTable cs = some parts ↔ ∃ w, DropsTable w cs ∧ parts = [some w] := by
  constructor
  · intro h
    obtain ⟨body, hBody, h⟩ := Option.bind_eq_some_iff.1 h
    rw [after?_eq_some_iff] at hBody
    dsimp only at h
    split at h
    · cases h
    rename_i hName
    rw [Bool.or_eq_true, not_or, Bool.not_eq_true', Bool.not_eq_false, isEnd_iff,
      List.isEmpty_iff] at hName
    refine ⟨_, ⟨⟨hName.1, fun c hc => by simpa using mem_takeWhile_imp hc⟩, _, hName.2, ?_⟩,
      (Option.some.inj h).symm⟩
    rw [hBody]
    congr 1
    exact (prefix_iff_eq_append.1 ( takeWhile_prefix _)).symm
  · rintro ⟨w, ⟨hRun, n, hn, rfl⟩, rfl⟩
    have hName : (w ++ n).takeWhile (fun c => !isBlank c) = w := by
      simp only [lineEnds, mem_cons, not_mem_nil, or_false] at hn
      rw [hRun.takeWhile_append]
      rcases hn with rfl | rfl <;> exact append_nil w
    rw [parts?, after?_eq_some_iff.2 rfl]
    change (if _ then _ else _) = _
    rw [hName, drop_left, isEnd_iff.2 hn, if_neg (by simp [hRun.1])]
    rfl

theorem parts?_showTables_iff {parts : List (Option (List Char))} :
    parts? .showTables cs = some parts ↔ ShowsTables cs ∧ parts = [] := by
  constructor
  · intro h
    obtain ⟨body, hBody, h⟩ := Option.bind_eq_some_iff.1 h
    rw [after?_eq_some_iff] at hBody
    split at h
    · rename_i hClosed
      refine ⟨⟨body.takeWhile isBlank, _, fun c hc => mem_takeWhile_imp hc, isClosed_iff.1 hClosed,
          ?_⟩,
        (Option.some.inj h).symm⟩
      rw [takeWhile_append_dropWhile, hBody]
    · cases h
  · rintro ⟨⟨v, last, hBlanks, ⟨e, he, n, hn, rfl⟩, rfl⟩, rfl⟩
    have hClosed : isClosed ((v ++ (e ++ n)).dropWhile isBlank) = true := by
      rw [dropWhile_append_of_pos hBlanks]
      simp only [semicolons, lineEnds, mem_cons, not_mem_nil, or_false] at he hn
      rcases he with rfl | rfl <;> rcases hn with rfl | rfl <;> rfl
    rw [parts?, after?_eq_some_iff.2 rfl]
    exact if_pos hClosed

section Readers

variable {s : String}

theorem readAs_of_parts {kind : CommandKind} {parts : List (Option (List Char))}
    (h : parts? kind s.toList = some parts) (hMake : make kind (arguments kind parts) = .ok c) :
    readAs kind s = .ok (some c) := by
  rw [readAs, h]
  dsimp only
  rw [hMake]
  rfl

theorem readAs_of_none {kind : CommandKind} (h : parts? kind s.toList = none) :
    readAs kind s = .ok none := by
  rw [readAs, h]

theorem readAs_createTable_iff :
    readAs .createTable s = .ok (some c) ↔ ∃ p, CreatesTable p s.toList ∧ c = creation p := by
  constructor
  · intro h
    cases hParts : parts? .createTable s.toList with
    | none =>
      rw [readAs_of_none hParts] at h
      cases h
    | some parts =>
      obtain ⟨p, flag, hCreates, hFlag, rfl⟩ := parts?_createTable hParts
      rw [readAs_of_parts hParts (make_creation hFlag p)] at h
      cases h
      exact ⟨p, hCreates, rfl⟩
  · rintro ⟨p, hCreates, rfl⟩
    -- Some path is found, and there is only one.
    obtain ⟨parts, hParts⟩ := hCreates.exists_parts
    obtain ⟨q, flag, hq, hFlag, rfl⟩ := parts?_createTable hParts
    rw [readAs_of_parts hParts (make_creation hFlag q), hCreates.unique hq]

theorem readAs_dropTable_iff :
    readAs .dropTable s = .ok (some c) ↔ ∃ w, DropsTable w s.toList ∧ c = removal w := by
  constructor
  · intro h
    cases hParts : parts? .dropTable s.toList with
    | none =>
      rw [readAs_of_none hParts] at h
      cases h
    | some parts =>
      obtain ⟨w, hDrops, rfl⟩ := parts?_dropTable_iff.1 hParts
      rw [readAs_of_parts (c := removal w) hParts rfl] at h
      cases h
      exact ⟨w, hDrops, rfl⟩
  · rintro ⟨w, hDrops, rfl⟩
    exact readAs_of_parts (parts?_dropTable_iff.2 ⟨w, hDrops, rfl⟩) rfl

theorem readAs_showTables_iff :
    readAs .showTables s = .ok (some c) ↔ ShowsTables s.toList ∧ c = ⟨.showTables, none⟩ := by
  constructor
  · intro h
    cases hParts : parts? .showTables s.toList with
    | none =>
      rw [readAs_of_none hParts] at h
      cases h
    | some parts =>
      obtain ⟨hShows, rfl⟩ := parts?_showTables_iff.1 hParts
      rw [readAs_of_parts (c := ⟨.showTables, none⟩) hParts rfl] at h
      cases h
      exact ⟨hShows, rfl⟩
  · rintro ⟨hShows, rfl⟩
    exact readAs_of_parts (parts?_showTables_iff.2 ⟨hShows, rfl⟩) rfl

/-- The arguments that are read from a text are never refused. -/
theorem exists_readAs (kind : CommandKind) (s : String) : ∃ c?, readAs kind s = .ok c? := by
  cases hParts : parts? kind s.toList with
  | none => exact ⟨none, readAs_of_none hParts⟩
  | some parts =>
    cases kind with
    | bare => cases hParts
    | createTable =>
      obtain ⟨p, flag, -, hFlag, rfl⟩ := parts?_createTable hParts
      exact ⟨_, readAs_of_parts hParts (make_creation hFlag p)⟩
    | dropTable =>
      obtain ⟨w, -, rfl⟩ := parts?_dropTable_iff.1 hParts
      exact ⟨some (removal w), readAs_of_parts hParts rfl⟩
    | showTables =>
      obtain ⟨-, rfl⟩ := parts?_showTables_iff.1 hParts
      exact ⟨some ⟨.showTables, none⟩, readAs_of_parts hParts rfl⟩

theorem exists_read (s : String) :
    ∃ c₁ c₂ c₃, readAs .createTable s = .ok c₁ ∧ readAs .dropTable s = .ok c₂ ∧
      readAs .showTables s = .ok c₃ ∧ read s = .ok (c₁.or (c₂.or c₃)) := by
  obtain ⟨c₁, h₁⟩ := exists_readAs .createTable s
  obtain ⟨c₂, h₂⟩ := exists_readAs .dropTable s
  obtain ⟨c₃, h₃⟩ := exists_readAs .showTables s
  refine ⟨c₁, c₂, c₃, h₁, h₂, h₃, ?_⟩
  simp only [read, findSomeM?, h₁, h₂, h₃, bind, Except.bind]
  cases c₁ <;> cases c₂ <;> cases c₃ <;> rfl

/-- What is read as a command has the form of one, and what has the form is read so. No two forms
begin alike. -/
theorem read_eq_some_iff :
    read s = .ok (some c) ↔
      (∃ p, CreatesTable p s.toList ∧ c = creation p) ∨
      (∃ w, DropsTable w s.toList ∧ c = removal w) ∨
      ShowsTables s.toList ∧ c = ⟨.showTables, none⟩ := by
  obtain ⟨c₁, c₂, c₃, h₁, h₂, h₃, hRead⟩ := exists_read s
  rw [← readAs_createTable_iff, ← readAs_dropTable_iff, ← readAs_showTables_iff, hRead, h₁, h₂, h₃]
  have hCreate {c : Command} (h : c₁ = some c) : s.toList.head? = some 'C' := by
    obtain ⟨p, ⟨_, _, _, _, _, hText⟩, _⟩ := readAs_createTable_iff.1 (h ▸ h₁)
    rw [hText]
    rfl
  have hDrop {c : Command} (h : c₂ = some c) : s.toList.head? = some 'D' := by
    obtain ⟨w, ⟨_, _, _, hText⟩, _⟩ := readAs_dropTable_iff.1 (h ▸ h₂)
    rw [hText]
    rfl
  have hShow {c : Command} (h : c₃ = some c) : s.toList.head? = some 'S' := by
    obtain ⟨⟨_, _, _, _, hText⟩, _⟩ := readAs_showTables_iff.1 (h ▸ h₃)
    rw [hText]
    rfl
  cases c₁ <;> cases c₂ <;> cases c₃
  all_goals simp_all

end Readers

/-- A text is read as a command exactly if it has the form of that command, and reading it never
fails. The path of a creation is the longest part of the text that can stand in its place, and it is
taken without the quotes and spaces at its ends; so is the name of a table that is dropped. -/
theorem command_recognised_iff (s : String) :
    ((∃ c, read s = .ok (some c) ∧ c.kind = .createTable) ↔ ∃ p, CreatesTable p s.toList) ∧
    (∀ p, CreatesTable p s.toList →
      (∀ q, CreatesTable q s.toList → q.length ≤ p.length) ∧
      ∃ path : String, Stripped p path.toList ∧
        read s = .ok (some ⟨.createTable, some [.text path, .bool true]⟩)) ∧
    ((∃ c, read s = .ok (some c) ∧ c.kind = .dropTable) ↔ ∃ w, DropsTable w s.toList) ∧
    (∀ w, DropsTable w s.toList →
      ∃ name : String, Stripped w name.toList ∧
        read s = .ok (some ⟨.dropTable, some [.text name]⟩)) ∧
    ((∃ c, read s = .ok (some c) ∧ c.kind = .showTables) ↔ ShowsTables s.toList) ∧
    (read s = .ok none ↔
      ¬(∃ p, CreatesTable p s.toList) ∧ ¬(∃ w, DropsTable w s.toList) ∧ ¬ShowsTables s.toList) ∧
    ∃ c?, read s = .ok c? := by
  obtain ⟨c₁, c₂, c₃, -, -, -, hRead⟩ := exists_read s
  have hNone : read s = .ok none ↔ ∀ c, ¬read s = .ok (some c) := by
    rw [hRead, Except.ok.injEq, Option.eq_none_iff_forall_ne_some]
    simp only [Except.ok.injEq, ne_eq]
  rw [hNone]
  simp only [read_eq_some_iff]
  refine ⟨?_,
    fun p hp =>
      ⟨fun q hq => (congrArg length (hq.unique hp)).le, _, stripped_unquote p, .inl ⟨p, hp, rfl⟩⟩,
    ?_, fun w hw => ⟨_, stripped_unquote w, .inr (.inl ⟨w, hw, rfl⟩)⟩, ?_, ?_, _, hRead⟩
  · simp [creation, removal, or_and_right, exists_or]
  · simp [creation, removal, or_and_right, exists_or]
  · simp [creation, removal, or_and_right, exists_or]
  · constructor
    · intro hNone
      exact ⟨fun ⟨p, hp⟩ => hNone _ (.inl ⟨p, hp, rfl⟩),
        fun ⟨w, hw⟩ => hNone _ (.inr (.inl ⟨w, hw, rfl⟩)),
        fun hs => hNone _ (.inr (.inr ⟨hs, rfl⟩))⟩
    · rintro ⟨hCreate, hDrop, hShow⟩ c (⟨p, hp, -⟩ | ⟨w, hw, -⟩ | ⟨hs, -⟩)
      · exact hCreate ⟨p, hp⟩
      · exact hDrop ⟨w, hw⟩
      · exact hShow hs

/-- A path may have a parenthesis and a semicolon in it, and quotes around it. -/
theorem command_recognised_quoted :
    CreatesTable "\"'a);b.csv'\"".toList "CREATE TABLE (\"'a);b.csv'\", False);\n".toList ∧
      ∃ path : String, Stripped "\"'a);b.csv'\"".toList path.toList ∧ path = "a);b.csv" ∧
        read "CREATE TABLE (\"'a);b.csv'\", False);\n" =
          .ok (some ⟨.createTable, some [.text path, .bool true]⟩) := by
  have hForm : CreatesTable "\"'a);b.csv'\"".toList
      "CREATE TABLE (\"'a);b.csv'\", False);\n".toList :=
    ⟨⟨by simp, by simp; decide⟩, ", False".toList, by simp [flagTexts], [';', '\n'],
      ⟨[';'], by simp [semicolons], ['\n'], by simp [lineEnds], rfl⟩, rfl⟩
  obtain ⟨path, hStripped, hRead⟩ := ((command_recognised_iff _).2.1 _ hForm).2
  have hSame : read "CREATE TABLE (\"'a);b.csv'\", False);\n" =
      .ok (some ⟨.createTable, some [.text "a);b.csv", .bool true]⟩) := rfl
  refine ⟨hForm, path, hStripped, ?_, hRead⟩
  rw [hRead] at hSame
  simpa using hSame

/-- A text ends with neither a semicolon nor a line end. -/
def IsBare (cs : List Char) : Prop := ∀ c ∈ cs.getLast?, c ≠ ';' ∧ c ≠ '\n'

theorem IsBare.eq_nil (h : IsBare cs) (hRest : Ends rest) (hSuffix : rest <:+ cs) : rest = [] := by
  obtain ⟨before, rfl⟩ := hSuffix
  obtain ⟨e, he, n, hn, rfl⟩ := hRest
  simp only [semicolons, lineEnds, mem_cons, not_mem_nil, or_false] at he hn
  rcases he with rfl | rfl <;> rcases hn with rfl | rfl <;> simp_all [IsBare]

theorem ends_semicolon : Ends [';'] := ⟨[';'], by simp [semicolons], [], by simp [lineEnds], rfl⟩

/-- A semicolon at the end is not taken away with quotes and blanks. -/
theorem unquote_semicolon_ne (cs : List Char) : unquote (cs ++ [';']) ≠ unquote cs := by
  have hLonger (p : Char → Bool) (hp : p ';' = false) :
      ((cs.dropWhile p).reverse.dropWhile p).reverse.length <
        (((cs ++ [';']).dropWhile p).reverse.dropWhile p).reverse.length := by
    have hKept : (cs ++ [';']).dropWhile p = cs.dropWhile p ++ [';'] := by
      rw [dropWhile_append]
      split
      · rename_i hAll
        rw [List.isEmpty_iff.1 hAll, nil_append, dropWhile_cons_of_neg (by simp [hp])]
      · rfl
    rw [hKept, reverse_append, reverse_singleton, singleton_append,
      dropWhile_cons_of_neg (by simp [hp])]
    simpa [Nat.lt_succ_iff] using (dropWhile_sublist (l := (cs.dropWhile p).reverse) p).length_le
  intro hSame
  exact (hLonger _ rfl).ne' (congrArg length (String.ofList_injective hSame))

open Work

/-- Dropping a table that is there fails otherwise than dropping one that is not, where nothing can
be saved. -/
theorem run_execute_removal (name : List Char) (key : String) (t : Table) :
    (run (execute (removal name)) (.ofTables [(key, t)])).1 =
      .error (if key = unquote name then .fileNotFound else .missingKey) := by
  by_cases hKey : key = unquote name
  · simp [execute, removal, dropEntry, saveMetadata, ensureDirectory, Catalog.find, entryAt?,
      Document.isScalar, Document.sameKey_text, Drive.pathExists, Drive.makeDirectories,
      Path.ofString?, Workspace.ofTables, run_bind, hKey]
  · simp [execute, removal, dropEntry, Catalog.find, entryAt?, Document.isScalar,
      Document.sameKey_text, Workspace.ofTables, run_bind, hKey]

/-- With a semicolon behind it a command is the same command, with the same effect, exactly if it
does not drop a table: there the semicolon becomes a part of the name. -/
theorem semicolon_leaves_command_iff {s : String} {c : Command} (hBare : IsBare s.toList)
    (h : read s = .ok (some c)) :
    ∃ c', read (s ++ ";") = .ok (some c') ∧ c'.kind = c.kind ∧
      (c' = c ↔ c.kind ≠ .dropTable) ∧
      ((∀ w, run (execute c') w = run (execute c) w) ↔ c.kind ≠ .dropTable) := by
  have hText : (s ++ ";").toList = s.toList ++ [';'] := by simp
  have hSame (hRead : read (s ++ ";") = .ok (some c)) (hKind : c.kind ≠ .dropTable) :
      ∃ c', read (s ++ ";") = .ok (some c') ∧ c'.kind = c.kind ∧ (c' = c ↔ c.kind ≠ .dropTable) ∧
        ((∀ w, run (execute c') w = run (execute c) w) ↔ c.kind ≠ .dropTable) :=
    ⟨c, hRead, rfl, iff_of_true rfl hKind, iff_of_true (fun _ => rfl) hKind⟩
  obtain ⟨p, ⟨hRun, flag, hFlag, last, hLast, hForm⟩, rfl⟩ | ⟨name, ⟨hRun, n, hn, hForm⟩, rfl⟩ |
    ⟨⟨v, last, hBlanks, hLast, hForm⟩, rfl⟩ := read_eq_some_iff.1 h
  · obtain rfl :=
      hBare.eq_nil hLast ⟨"CREATE TABLE (".toList ++ p ++ flag ++ [')'], by simp [hForm]⟩
    refine hSame
      (read_eq_some_iff.2 (.inl ⟨p, ⟨hRun, flag, hFlag, [';'], ends_semicolon, ?_⟩, rfl⟩))
      (by simp [creation])
    rw [hText, hForm]
    simp
  · obtain rfl := hBare.eq_nil ⟨[], by simp [semicolons], n, hn, rfl⟩
      ⟨"DROP TABLE ".toList ++ name, by simp [hForm]⟩
    have hRun' : IsRun (name ++ [';']) :=
      ⟨by simp, forall_mem_append.2 ⟨hRun.2, forall_mem_singleton.2 rfl⟩⟩
    have hRead : read (s ++ ";") = .ok (some (removal (name ++ [';']))) :=
      read_eq_some_iff.2
        (.inr (.inl ⟨_, ⟨hRun', [], by simp [lineEnds], by rw [hText, hForm]; simp⟩, rfl⟩))
    have hNames := unquote_semicolon_ne name
    refine ⟨_, hRead, rfl, iff_of_false (fun hEq => hNames ?_) (by simp [removal]),
      iff_of_false (fun hEffect => hNames ?_) (by simp [removal])⟩
    · simpa [removal] using hEq
    · have hFault := congrArg Prod.fst (hEffect (.ofTables [(unquote name, default)]))
      rw [run_execute_removal, run_execute_removal, if_pos rfl] at hFault
      by_contra hNe
      rw [if_neg (Ne.symm hNe)] at hFault
      cases hFault
  · obtain rfl := hBare.eq_nil hLast ⟨"SHOW TABLES".toList ++ v, by simp [hForm]⟩
    refine hSame (read_eq_some_iff.2 (.inr (.inr ⟨⟨v, [';'], hBlanks, ends_semicolon, ?_⟩, rfl⟩)))
      (by simp)
    rw [hText, hForm]
    simp

theorem semicolon_leaves_creation :
    read "CREATE TABLE ('t.csv', True)" =
      .ok (some ⟨.createTable, some [.text "t.csv", .bool true]⟩) ∧
    read "CREATE TABLE ('t.csv', True);" =
      .ok (some ⟨.createTable, some [.text "t.csv", .bool true]⟩) := by
  have hRead : read "CREATE TABLE ('t.csv', True)" =
      .ok (some ⟨.createTable, some [.text "t.csv", .bool true]⟩) := rfl
  obtain ⟨c', hRead', -, hSame, -⟩ := semicolon_leaves_command_iff (by simp [IsBare]) hRead
  obtain rfl := hSame.2 fun h => by cases h
  exact ⟨hRead, hRead'⟩

/-- A table that is dropped has the semicolon in its name. -/
theorem semicolon_joins_name :
    read "DROP TABLE cities" = .ok (some ⟨.dropTable, some [.text "cities"]⟩) ∧
      read "DROP TABLE cities;" = .ok (some ⟨.dropTable, some [.text "cities;"]⟩) := ⟨rfl, rfl⟩

end TableQuery.Command
