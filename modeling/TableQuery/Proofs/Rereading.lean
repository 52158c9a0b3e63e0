import Mathlib.Data.List.Forall2
import Mathlib.Data.List.Infix
import Mathlib.Data.List.TakeWhile
import TableQuery.Proofs.DocumentText

/-! Reading the text of any document. A document with doubles need not come back as it was, but the
reader sees the same objects with the same members, and the same texts. -/
namespace TableQuery

open List Option

namespace Document

open Decimal (isNumberChar isNumberChar_of_isDigit)

variable {d : Document} {fuel : Nat} {c : Char}
variable {cs digits : List Char} {m : String × Document} {ms known ms' : List (String × Document)}

def LeavesNumber (cs rest : List Char) : Prop :=
  ∃ used, cs = used ++ rest ∧ ∀ c ∈ used, isNumberChar c = true

theorem LeavesNumber.refl (cs : List Char) : LeavesNumber cs cs := ⟨[], rfl, by simp⟩

theorem LeavesNumber.trans {a b c : List Char} (hab : LeavesNumber a b) (hbc : LeavesNumber b c) :
    LeavesNumber a c := by
  obtain ⟨used, rfl, hUsed⟩ := hab
  obtain ⟨more, rfl, hMore⟩ := hbc
  refine ⟨used ++ more, (append_assoc used more c).symm, fun x hx => ?_⟩
  rcases mem_append.1 hx with hx | hx
  · exact hUsed x hx
  · exact hMore x hx

theorem leavesNumber_cons (hc : isNumberChar c = true) (rest : List Char) :
    LeavesNumber (c :: rest) rest :=
  ⟨[c], rfl, by simpa using hc⟩

theorem leavesNumber_readDigits? {rest : List Char} (h : readDigits? cs = some (digits, rest)) :
    LeavesNumber cs rest := by
  unfold readDigits? at h
  dsimp only at h
  split at h
  · cases h
  · cases h
    exact ⟨cs.takeWhile Char.isDigit, prefix_append_drop (List.takeWhile_prefix _),
      fun c hc => isNumberChar_of_isDigit (mem_takeWhile_imp hc)⟩

theorem leavesNumber_readWhole? {rest : List Char} (h : readWhole? cs = some (digits, rest)) :
    LeavesNumber cs rest := by
  unfold readWhole? at h
  split at h
  · cases h
    exact leavesNumber_cons rfl rest
  · exact leavesNumber_readDigits? h

theorem leavesNumber_readFraction (cs : List Char) : LeavesNumber cs (readFraction cs).2 := by
  unfold readFraction
  split
  · split
    · rename_i hDigits
      exact (leavesNumber_cons rfl _).trans (leavesNumber_readDigits? hDigits)
    · exact .refl _
  · exact .refl _

theorem leavesNumber_readExponentPart (cs : List Char) :
    LeavesNumber cs (readExponentPart cs).2 := by
  unfold readExponentPart
  split
  · rename_i e rest
    split
    · rename_i hLetter
      have he : isNumberChar e = true := by
        rcases Bool.or_eq_true_iff.1 hLetter with h | h
        · simp [isNumberChar, eq_of_beq h]
        · simp [isNumberChar, eq_of_beq h]
      dsimp only
      split
      · rename_i hDigits
        refine (leavesNumber_cons he rest).trans (.trans ?_ (leavesNumber_readDigits? hDigits))
        split
        · exact leavesNumber_cons rfl _
        · exact leavesNumber_cons rfl _
        · exact .refl _
      · exact .refl _
    · exact .refl _
  · exact .refl _

theorem leavesNumber_readUnsigned? {sign rest : List Char}
    (h : readUnsigned? sign cs = some (d, rest)) : LeavesNumber cs rest := by
  obtain ⟨⟨whole, cs₁⟩, hWhole, h⟩ := bind_eq_some_iff.1 h
  have hLeaves := ((leavesNumber_readWhole? hWhole).trans (leavesNumber_readFraction cs₁)).trans
    (leavesNumber_readExponentPart _)
  dsimp only at h
  split at h
  · obtain ⟨n, _, h⟩ := bind_eq_some_iff.1 h
    cases h
    exact hLeaves
  · obtain ⟨x, _, h⟩ := bind_eq_some_iff.1 h
    cases h
    exact hLeaves

/-- Reading a number takes characters of numbers only. -/
theorem leavesNumber_readNumber? {rest : List Char} (h : readNumber? cs = some (d, rest)) :
    LeavesNumber cs rest := by
  unfold readNumber? at h
  split at h
  · exact (leavesNumber_cons rfl _).trans (leavesNumber_readUnsigned? h)
  · exact leavesNumber_readUnsigned? h

/-- What follows a value inside of a document: nothing, or what closes it or leads to the next one.
-/
def Closes (rest : List Char) : Prop := ∀ c, rest.head? = some c → c = ',' ∨ c = ']' ∨ c = '\x7d'

theorem closes_cons (h : c = ',' ∨ c = ']' ∨ c = '\x7d') (rest : List Char) :
    Closes (c :: rest) := by
  intro d hd
  cases hd
  exact h

/-- Reading goes on behind a value, or it stopped inside of a number. -/
def Resumes (rest left : List Char) : Prop :=
  left = rest ∨ ∃ c more, left = c :: more ∧ isNumberChar c = true

/-- After the text of a number there is nothing of it left, or a character of it. -/
theorem LeavesNumber.resumes {text rest left : List Char} (h : LeavesNumber (text ++ rest) left)
    (hText : ∀ c ∈ text, isNumberChar c = true) (hRest : Closes rest) : Resumes rest left := by
  obtain ⟨used, hEq, hUsed⟩ := h
  rcases append_eq_append_iff.1 hEq with ⟨part, rfl, rfl⟩ | ⟨part, rfl, rfl⟩
  · cases part with
    | nil => exact .inl rfl
    | cons c part =>
      have hc := hUsed c (by simp)
      rcases hRest c rfl with rfl | rfl | rfl <;> cases hc
  · cases part with
    | nil => exact .inl rfl
    | cons c part => exact .inr ⟨c, part ++ rest, rfl, hText c (by simp)⟩

/-- No reader of lists or objects goes on inside of a number. -/
theorem skipBlanks_of_isNumberChar (h : isNumberChar c = true) (more : List Char) :
    skipBlanks (c :: more) = c :: more := by
  refine skipBlanks_cons ⟨?_, ?_, ?_, ?_⟩ more <;> (rintro rfl; cases h)

theorem Resumes.eq_of_skipBlanks {rest left more : List Char} (h : Resumes rest left)
    (hLeft : skipBlanks left = c :: more) (hc : isNumberChar c = false) : left = rest := by
  rcases h with rfl | ⟨d, others, rfl, hd⟩
  · rfl
  · rw [skipBlanks_of_isNumberChar hd] at hLeft
    rw [(cons.inj hLeft).1, hc] at hd
    cases hd

theorem Closes.ends {rest : List Char} (h : Closes rest) : Ends rest := by
  intro c hc
  rcases h c hc with rfl | rfl | rfl <;> decide

/-- No word for a value starts like a number that something follows. -/
theorem readConstant?_number {rest : List Char} (hc : isNumberChar c = true)
    (hcs : ∀ d ∈ cs, isNumberChar d = true) (hRest : Closes rest) :
    readConstant? (c :: cs ++ rest) = none := by
  have hFirst : 'n' ≠ c ∧ 't' ≠ c ∧ 'f' ≠ c ∧ 'N' ≠ c ∧ 'I' ≠ c := by
    refine ⟨?_, ?_, ?_, ?_, ?_⟩ <;> (rintro rfl; cases hc)
  have hSecond : (cs ++ rest).head? ≠ some 'I' := by
    cases cs with
    | nil =>
      intro hHead
      rcases hRest 'I' hHead with h | h | h <;> cases h
    | cons d ds =>
      rintro ⟨⟩
      cases hcs 'I' mem_cons_self
  have hInfinity : ¬ ['I', 'n', 'f', 'i', 'n', 'i', 't', 'y'] <+: cs ++ rest := by
    rintro ⟨others, hOthers⟩
    rw [← hOthers] at hSecond
    exact hSecond rfl
  simp [readConstant?, constants, hFirst, hInfinity]

/-- Reading a value where a number stands takes characters of the number only. -/
theorem resumes_number {text rest left : List Char} (hText : ∀ c ∈ text, isNumberChar c = true)
    (hNonempty : text ≠ []) (hRest : Closes rest)
    (h : readValue? (fuel + 1) (text ++ rest) = some (d, left)) : Resumes rest left := by
  obtain ⟨c, cs, rfl⟩ := exists_cons_of_ne_nil hNonempty
  have hc := hText c mem_cons_self
  have hConstant := readConstant?_number hc (fun d hd => hText d (mem_cons_of_mem _ hd)) hRest
  unfold readValue? at h
  split at h
  · rename_i hFirst
    rw [(cons.inj hFirst).1] at hc
    cases hc
  · rename_i hFirst
    rw [(cons.inj hFirst).1] at hc
    cases hc
  · rename_i hFirst
    rw [(cons.inj hFirst).1] at hc
    cases hc
  · rw [hConstant] at h
    exact (leavesNumber_readNumber? h).resumes hText hRest

/-- A document that the text of another may be read as, where something follows. -/
def ReadAs (d d' : Document) : Prop :=
  ∃ fuel rest left, Closes rest ∧ readValue? fuel (d.print.toList ++ rest) = some (d', left)

def MembersReadAs (ms ms' : List (String × Document)) : Prop :=
  List.Forall₂ (fun m m' => m'.1 = m.1 ∧ ReadAs m.2 m'.2) ms ms'

/-- With so many steps, what reads the text of a value takes this text. -/
def ValuesResume (fuel : Nat) : Prop :=
  ∀ (d d' : Document) (rest left : List Char), Closes rest →
    readValue? fuel (d.print.toList ++ rest) = some (d', left) → Resumes rest left

/-- With so many steps, what reads the text of some items takes this text. -/
def ItemsResume (fuel : Nat) : Prop :=
  ∀ (d : Document) (ds items : List Document) (cs rest left : List Char),
    skipBlanks cs = itemsText (d :: ds) ++ ']' :: rest → readItems? fuel cs = some (items, left) →
      left = rest

/-- With so many steps, what reads the text of some members takes this text and knows their names.
-/
def MembersResume (fuel : Nat) : Prop :=
  ∀ (known : List (String × Document)) (m : String × Document) (ms found : List (String × Document))
    (cs rest left : List Char), skipBlanks cs = membersText (m :: ms) ++ '\x7d' :: rest →
    readMembers? fuel known cs = some (found, left) →
    left = rest ∧ ∃ ms', MembersReadAs (m :: ms) ms' ∧
      found = ms'.foldl (fun known m => setMember known m.1 m.2) known

theorem valuesResume_succ (hItems : ItemsResume fuel) (hMembers : MembersResume fuel) :
    ValuesResume (fuel + 1) := by
  intro d d' rest left hRest h
  cases d with
  | null =>
    cases h
    exact .inl rfl
  | bool b =>
    cases b <;> (cases h; exact .inl rfl)
  | int n =>
    rw [print, readValue?_intText n hRest.ends] at h
    cases h
    exact .inl rfl
  | float x =>
    rcases printFloat_cases x with ⟨hText, hNonempty⟩ | hWord
    · exact resumes_number (all_eq_true.1 hText) hNonempty hRest h
    · have hWords : ∀ word ∈ ["NaN", "Infinity", "-Infinity", "-inf", "inf"],
          readValue? (fuel + 1) (word.toList ++ rest) = some (d', left) → left = rest := by
        simp only [mem_cons, not_mem_nil, or_false]
        rintro word (rfl | rfl | rfl | rfl | rfl) hRead
        · cases hRead
          rfl
        · cases hRead
          rfl
        · cases hRead
          rfl
        · cases hRead
        · cases hRead
      exact .inl (hWords _ hWord h)
  | text s =>
    rw [readValue?_text] at h
    cases h
    exact .inl rfl
  | list items =>
    cases items with
    | nil =>
      cases h
      exact .inl rfl
    | cons e es =>
      rw [readValue?_list] at h
      obtain ⟨⟨found, left⟩, hRead, h⟩ := map_eq_some_iff.1 h
      cases h
      exact .inl (hItems e es found _ rest left (skipBlanks_itemsText e es _) hRead)
  | object ms =>
    cases ms with
    | nil =>
      cases h
      exact .inl rfl
    | cons m ms =>
      rw [readValue?_object] at h
      obtain ⟨⟨found, left⟩, hRead, h⟩ := map_eq_some_iff.1 h
      cases h
      exact .inl (hMembers [] m ms found _ rest left (skipBlanks_membersText m ms _) hRead).1

/-- Reading items goes on behind the text of the first one. -/
theorem readItems?_item (hValues : ValuesResume fuel) {items : List Document}
    {rest left : List Char} (hRest : Closes rest) (hText : skipBlanks cs = d.print.toList ++ rest)
    (h : readItems? (fuel + 1) cs = some (items, left)) :
    skipBlanks rest = ']' :: left ∨
    ∃ more found, skipBlanks rest = ',' :: more ∧ readItems? fuel more = some (found, left) := by
  rw [readItems?, hText] at h
  obtain ⟨⟨d', cs'⟩, hRead, hNext⟩ := bind_eq_some_iff.1 h
  have hResumes := hValues d d' rest cs' hRest hRead
  dsimp only at hNext
  split at hNext
  · rename_i hLeft
    cases hNext
    rw [← hResumes.eq_of_skipBlanks hLeft rfl]
    exact .inl hLeft
  · rename_i more hLeft
    obtain ⟨⟨found, left'⟩, hFound, hEnd⟩ := bind_eq_some_iff.1 hNext
    cases hEnd
    rw [← hResumes.eq_of_skipBlanks hLeft rfl]
    exact .inr ⟨more, found, hLeft, hFound⟩
  · cases hNext

theorem itemsResume_succ (hValues : ValuesResume fuel) (hItems : ItemsResume fuel) :
    ItemsResume (fuel + 1) := by
  intro d ds items cs rest left hText h
  cases ds with
  | nil =>
    rw [itemsText_singleton] at hText
    rcases readItems?_item hValues (closes_cons (by simp) rest) hText h with
      hEnd | ⟨more, found, hMore, _⟩
    · exact (cons.inj ((skipBlanks_cons (by decide) rest).symm.trans hEnd)).2.symm
    · cases hMore
  | cons e es =>
    rw [itemsText_cons, append_assoc] at hText
    rcases readItems?_item hValues (closes_cons (by simp) _) hText h with
      hEnd | ⟨more, found, hMore, hFound⟩
    · cases hEnd
    · cases hMore
      exact hItems e es found _ rest left
        ((skipBlanks_blank _).trans (skipBlanks_itemsText e es (']' :: rest))) hFound

/-- Reading members goes on behind the text of the first one, with its name known. -/
theorem readMembers?_member (hValues : ValuesResume fuel) {found : List (String × Document)}
    {rest left : List Char} (hRest : Closes rest) (hText : skipBlanks cs = memberText m ++ rest)
    (h : readMembers? (fuel + 1) known cs = some (found, left)) :
    ∃ d', ReadAs m.2 d' ∧
      (skipBlanks rest = '\x7d' :: left ∧ found = setMember known m.1 d' ∨
        ∃ more, skipBlanks rest = ',' :: more ∧
          readMembers? fuel (setMember known m.1 d') more = some (found, left)) := by
  rw [memberText, toList_printText] at hText
  simp only [cons_append, append_assoc, nil_append] at hText
  rw [readMembers?, hText] at h
  simp only [readText?_printText, bind_eq_bind, bind_some] at h
  rw [skipBlanks_cons (by decide)] at h
  simp only [skipBlanks_blank, skipBlanks_print m.2] at h
  obtain ⟨⟨d', cs'⟩, hRead, hNext⟩ := bind_eq_some_iff.1 h
  have hResumes := hValues m.2 d' rest cs' hRest hRead
  refine ⟨d', ⟨fuel, rest, cs', hRest, hRead⟩, ?_⟩
  split at hNext
  · rename_i hLeft
    cases hNext
    rw [← hResumes.eq_of_skipBlanks hLeft rfl]
    exact .inl ⟨hLeft, rfl⟩
  · rename_i more hLeft
    rw [← hResumes.eq_of_skipBlanks hLeft rfl]
    exact .inr ⟨more, hLeft, hNext⟩
  · cases hNext

theorem membersResume_succ (hValues : ValuesResume fuel) (hMembers : MembersResume fuel) :
    MembersResume (fuel + 1) := by
  intro known m ms found cs rest left hText h
  cases ms with
  | nil =>
    rw [membersText_singleton] at hText
    obtain ⟨d', hRead, ⟨hEnd, rfl⟩ | ⟨more, hMore, _⟩⟩ :=
      readMembers?_member hValues (closes_cons (by simp) rest) hText h
    · exact ⟨(cons.inj hEnd).2.symm, [(m.1, d')], .cons ⟨rfl, hRead⟩ .nil, rfl⟩
    · cases hMore
  | cons n ns =>
    rw [membersText_cons, append_assoc] at hText
    obtain ⟨d', hRead, ⟨hEnd, _⟩ | ⟨more, hMore, hFound⟩⟩ :=
      readMembers?_member hValues (closes_cons (by simp) _) hText h
    · cases hEnd
    · cases hMore
      obtain ⟨hLeft, ms', hAll, rfl⟩ := hMembers _ n ns found _ rest left
        ((skipBlanks_blank _).trans (skipBlanks_membersText n ns ('\x7d' :: rest))) hFound
      exact ⟨hLeft, (m.1, d') :: ms', .cons ⟨rfl, hRead⟩ hAll, rfl⟩

/-- Where a part of a text can be read, the reader goes on behind it. -/
theorem resume_print (fuel : Nat) : ValuesResume fuel ∧ ItemsResume fuel ∧ MembersResume fuel := by
  induction fuel with
  | zero =>
    refine ⟨?_, ?_, ?_⟩
    · intro d d' rest left _ h
      cases h
    · intro d ds items cs rest left _ h
      cases h
    · intro known m ms found cs rest left _ h
      cases h
  | succ fuel ih =>
    obtain ⟨hValues, hItems, hMembers⟩ := ih
    exact ⟨valuesResume_succ hItems hMembers, itemsResume_succ hValues hItems,
      membersResume_succ hValues hMembers⟩

/-- What is read from the text of a document is a document that it may be read as. -/
theorem readAs_of_read {d' : Document} (h : read d.print = .ok d') : ReadAs d d' := by
  unfold read at h
  dsimp only at h
  split at h
  · rename_i found left hRead
    split at h
    · cases h
      have hSkip := skipBlanks_print d []
      rw [append_nil] at hSkip
      rw [hSkip, ← append_nil d.print.toList] at hRead
      exact ⟨_, [], left, fun _ hc => (by cases hc), hRead⟩
    · cases h
  · cases h

/-- A text is read as itself. -/
theorem ReadAs.text {s : String} (h : ReadAs (.text s) d) : d = .text s := by
  obtain ⟨fuel, rest, left, _, h⟩ := h
  cases fuel with
  | zero => cases h
  | succ fuel =>
    rw [readValue?_text] at h
    cases h
    rfl

/-- Members with new names are set one after the other. -/
theorem foldl_setMember (h : ((known ++ ms).map (·.1)).Nodup) :
    ms.foldl (fun known m => setMember known m.1 m.2) known = known ++ ms := by
  induction ms generalizing known with
  | nil => rw [foldl_nil, append_nil]
  | cons m ms ih =>
    have hName : m.1 ∉ known.map (·.1) := by
      intro hMem
      rw [map_append] at h
      exact (nodup_append.1 h).2.2 _ hMem _ mem_cons_self rfl
    rw [foldl_cons, setMember_of_not_mem hName, ih (by simpa using h), append_assoc]
    rfl

theorem MembersReadAs.map_fst (h : MembersReadAs ms ms') : ms'.map (·.1) = ms.map (·.1) := by
  induction h with
  | nil => rfl
  | cons hMember _ ih => rw [map_cons, map_cons, hMember.1, ih]

/-- An object is read as one with the same members. -/
theorem ReadAs.object (h : ReadAs (.object ms) d)
    (hNames : (ms.map (·.1)).Nodup) : ∃ ms', d = .object ms' ∧ MembersReadAs ms ms' := by
  obtain ⟨fuel, rest, left, _, h⟩ := h
  cases fuel with
  | zero => cases h
  | succ fuel =>
    cases ms with
    | nil =>
      cases h
      exact ⟨[], rfl, .nil⟩
    | cons m ms =>
      rw [readValue?_object] at h
      obtain ⟨⟨found, left⟩, hRead, h⟩ := map_eq_some_iff.1 h
      cases h
      obtain ⟨_, ms', hAll, rfl⟩ :=
        (resume_print fuel).2.2 [] m ms found _ rest left (skipBlanks_membersText m ms _) hRead
      refine ⟨ms', ?_, hAll⟩
      rw [foldl_setMember (by rw [nil_append, hAll.map_fst]; exact hNames), nil_append]

theorem MembersReadAs.lookup (h : MembersReadAs ms ms') {name : String}
    (hLookup : ms.lookup name = some d) : ∃ d', ms'.lookup name = some d' ∧ ReadAs d d' := by
  induction h with
  | nil => cases hLookup
  | @cons m m' ms ms' hMember hRest ih =>
    rw [lookup_cons] at hLookup
    rw [lookup_cons, hMember.1]
    split at hLookup
    · cases hLookup
      exact ⟨m'.2, rfl, hMember.2⟩
    · exact ih hLookup

end Document

end TableQuery
