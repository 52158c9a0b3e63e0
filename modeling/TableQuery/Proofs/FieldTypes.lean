import Mathlib.Data.List.TakeWhile
import TableQuery.Proofs.DocumentText
import TableQuery.Proofs.Storage

/-! What the fields of a column become. A column of texts comes back as it was written only if
nothing in it is a missing word and the fields together are neither numbers nor truth values. -/
namespace TableQuery

open List Data IntKind Nat

namespace Decimal

variable {digits sign : List Char}

theorem isFieldBlank_of_isDigit {c : Char} (h : c.isDigit = true) : isFieldBlank c = false :=
  forall_isDigit (P := fun c => isFieldBlank c = false) (by decide) h

/-- A sign in front of digits is split off them. -/
theorem splitSign_append {cs blanks : List Char} (h : (splitSign cs).2 = digits ++ blanks) :
    ∃ sign, cs = sign ++ digits ++ blanks ∧ (sign = [] ∨ sign = ['-'] ∨ sign = ['+']) := by
  unfold splitSign at h
  split at h
  · exact ⟨['-'], by simp [← h], by simp⟩
  · exact ⟨['+'], by simp [← h], by simp⟩
  · exact ⟨[], by simp [← h], by simp⟩

theorem splitSign_of_isDigit (hSign : sign = [] ∨ sign = ['-'] ∨ sign = ['+'])
    (hDigits : ∀ c ∈ digits, c.isDigit = true) : (splitSign (sign ++ digits)).2 = digits := by
  rcases hSign with rfl | rfl | rfl
  · cases digits with
    | nil => rfl
    | cons c rest =>
      have hc : c.isDigit = true := hDigits c mem_cons_self
      have hMinus : c ≠ '-' := by rintro rfl; cases hc
      have hPlus : c ≠ '+' := by rintro rfl; cases hc
      simp [splitSign, hMinus, hPlus]
  · rfl
  · rfl

theorem isSome_scanDecimal? (hSign : sign = [] ∨ sign = ['-'] ∨ sign = ['+'])
    (hDigits : ∀ c ∈ digits, c.isDigit = true) (hSome : digits ≠ []) :
    (scanDecimal? (sign ++ digits)).isSome = true := by
  unfold scanDecimal?
  have hBody := splitSign_of_isDigit hSign hDigits
  rcases hSplit : splitSign (sign ++ digits) with ⟨negative, body⟩
  rw [hSplit] at hBody
  subst hBody
  have hWhole : body.takeWhile Char.isDigit = body := takeWhile_eq_self_iff.2 hDigits
  have hTail : body.dropWhile Char.isDigit = [] := dropWhile_eq_nil_iff.2 hDigits
  simp [hWhole, hTail, hSome, readExponent?]

end Decimal

namespace Data

/-- Texts and gaps become texts with marks. -/
theorem cells_markObjects {fields : List String} (isGap : String → Bool)
    (h : ∃ f ∈ fields, isGap f = false) :
    (markObjects (fields.map fun f => if isGap f then Csv.gap else .text f)).cells =
      fields.map fun f => if isGap f then .na else .text f := by
  generalize hCells : (fields.map fun f => if isGap f then Csv.gap else Cell.text f) = cells
  have hTexts : ∀ c ∈ cells.filter (!·.isMissing), ∃ s, c = .text s := by
    intro c hc
    obtain ⟨hMem, hPresent⟩ := mem_filter.1 hc
    rw [← hCells] at hMem
    obtain ⟨f, _, rfl⟩ := mem_map.1 hMem
    split at hPresent
    · cases hPresent
    · rename_i hGap
      exact ⟨f, if_neg hGap⟩
  have hSome : (cells.filter (!·.isMissing)).isEmpty = false := by
    obtain ⟨f, hf, hGap⟩ := h
    have hMem : .text f ∈ cells.filter (!·.isMissing) := by
      rw [← hCells]
      exact mem_filter.2 ⟨mem_map.2 ⟨f, hf, by simp [hGap]⟩, rfl⟩
    simpa using ne_nil_of_mem hMem
  unfold markObjects
  dsimp only
  rw [hSome, if_neg Bool.false_ne_true, if_pos]
  · subst hCells
    simp only [toTexts, freeCells, cells, missing, zipWith_map_right, zipWith_map_left,
      zipWith_self, map_map]
    refine map_congr_left fun f _ => ?_
    cases hGap : isGap f
    · simp [hGap, Cell.isMissing, Cell.display]
    · have hMissing : Csv.gap.isMissing = true := rfl
      simp [hGap, hMissing]
  · refine all_eq_true.2 fun c hc => ?_
    obtain ⟨s, rfl⟩ := hTexts c hc
    rfl

/-- Marks make no texts of other entries. -/
theorem exists_text_of_withMarks {d : Data} {s : String} (h : .text s ∈ d.withMarks.cells) :
    ∃ s, .text s ∈ d.cells := by
  cases d with
  | ints k xs => simp [withMarks, cells] at h
  | bools bs => simp [withMarks, cells] at h
  | floats xs =>
    change .text s ∈ (markFloats xs).cells at h
    unfold markFloats at h
    split at h
    · obtain ⟨x, _, hx⟩ := mem_map.1 h
      cases x <;> cases hx
    · obtain ⟨x, _, hx⟩ := mem_map.1 h
      cases x <;> cases hx
  | objects xs =>
    change .text s ∈ (markObjects xs).cells at h
    unfold markObjects at h
    dsimp only at h
    split_ifs at h with hNone hTexts
    · exact ⟨s, h⟩
    · have hSome : xs.filter (!·.isMissing) ≠ [] := by simpa using hNone
      obtain ⟨c, hc⟩ := exists_mem_of_ne_nil _ hSome
      have hText := all_eq_true.1 hTexts c hc
      split at hText
      · exact ⟨_, mem_of_mem_filter hc⟩
      · cases hText
    · obtain ⟨x, _, hx⟩ := mem_map.1 h
      cases x <;> cases hx
    · obtain ⟨x, _, hx⟩ := mem_map.1 h
      cases x <;> cases hx
    · obtain ⟨x, _, hx⟩ := mem_map.1 h
      cases x <;> cases hx
    · exact ⟨s, h⟩
  | _ => exact ⟨s, h⟩

end Data

namespace Csv

open Decimal

variable {low high n : Int} {field s : String} {ns : List Int}

/-- A field that is a whole number: digits with an optional sign, in white space. -/
theorem eq_of_readWhole (h : readWhole low high field = .value n) :
    ∃ sign digits blanks, field.toList.dropWhile isFieldBlank = sign ++ digits ++ blanks ∧
      (sign = [] ∨ sign = ['-'] ∨ sign = ['+']) ∧ digits ≠ [] ∧ (∀ c ∈ digits, c.isDigit = true) ∧
      ∀ c ∈ blanks, isFieldBlank c = true := by
  unfold readWhole at h
  rcases hSplit : splitSign (field.toList.dropWhile isFieldBlank) with ⟨negative, body⟩
  rw [hSplit] at h
  dsimp only at h
  generalize (if negative = true then -(natOfDigits 0 (body.takeWhile Char.isDigit) : Int)
    else natOfDigits 0 (body.takeWhile Char.isDigit)) = m at h
  split_ifs at h with hNone hLong hRest
  obtain ⟨sign, hField, hSign⟩ := splitSign_append
    ((congrArg Prod.snd hSplit).trans (takeWhile_append_dropWhile (p := Char.isDigit)).symm)
  exact ⟨sign, _, _, hField, hSign, by simpa using hNone, fun c hc => mem_takeWhile_imp hc,
    by simpa using hRest⟩

/-- A whole number has the form of a decimal. -/
theorem isSome_readFieldFloat? (h : readWhole low high field = .value n) :
    (readFieldFloat? field).isSome = true := by
  obtain ⟨sign, digits, blanks, hField, hSign, hSome, hDigits, hBlanks⟩ := eq_of_readWhole h
  -- White space behind the digits is trimmed, and the last digit ends it.
  have hTrim : trimField field.toList = sign ++ digits := by
    have hLast : (digits.reverse ++ sign.reverse).dropWhile isFieldBlank =
        digits.reverse ++ sign.reverse := by
      obtain ⟨c, rest, hReverse⟩ := exists_cons_of_ne_nil (reverse_ne_nil_iff.2 hSome)
      have hc : c.isDigit = true := hDigits c (mem_reverse.1 (by simp [hReverse]))
      simp [hReverse, isFieldBlank_of_isDigit hc]
    have hBehind : ∀ c ∈ blanks.reverse, isFieldBlank c = true := by simpa using hBlanks
    rw [trimField, hField, reverse_append, reverse_append, dropWhile_append_of_pos hBehind, hLast]
    simp
  obtain ⟨x, hx⟩ := Option.isSome_iff_exists.1 (isSome_scanDecimal? hSign hDigits hSome)
  simp [readFieldFloat?, hTrim, hx]

theorem splitSign_intText (n : Int) :
    splitSign ((intText n).toList.dropWhile isFieldBlank) =
      (decide (n < 0), toDigits 10 n.natAbs) := by
  rw [Document.toList_intText]
  by_cases hn : n < 0
  · simp [hn, splitSign, show isFieldBlank '-' = false by decide]
  · obtain ⟨c, rest, hDigits⟩ := exists_cons_of_ne_nil (toDigits_ne_nil (b := 10) (n := n.natAbs))
    have hMem : c ∈ toDigits 10 n.natAbs := by simp [hDigits]
    have hc : isFieldBlank c = false := isFieldBlank_of_isDigit (isDigit_of_mem_toDigits hMem)
    have hBlanks : (toDigits 10 n.natAbs).dropWhile isFieldBlank = toDigits 10 n.natAbs := by
      rw [hDigits, dropWhile_cons_of_neg (by simp [hc])]
    rw [if_neg hn, hBlanks, splitSign_toDigits]
    simp [hn]

/-- The numeral of a number between bounds is read as that number. -/
theorem readWhole_intText (hLow : low ≤ n) (hHigh : n ≤ high) :
    readWhole low high (intText n) = .value n := by
  have hDigits : ∀ c ∈ toDigits 10 n.natAbs, c.isDigit = true :=
    fun c hc => isDigit_of_mem_toDigits hc
  have hSome : (toDigits 10 n.natAbs).isEmpty = false := by simp [toDigits_ne_nil]
  have hValue : (if decide (n < 0) = true then -(n.natAbs : Int) else n.natAbs) = n := by
    simp only [decide_eq_true_eq]
    split <;> omega
  have hBounds : (decide (n < low) || decide (high < n)) = false := by simp [hLow, hHigh]
  unfold readWhole
  rw [splitSign_intText]
  dsimp only
  rw [takeWhile_eq_self_iff.2 hDigits, dropWhile_eq_nil_iff.2 hDigits, natOfDigits_toDigits, hSome,
    hValue, hBounds]
  rfl

theorem eq_or_isDigit_of_mem_intText {c : Char} (h : c ∈ (intText n).toList) :
    c = '-' ∨ c.isDigit = true := by
  rw [Document.toList_intText] at h
  split at h
  · rcases mem_cons.1 h with rfl | h
    · exact .inl rfl
    · exact .inr (isDigit_of_mem_toDigits h)
  · exact .inr (isDigit_of_mem_toDigits h)

theorem toList_intText_ne_nil (n : Int) : (intText n).toList ≠ [] := by
  rw [Document.toList_intText]
  split
  · exact cons_ne_nil _ _
  · exact toDigits_ne_nil

/-- No numeral is a missing word. -/
theorem isMissing_intText (n : Int) : isMissing (intText n) = false := by
  have hWords : (missingWords.all fun w =>
      w.toList.isEmpty || w.toList.any fun c => c != '-' && !c.isDigit) = true :=
    rfl
  refine Bool.eq_false_iff.2 fun hMissing => ?_
  have hWord := List.all_eq_true.1 hWords _ (List.contains_iff_mem.1 hMissing)
  rw [Bool.or_eq_true, List.isEmpty_iff, List.any_eq_true] at hWord
  rcases hWord with hEmpty | ⟨c, hc, hOther⟩
  · exact toList_intText_ne_nil n hEmpty
  · rcases eq_or_isDigit_of_mem_intText hc with rfl | hc
    · cases hOther
    · simp [hc] at hOther

theorem readWholes_intTexts (h : ∀ n ∈ ns, low ≤ n ∧ n ≤ high) :
    readWholes low high (ns.map intText) = .values (ns.map some) := by
  induction ns with
  | nil => rfl
  | cons n rest ih =>
    rw [forall_mem_cons] at h
    simp [readWholes, isMissing_intText, readWhole_intText h.1.1 h.1.2, ih h.2]

/-- A column of numerals of words is a column of these words. -/
theorem typed_intTexts (hns : ns ≠ []) (h : ∀ n ∈ ns, int64.fits n = true) :
    typed (ns.map intText) = .ints .int64 ns := by
  obtain ⟨n, hn⟩ := exists_mem_of_ne_nil ns hns
  have hPresent : (ns.map intText).all isMissing = false := by
    simp only [all_map, all_eq_false, Function.comp_apply, isMissing_intText]
    exact ⟨n, hn, Bool.false_ne_true⟩
  have hWholes : readWholes int64.low int64.high (ns.map intText) = .values (ns.map some) :=
    readWholes_intTexts fun n hn => by simpa [fits] using h n hn
  unfold typed
  rw [if_neg (by simpa using hns), if_neg (by simp [hPresent]), hWholes]
  simp [wholes, Function.comp_def]

variable {fields : List String}

theorem readAll?_eq_none_iff {α : Type} {read? : String → Option α} :
    readAll? read? fields = none ↔ ∃ f ∈ fields, isMissing f = false ∧ read? f = none := by
  unfold readAll?
  induction fields with
  | nil => simp
  | cons f rest ih =>
    have hCons (x : Option α) (xs? : Option (List (Option α))) :
        (xs?.bind fun xs => some (x :: xs)) = none ↔ xs? = none := by
      cases xs? <;> simp
    cases hMissing : isMissing f <;> cases hRead : read? f <;> simp [hMissing, hRead, hCons, ih]

/-- Whole numbers are numbers. -/
theorem isSome_of_readWholes {ns : List (Option Int)} (h : readWholes low high fields = .values ns)
    {f : String} (hf : f ∈ fields) (hPresent : isMissing f = false) :
    (readFieldFloat? f).isSome = true := by
  obtain ⟨n, _, hWhole⟩ := exists_mem_right (forall_isWhole h) hf
  rw [IsWhole, if_neg (by simp [hPresent])] at hWhole
  obtain ⟨m, hRead, _⟩ := hWhole
  exact isSome_readFieldFloat? hRead

theorem texts_eq_allTexts_iff :
    texts fields = allTexts fields ↔ ∀ f ∈ fields, isMissing f = false := by
  simp only [texts, allTexts, objects.injEq, map_inj_left]
  refine forall₂_congr fun f _ => ?_
  cases isMissing f <;> simp

theorem typedReals_eq_allTexts_iff (hSome : fields ≠ []) :
    typedReals fields = allTexts fields ↔
      (∀ f ∈ fields, isMissing f = false) ∧ (∃ f ∈ fields, readFieldFloat? f = none) ∧
      ∃ f ∈ fields, readTruth? f = none := by
  unfold typedReals
  split
  · rename_i xs hxs
    refine ⟨nofun, fun ⟨hPresent, ⟨f, hf, hNone⟩, _⟩ => ?_⟩
    rw [readAll?_eq_none_iff.2 ⟨f, hf, hPresent f hf, hNone⟩] at hxs
    cases hxs
  · rename_i hNumber
    split
    · rename_i bs hbs
      refine ⟨fun h => ?_, fun ⟨hPresent, _, f, hf, hNone⟩ => ?_⟩
      · split at h
        · cases h
        · obtain ⟨f, rest, rfl⟩ := exists_cons_of_ne_nil hSome
          obtain ⟨b, _, _, hb, _⟩ := map_eq_cons_iff.1 (objects.inj h)
          cases b <;> cases hb
      · rw [readAll?_eq_none_iff.2 ⟨f, hf, hPresent f hf, hNone⟩] at hbs
        cases hbs
    · rename_i hTruth
      obtain ⟨f, hf, _, hNumber⟩ := readAll?_eq_none_iff.1 hNumber
      obtain ⟨g, hg, _, hTruth⟩ := readAll?_eq_none_iff.1 hTruth
      rw [texts_eq_allTexts_iff]
      exact ⟨fun h => ⟨h, ⟨f, hf, hNumber⟩, ⟨g, hg, hTruth⟩⟩, And.left⟩

def withoutNegatives (fields : List String) : List String :=
  fields.map fun f => if typedLong.isNegative f then "0" else f

/-- The fields that are texts as they stand, and come back as these texts. -/
inductive KeptAsText (fields : List String) : Prop where
  /-- No field is missing, one is no number, and one is no truth value. -/
  | plain (hPresent : ∀ f ∈ fields, isMissing f = false)
      (hNumber : ∃ f ∈ fields, readFieldFloat? f = none)
      (hTruth : ∃ f ∈ fields, readTruth? f = none)
  /-- No field is missing, and a number is too long for words. -/
  | long (hPresent : ∀ f ∈ fields, isMissing f = false)
      (hSigned : readWholes IntKind.int64.low IntKind.int64.high fields = .tooLong)
      (hUnsigned : readWholes IntKind.uint64.low IntKind.uint64.high (withoutNegatives fields) =
        .tooLong)
  /-- No field is missing, and a number is too long for signed words, next to a negative one. -/
  | negative (hPresent : ∀ f ∈ fields, isMissing f = false)
      (hSigned : readWholes IntKind.int64.low IntKind.int64.high fields = .tooLong)
        {ns : List (Option Int)}
      (hUnsigned : readWholes IntKind.uint64.low IntKind.uint64.high (withoutNegatives fields) =
        .values ns)
      (hNegative : ∃ f ∈ fields, typedLong.isNegative f = true)
  /-- A number that only unsigned words hold stands next to a missing field or a negative number. -/
  | mixed (hSigned : readWholes IntKind.int64.low IntKind.int64.high fields = .tooLong)
      {ns : List (Option Int)}
      (hUnsigned : readWholes IntKind.uint64.low IntKind.uint64.high (withoutNegatives fields) =
        .values ns)
      (hGreat : ∃ n, some n ∈ ns ∧ IntKind.int64.high < n)
      (hOther : ∃ f ∈ fields, typedLong.isNegative f = true ∨ isMissing f = true)

theorem withoutNegatives_eq (h : ∀ f ∈ fields, typedLong.isNegative f = false) :
    withoutNegatives fields = fields := by
  refine (map_congr_left fun f hf => ?_).trans (map_id fields)
  simp [h f hf]

/-- Among fields that are words without their signs, a negative or missing one is noticed. -/
theorem any_isNegative_or_iff {ns : List (Option Int)}
    (h : readWholes low high (withoutNegatives fields) = .values ns) :
    (fields.any typedLong.isNegative || !ns.all Option.isSome) = true ↔
      ∃ f ∈ fields, typedLong.isNegative f = true ∨ isMissing f = true := by
  have hWholes := forall_isWhole h
  simp only [Bool.or_eq_true, any_eq_true, Bool.not_eq_true', all_eq_false]
  constructor
  · rintro (⟨f, hf, hNegative⟩ | ⟨x, hx, hNone⟩)
    · exact ⟨f, hf, .inl hNegative⟩
    · obtain ⟨g, hg, hWhole⟩ := exists_mem_left hWholes hx
      unfold IsWhole at hWhole
      split at hWhole
      · rename_i hMissing
        obtain ⟨f, hf, rfl⟩ := mem_map.1 hg
        split at hMissing
        · cases hMissing
        · exact ⟨f, hf, .inr hMissing⟩
      · obtain ⟨m, _, rfl⟩ := hWhole
        exact absurd rfl hNone
  · rintro ⟨f, hf, hOther⟩
    cases hNegative : typedLong.isNegative f with
    | true => exact .inl ⟨f, hf, hNegative⟩
    | false =>
      have hMem : f ∈ withoutNegatives fields := mem_map.2 ⟨f, hf, by simp [hNegative]⟩
      obtain ⟨x, hx, hWhole⟩ := exists_mem_right hWholes hMem
      rw [IsWhole, if_pos (by simpa [hNegative] using hOther)] at hWhole
      exact .inr ⟨x, hx, by simp [hWhole]⟩

theorem typed_of_tooLong (h : readWholes int64.low int64.high fields = .tooLong) :
    typed fields = typedLong fields := by
  obtain ⟨f, hf, hPresent, _⟩ := exists_tooLong h
  have hSome : fields ≠ [] := ne_nil_of_mem hf
  unfold typed
  rw [if_neg (by simpa using hSome), if_neg (by simpa using ⟨f, hf, hPresent⟩), h]

theorem typed_eq_of_keptAsText (hSome : fields ≠ []) (h : KeptAsText fields) :
    typed fields = allTexts fields := by
  cases h with
  | plain hPresent hNumber hTruth =>
    have hReals := (typedReals_eq_allTexts_iff hSome).2 ⟨hPresent, hNumber, hTruth⟩
    have hTexts := texts_eq_allTexts_iff.2 hPresent
    obtain ⟨f, hf, hNone⟩ := hNumber
    have hNoWholes {low high : Int} {ns : List (Option Int)}
        (h : readWholes low high fields = .values ns) : False := by
      have hNumber := isSome_of_readWholes h hf (hPresent f hf)
      simp [hNone] at hNumber
    unfold typed
    rw [if_neg (by simpa using hSome), if_neg (by simpa using ⟨f, hf, hPresent f hf⟩)]
    split
    · rename_i hWholes
      exact (hNoWholes hWholes).elim
    · unfold typedLong
      split
      · rename_i ns hUnsigned
        split
        · split
          · rfl
          · exact hTexts
        · rename_i hOther
          rw [any_isNegative_or_iff hUnsigned] at hOther
          push Not at hOther
          have hSame := withoutNegatives_eq fun f hf => Bool.eq_false_iff.2 (hOther f hf).1
          exact (hNoWholes ((congrArg _ hSame.symm).trans hUnsigned)).elim
      · exact hTexts
      · exact hReals
    · exact hReals
  | long hPresent hSigned hUnsigned =>
    rw [typed_of_tooLong hSigned, typedLong, ← withoutNegatives, hUnsigned]
    exact texts_eq_allTexts_iff.2 hPresent
  | negative hPresent hSigned hUnsigned hNegative =>
    obtain ⟨f, hf, hNegative⟩ := hNegative
    have hOther := (any_isNegative_or_iff hUnsigned).2 ⟨f, hf, .inl hNegative⟩
    rw [typed_of_tooLong hSigned, typedLong, ← withoutNegatives, hUnsigned]
    dsimp only
    rw [if_pos hOther, texts_eq_allTexts_iff.2 hPresent, ite_self]
  | mixed hSigned hUnsigned hGreat hOther =>
    obtain ⟨n, hn, hGreat⟩ := hGreat
    rw [typed_of_tooLong hSigned, typedLong, ← withoutNegatives, hUnsigned]
    dsimp only
    rw [if_pos ((any_isNegative_or_iff hUnsigned).2 hOther), if_pos]
    exact any_eq_true.2 ⟨some n, hn, by simpa using hGreat⟩

theorem keptAsText_of_typed_eq (hSome : fields ≠ []) (h : typed fields = allTexts fields) :
    KeptAsText fields := by
  have hReals (h : typedReals fields = allTexts fields) : KeptAsText fields := by
    obtain ⟨hPresent, hNumber, hTruth⟩ := (typedReals_eq_allTexts_iff hSome).1 h
    exact .plain hPresent hNumber hTruth
  unfold typed at h
  rw [if_neg (by simpa using hSome)] at h
  split at h
  · cases h
  · split at h
    · unfold wholes at h
      split at h <;> cases h
    · rename_i hSigned
      unfold typedLong at h
      split at h
      · rename_i ns hUnsigned
        split at h
        · rename_i hOther
          obtain ⟨f, hf, hOther⟩ := (any_isNegative_or_iff hUnsigned).1 hOther
          split at h
          · rename_i hGreat
            obtain ⟨x, hx, hGreat⟩ := any_eq_true.1 hGreat
            obtain ⟨n, rfl, hGreat⟩ := (Option.any_eq_true _ _).1 hGreat
            exact .mixed hSigned hUnsigned ⟨n, hx, by simpa using hGreat⟩ ⟨f, hf, hOther⟩
          · have hPresent := texts_eq_allTexts_iff.1 h
            exact .negative hPresent hSigned hUnsigned
              ⟨f, hf, by simpa [hPresent f hf] using hOther⟩
        · cases h
      · rename_i hUnsigned
        exact .long (texts_eq_allTexts_iff.1 h) hSigned hUnsigned
      · exact hReals h
    · exact hReals h

theorem cells_withMarks_allTexts (h : fields ≠ []) :
    (allTexts fields).withMarks.cells = fields.map .text := by
  obtain ⟨f, hf⟩ := exists_mem_of_ne_nil fields h
  exact cells_markObjects (fun _ => false) ⟨f, hf, rfl⟩

/-- No text as it stands is missing. -/
theorem eq_false_of_mem_missing {m : Bool} (h : m ∈ (allTexts fields).missing) : m = false := by
  obtain ⟨_, hText, rfl⟩ := mem_map.1 h
  obtain ⟨s, _, rfl⟩ := mem_map.1 hText
  rfl

theorem typedReals_eq_of_text_mem (h : .text s ∈ (typedReals fields).cells) :
    typedReals fields = texts fields := by
  generalize hData : typedReals fields = d at *
  unfold typedReals at hData
  split at hData
  · subst hData
    simp [cells] at h
  · split at hData
    · split at hData
      · subst hData
        simp [cells] at h
      · subst hData
        obtain ⟨b, _, hb⟩ := mem_map.1 h
        cases b <;> cases hb
    · exact hData.symm

theorem typedLong_eq_of_text_mem (h : .text s ∈ (typedLong fields).cells) :
    typedLong fields = texts fields ∨ typedLong fields = allTexts fields := by
  generalize hData : typedLong fields = d at *
  unfold typedLong at hData
  split at hData
  · split at hData
    · split at hData
      · exact .inr hData.symm
      · exact .inl hData.symm
    · subst hData
      simp [cells] at h
  · exact .inl hData.symm
  · subst hData
    exact .inl (typedReals_eq_of_text_mem h)

/-- A column with a text in it holds the texts of its fields. -/
theorem typed_eq_of_text_mem (h : .text s ∈ (typed fields).cells) :
    typed fields = texts fields ∨ typed fields = allTexts fields := by
  generalize hData : typed fields = d at *
  unfold typed at hData
  split at hData
  · subst hData
    cases h
  · split at hData
    · subst hData
      simp [cells] at h
    · split at hData
      · subst hData
        unfold wholes at h
        split at h <;> simp [cells] at h
      · subst hData
        exact typedLong_eq_of_text_mem h
      · subst hData
        exact .inl (typedReals_eq_of_text_mem h)

/-- A column of texts comes back as it was written exactly if it is kept as text. -/
theorem cells_withMarks_typed_iff {xs : List String} (hSome : fields ≠ []) :
    (typed fields).withMarks.cells = xs.map .text ↔ fields = xs ∧ KeptAsText fields := by
  constructor
  · intro h
    have hCells : (typed fields).withMarks.cells ≠ [] := by
      rw [← length_eq_zero_iff.ne, length_cells, length_withMarks, length_typed]
      exact length_eq_zero_iff.not.2 hSome
    obtain ⟨c, hc⟩ := exists_mem_of_ne_nil _ hCells
    obtain ⟨s, _, rfl⟩ := mem_map.1 (h ▸ hc)
    obtain ⟨s, hs⟩ := exists_text_of_withMarks hc
    have hTyped : typed fields = allTexts fields := by
      refine (typed_eq_of_text_mem hs).elim (fun hTexts => ?_) id
      -- A missing field would be marked, and a mark is no text.
      rw [hTexts] at hs h
      obtain ⟨f, hf, hPresent⟩ : ∃ f ∈ fields, isMissing f = false := by
        obtain ⟨f, hf, hText⟩ := mem_map.1 hs
        refine ⟨f, hf, Bool.eq_false_iff.2 fun hMissing => ?_⟩
        rw [if_pos hMissing] at hText
        cases hText
      rw [hTexts, texts_eq_allTexts_iff]
      intro g hg
      refine Bool.eq_false_iff.2 fun hMissing => ?_
      rw [show (texts fields).withMarks.cells =
        _ from cells_markObjects isMissing ⟨f, hf, hPresent⟩] at h
      have hMark : .na ∈ xs.map Cell.text := h ▸ mem_map.2 ⟨g, hg, if_pos hMissing⟩
      obtain ⟨_, _, hText⟩ := mem_map.1 hMark
      cases hText
    rw [hTyped, cells_withMarks_allTexts hSome] at h
    exact ⟨map_injective_iff.2 (fun _ _ => Cell.text.inj) h, keptAsText_of_typed_eq hSome hTyped⟩
  · rintro ⟨rfl, hKept⟩
    rw [typed_eq_of_keptAsText hSome hKept, cells_withMarks_allTexts hSome]

end Csv

end TableQuery
