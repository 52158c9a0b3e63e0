import Mathlib.Tactic.IntervalCases
import Mathlib.Tactic.SplitIfs
import TableQuery.Document.Printer
import TableQuery.Document.Reader

/-! The text of a document. Texts and whole numbers that were printed are read back, and no two
members of an object that is read have one name. -/
namespace TableQuery

open List Nat Decimal Text

namespace Decimal

variable {cs : List Char} {c : Char} {n : Nat}

theorem natOfDigits_toDigits (n : Nat) : natOfDigits 0 (toDigits 10 n) = n := by
  have hFold : natOfDigits 0 (toDigits 10 n) = ofDigitChars 10 (toDigits 10 n) 0 := by
    simp only [natOfDigits, ofDigitChars, mul_comm]
    rfl
  rw [hFold, ofDigitChars_ten_toDigits]

/-- A basic digit is one of ten characters. -/
theorem forall_isDigit {P : Char → Prop} (h : ∀ n < 10, P (digitChar n)) (hc : c.isDigit = true) :
    P c := by
  have hRange : 48 ≤ c.toNat ∧ c.toNat ≤ 57 := Char.isDigit_iff_toNat.mp hc
  have hChar : digitChar (c.toNat - 48) = c := by
    apply Char.toNat_inj.mp
    rw [toNat_digitChar_of_lt_ten (by omega)]
    omega
  rw [← hChar]
  exact h _ (by omega)

def IsNumeral (cs : List Char) : Prop := ∀ c ∈ cs, c = '-' ∨ c.isDigit = true

theorem basicDigits_eq (h : IsNumeral cs) : basicDigits cs = cs := by
  have hDigit (c : Char) (hc : c ∈ cs) : basicDigits [c] = [c] := by
    rcases h c hc with rfl | hc
    · decide
    · exact forall_isDigit (P := fun c => basicDigits [c] = [c]) (by decide) hc
  exact (map_congr_left fun c hc => head_eq_of_cons_eq (hDigit c hc)).trans (map_id' _)

theorem strip_eq (h : IsNumeral cs) : strip cs = cs := by
  have hBlank : ∀ c ∈ cs, isBlank c = false := by
    intro c hc
    rcases h c hc with rfl | hc
    · decide
    · exact forall_isDigit (P := fun c => isBlank c = false) (by decide) hc
  have hDrop {ds : List Char} (hds : ∀ c ∈ ds, isBlank c = false) :
      ds.dropWhile isBlank = ds := by
    cases ds with
    | nil => rfl
    | cons c rest => rw [dropWhile_cons_of_neg (by simp [hds c mem_cons_self])]
  unfold strip
  rw [hDrop hBlank, hDrop (by simpa using hBlank), reverse_reverse]

theorem dropSeparators_eq (h : IsNumeral cs) : dropSeparators cs = cs := by
  fun_induction dropSeparators cs with
  | case1 a b rest _ _ =>
    have hMark := h '_' (by simp)
    exact absurd hMark (by decide)
  | case2 a b rest _ _ =>
    have hMark := h '_' (by simp)
    exact absurd hMark (by decide)
  | case3 c rest _ ih => rw [ih fun d hd => h d (mem_cons_of_mem _ hd)]
  | case4 => rfl

theorem readInt?_eq (h : IsNumeral cs) : readInt? (String.ofList cs) = readSigned? cs := by
  rw [readInt?, plainLiteral, String.toList_ofList, strip_eq h, basicDigits_eq h,
    dropSeparators_eq h]

theorem isDigit_of_mem_toDigits (h : c ∈ Nat.toDigits 10 n) : c.isDigit = true :=
  Nat.isDigit_of_mem_toDigits (by decide) (by decide) h

theorem readNat?_toDigits (n : Nat) : readNat? (toDigits 10 n) = some n := by
  have hDigits : (toDigits 10 n).all Char.isDigit = true :=
    all_eq_true.mpr fun c hc => isDigit_of_mem_toDigits hc
  unfold readNat?
  rw [hDigits, natOfDigits_toDigits]
  simp

/-- No number but zero starts with a zero. -/
theorem head?_toDigits (hn : n ≠ 0) : (toDigits 10 n).head? ≠ some '0' := by
  induction n using Nat.strongRecOn with
  | ind n ih =>
    by_cases hSmall : n < 10
    · rw [toDigits_of_lt_base hSmall]
      have hAll : ∀ k < 10, k ≠ 0 → [digitChar k].head? ≠ some '0' := by decide
      exact hAll n hSmall hn
    · rw [toDigits_of_base_le (by decide) (by omega)]
      have hRest := ih (n / 10) (by omega) (by omega)
      cases hDigits : toDigits 10 (n / 10) with
      | nil => exact absurd hDigits toDigits_ne_nil
      | cons d ds =>
        rw [hDigits] at hRest
        simpa using hRest

theorem ne_of_mem_toDigits {d : Char} (hc : c ∈ toDigits 10 n) (hd : d.isDigit = false) :
    c ≠ d := by
  rintro rfl
  rw [isDigit_of_mem_toDigits hc] at hd
  cases hd

theorem splitSign_toDigits (n : Nat) : splitSign (toDigits 10 n) = (false, toDigits 10 n) := by
  unfold splitSign
  split
  · rename_i hCases
    exact absurd rfl (ne_of_mem_toDigits (n := n) (c := '-') (by simp [hCases]) (by decide))
  · rename_i hCases
    exact absurd rfl (ne_of_mem_toDigits (n := n) (c := '+') (by simp [hCases]) (by decide))
  · rfl

theorem isNumeral_toDigits (n : Nat) : IsNumeral (toDigits 10 n) := fun _ hc =>
  .inr (isDigit_of_mem_toDigits hc)

theorem readInt?_toDigits (n : Nat) :
    readInt? (String.ofList ([] ++ toDigits 10 n)) = some (n : Int) := by
  rw [nil_append, readInt?_eq (isNumeral_toDigits n), readSigned?, splitSign_toDigits]
  simp [readNat?_toDigits]

theorem readInt?_neg_toDigits (n : Nat) :
    readInt? (String.ofList (['-'] ++ toDigits 10 n)) = some (-n : Int) := by
  have hNumeral : IsNumeral (['-'] ++ toDigits 10 n) := by
    intro c hc
    rcases mem_cons.mp hc with rfl | hc
    · exact .inl rfl
    · exact isNumeral_toDigits n c hc
  rw [readInt?_eq hNumeral, readSigned?, cons_append, splitSign]
  simp [readNat?_toDigits]

def isNumberChar (c : Char) : Bool :=
  c.isDigit || c == '.' || c == 'e' || c == 'E' || c == '+' || c == '-'

theorem isNumberChar_of_isDigit (h : c.isDigit = true) : isNumberChar c = true := by
  simp [isNumberChar, h]

def NumberText (s : String) : Prop := s.toList.all isNumberChar = true

theorem NumberText.append {a b : String} (ha : NumberText a) (hb : NumberText b) :
    NumberText (a ++ b) := by
  rw [NumberText, String.toList_append, all_append, Bool.and_eq_true]
  exact ⟨ha, hb⟩

theorem numberText_digits (h : ∀ c ∈ cs, c ∈ toDigits 10 n) : NumberText (String.ofList cs) := by
  rw [NumberText, String.toList_ofList, all_eq_true]
  exact fun c hc => isNumberChar_of_isDigit (isDigit_of_mem_toDigits (h c hc))

theorem numberText_zeros (n : Nat) : NumberText (String.ofList (replicate n '0')) := by
  rw [NumberText, String.toList_ofList, all_eq_true]
  intro c hc
  rw [eq_of_mem_replicate hc]
  rfl

theorem numberText_exponentText (k : Int) : NumberText (exponentText k) := by
  have hDigits : NumberText (natText k.natAbs) := numberText_digits fun _ => id
  refine .append (.append rfl ?_) ?_
  · split <;> rfl
  · split
    · exact .append rfl hDigits
    · exact hDigits

/-- The text of a decimal has characters of numbers only. -/
theorem numberText_text (d : Digits) : NumberText d.text := by
  have hTake (n : Nat) : NumberText (String.ofList ((toDigits 10 d.digits).take n)) :=
    numberText_digits fun _ => mem_of_mem_take
  have hDrop (n : Nat) : NumberText (String.ofList ((toDigits 10 d.digits).drop n)) :=
    numberText_digits fun _ => mem_of_mem_drop
  have hAll : NumberText (String.ofList (toDigits 10 d.digits)) := numberText_digits fun _ => id
  unfold Digits.text
  dsimp only
  split
  · split
    · exact .append (.append hAll (numberText_zeros _)) rfl
    · split
      · exact .append (.append (hTake _) rfl) (hDrop _)
      · exact .append (.append rfl (numberText_zeros _)) hAll
  · refine .append (.append (hTake 1) ?_) (numberText_exponentText _)
    split
    · rfl
    · exact .append rfl (hDrop 1)

theorem text_ne_empty (d : Digits) : d.text.toList ≠ [] := by
  unfold Digits.text exponentText
  dsimp only
  repeat' split
  all_goals simp

end Decimal

namespace Document

variable {ms : List (String × Document)} {rest : List Char} {c : Char} {fuel n : Nat}
variable {cs : List Char} {known : List (String × Document)}

/-- What can follow a value: nothing that could be part of a number. -/
def Ends (rest : List Char) : Prop :=
  ∀ c, rest.head? = some c → c.isDigit = false ∧ c ≠ '.' ∧ c ≠ 'e' ∧ c ≠ 'E'

theorem readDigits?_append {digits : List Char} (hDigits : ∀ c ∈ digits, c.isDigit = true)
    (hNonempty : digits ≠ []) (hEnds : Ends rest) :
    readDigits? (digits ++ rest) = some (digits, rest) := by
  have hRest : rest.takeWhile Char.isDigit = [] := by
    cases rest with
    | nil => rfl
    | cons c more => rw [takeWhile_cons_of_neg (by simp [(hEnds c rfl).1])]
  have hTake : (digits ++ rest).takeWhile Char.isDigit = digits := by
    rw [takeWhile_append_of_pos hDigits, hRest, append_nil]
  unfold readDigits?
  simp [hTake, hNonempty]

theorem readWhole?_toDigits (n : Nat) (hEnds : Ends rest) :
    readWhole? (toDigits 10 n ++ rest) = some (toDigits 10 n, rest) := by
  by_cases hn : n = 0
  · rw [hn]
    rfl
  · have hHead := head?_toDigits hn
    have hDigits : readDigits? (toDigits 10 n ++ rest) = some (toDigits 10 n, rest) :=
      readDigits?_append (fun _ => isDigit_of_mem_toDigits) toDigits_ne_nil hEnds
    cases hCases : toDigits 10 n with
    | nil => exact absurd hCases toDigits_ne_nil
    | cons d ds =>
      rw [hCases] at hHead hDigits
      unfold readWhole?
      split
      · simp_all
      · exact hDigits

theorem readFraction_of_ends (h : Ends rest) : readFraction rest = ([], rest) := by
  unfold readFraction
  split
  · exact absurd rfl (h '.' rfl).2.1
  · rfl

theorem readExponentPart_of_ends (h : Ends rest) : readExponentPart rest = ([], rest) := by
  cases rest with
  | nil => rfl
  | cons c more =>
    have hc := h c rfl
    simp [readExponentPart, hc.2.2.1, hc.2.2.2]

theorem toList_intText (n : Int) : (intText n).toList =
      if n < 0 then '-' :: toDigits 10 n.natAbs else toDigits 10 n.natAbs := by
  unfold intText natText
  split <;> simp

theorem readUnsigned?_eq {sign whole : List Char} {n : Int}
    (hWhole : readWhole? cs = some (whole, rest)) (hEnds : Ends rest)
    (hValue : readInt? (String.ofList (sign ++ whole)) = some n) :
    readUnsigned? sign cs = some (.int n, rest) := by
  rw [String.ofList_append] at hValue
  simp [readUnsigned?, hWhole, readFraction_of_ends hEnds, readExponentPart_of_ends hEnds, hValue]

theorem readNumber?_eq_readUnsigned? (h : cs.head? ≠ some '-') :
    readNumber? cs = readUnsigned? [] cs := by
  unfold readNumber?
  split
  · exact absurd rfl h
  · rfl

theorem head?_toDigits_append (rest : List Char) {d : Char} (hd : d.isDigit = false) :
    (toDigits 10 n ++ rest).head? ≠ some d := by
  cases hDigits : toDigits 10 n with
  | nil => exact absurd hDigits toDigits_ne_nil
  | cons c cs =>
    have hc := ne_of_mem_toDigits (n := n) (c := c) (by simp [hDigits]) hd
    simpa using hc

theorem readNumber?_intText (n : Int) (hEnds : Ends rest) :
    readNumber? ((intText n).toList ++ rest) = some (.int n, rest) := by
  have hWhole := readWhole?_toDigits n.natAbs hEnds
  rw [toList_intText]
  by_cases hn : n < 0
  · have hValue := readInt?_neg_toDigits n.natAbs
    have hAbs : (-n.natAbs : Int) = n := by omega
    rw [if_pos hn, cons_append, readNumber?, readUnsigned?_eq hWhole hEnds hValue, hAbs]
  · have hValue := readInt?_toDigits n.natAbs
    have hAbs : (n.natAbs : Int) = n := by omega
    rw [if_neg hn, readNumber?_eq_readUnsigned? (head?_toDigits_append _ (by decide)),
      readUnsigned?_eq hWhole hEnds hValue, hAbs]

theorem toList_hexText (h : n < 0x10000) :
    (hexText 4 n).toList =
      [digitChar (n / 4096), digitChar (n / 256 % 16), digitChar (n / 16 % 16),
        digitChar (n % 16)] := by
  simp only [hexText, String.toList_ofList]
  by_cases h₁ : n < 16
  · rw [toDigits_of_lt_base h₁, show n / 4096 = 0 by omega, show n / 256 % 16 = 0 by omega,
      show n / 16 % 16 = 0 by omega, show n % 16 = n by omega]
    rfl
  rw [toDigits_of_base_le (by decide) (by omega)]
  by_cases h₂ : n / 16 < 16
  · rw [toDigits_of_lt_base h₂, show n / 4096 = 0 by omega, show n / 256 % 16 = 0 by omega,
      show n / 16 % 16 = n / 16 by omega]
    rfl
  rw [toDigits_of_base_le (by decide) (by omega)]
  by_cases h₃ : n / 16 / 16 < 16
  · rw [toDigits_of_lt_base h₃, show n / 4096 = 0 by omega,
      show n / 256 % 16 = n / 16 / 16 by omega]
    rfl
  rw [toDigits_of_base_le (by decide) (by omega), toDigits_of_lt_base (by omega),
    show n / 4096 = n / 16 / 16 / 16 by omega, show n / 256 = n / 16 / 16 by omega]
  rfl

theorem hexValue?_digitChar : ∀ d < 16, hexValue? (digitChar d) = some d := by
  decide

theorem readUnit?_hexText (h : n < 0x10000) (rest : List Char) :
    readUnit? ((hexText 4 n).toList ++ rest) = some (n, rest) := by
  rw [toList_hexText h]
  simp only [cons_append, nil_append, readUnit?, foldlM_cons, foldlM_nil]
  rw [hexValue?_digitChar _ (by omega), hexValue?_digitChar _ (by omega),
    hexValue?_digitChar _ (by omega), hexValue?_digitChar _ (by omega)]
  simp
  omega

def consChar (c : Char) (p : List Char × List Char) : List Char × List Char := (c :: p.1, p.2)

theorem readChars?_escape {letter : Char} (hLetter : letter ≠ 'u')
    (h : simpleEscape? letter = some c) (fuel : Nat) (rest : List Char) :
    readChars? (fuel + 1) ('\\' :: letter :: rest) = (readChars? fuel rest).map (consChar c) := by
  rw [readChars?, h]
  · cases readChars? fuel rest <;> rfl
  · exact hLetter

theorem readChars?_unit {unit : Nat} {more : List Char} (hUnit : readUnit? cs = some (unit, more))
    (hPair : readPair unit more = (c, rest)) (fuel : Nat) :
    readChars? (fuel + 1) ('\\' :: 'u' :: cs) = (readChars? fuel rest).map (consChar c) := by
  rw [readChars?, hUnit]
  simp only [Option.bind_eq_bind, Option.bind_some, hPair]
  cases readChars? fuel rest <;> rfl

theorem readChars?_plain (hQuote : c ≠ '"') (hSlash : c ≠ '\\') (hLow : ¬c.toNat < 0x20)
    (fuel : Nat) (rest : List Char) :
    readChars? (fuel + 1) (c :: rest) = (readChars? fuel rest).map (consChar c) := by
  rw [readChars?, if_neg hLow]
  · cases readChars? fuel rest <;> rfl
  · exact fun hCases => hQuote hCases
  · exact fun _ hCases => absurd hCases hSlash
  · exact fun _ _ hCases => absurd hCases hSlash

/-- A single unit stands for its character, which is no half of a pair. -/
theorem readPair_single (h : c.toNat < 0x10000) (rest : List Char) :
    readPair c.toNat rest = (c, rest) := by
  have hValid : ¬(0xd800 ≤ c.toNat ∧ c.toNat < 0xe000) := by
    have hChar : isValidChar c.toNat := c.valid
    omega
  have hHigh : (decide (0xd800 ≤ c.toNat) && decide (c.toNat < 0xdc00)) = false := by
    simp only [Bool.and_eq_false_iff, decide_eq_false_iff_not]
    omega
  simp only [readPair, hHigh]
  rw [if_neg (by simpa using hValid), Char.ofNat_toNat]

/-- The two units of a character beyond 16 bits are the halves of a pair. -/
theorem units_of_large (h : ¬c.toNat < 0x10000) :
    (0xd800 ≤ highUnit c ∧ highUnit c < 0xdc00) ∧ (0xdc00 ≤ lowUnit c ∧ lowUnit c < 0xe000) ∧
    0x10000 + (highUnit c - 0xd800) * 0x400 + (lowUnit c - 0xdc00) = c.toNat := by
  have hChar : isValidChar c.toNat := c.valid
  unfold highUnit lowUnit
  omega

/-- Reading two units that are the halves of a pair. -/
theorem readChars?_halves {first second : Nat} (hFirst : 0xd800 ≤ first ∧ first < 0xdc00)
    (hSecond : 0xdc00 ≤ second ∧ second < 0xe000)
    (hChar : 0x10000 + (first - 0xd800) * 0x400 + (second - 0xdc00) = c.toNat) (fuel : Nat)
    (rest : List Char) :
    readChars? (fuel + 1) ('\\' :: 'u' ::
      ((hexText 4 first).toList ++ '\\' :: 'u' :: ((hexText 4 second).toList ++ rest))) =
      (readChars? fuel rest).map (consChar c) := by
  have hUnit := readUnit?_hexText (show second < 0x10000 by omega) rest
  have hPair : readPair first ('\\' :: 'u' :: ((hexText 4 second).toList ++ rest)) = (c, rest) := by
    simp [readPair, hFirst, hSecond, hUnit, hChar]
  exact readChars?_unit (readUnit?_hexText (by omega) _) hPair fuel

theorem toList_unitEscape (n : Nat) :
    (unitEscape n).toList = '\\' :: 'u' :: (hexText 4 n).toList := by
  simp [unitEscape]

/-- The forms of a printed character: a letter after a backslash, one unit, two units, or itself. -/
theorem printChar_cases (c : Char) :
    (∃ letter, letter ≠ 'u' ∧ simpleEscape? letter = some c ∧
      (printChar c).toList = ['\\', letter]) ∨
    (c.toNat < 0x10000 ∧ (printChar c).toList = '\\' :: 'u' :: (hexText 4 c.toNat).toList) ∨
    (¬c.toNat < 0x10000 ∧
      (printChar c).toList =
        '\\' :: 'u' ::
          ((hexText 4 (highUnit c)).toList ++ '\\' :: 'u' :: (hexText 4 (lowUnit c)).toList)) ∨
    (c ≠ '"' ∧ c ≠ '\\' ∧ ¬c.toNat < 0x20 ∧ (printChar c).toList = [c]) := by
  unfold printChar
  split_ifs with h₁ h₂ h₃ h₄ h₅ h₆ h₇ h₈ h₉
  · exact .inl ⟨'"', by decide, by rw [beq_iff_eq.mp h₁]; rfl, rfl⟩
  · exact .inl ⟨'\\', by decide, by rw [beq_iff_eq.mp h₂]; rfl, rfl⟩
  · exact .inl ⟨'n', by decide, by rw [beq_iff_eq.mp h₃]; rfl, rfl⟩
  · exact .inl ⟨'r', by decide, by rw [beq_iff_eq.mp h₄]; rfl, rfl⟩
  · exact .inl ⟨'t', by decide, by rw [beq_iff_eq.mp h₅]; rfl, rfl⟩
  · exact .inl ⟨'f', by decide, by rw [beq_iff_eq.mp h₆]; rfl, rfl⟩
  · exact .inl ⟨'b', by decide, by rw [beq_iff_eq.mp h₇]; rfl, rfl⟩
  · exact .inr (.inl ⟨h₉, toList_unitEscape _⟩)
  · refine .inr (.inr (.inl ⟨h₉, ?_⟩))
    rw [String.toList_append, toList_unitEscape, toList_unitEscape, cons_append, cons_append]
  · refine .inr (.inr (.inr ⟨?_, ?_, ?_, by simp⟩))
    · simpa using h₁
    · simpa using h₂
    · simp only [Bool.or_eq_true, decide_eq_true_eq, not_or] at h₈
      exact h₈.1

/-- Reading a printed character gives it back. -/
theorem readChars?_printChar (c : Char) (fuel : Nat) (rest : List Char) :
    readChars? (fuel + 1) ((printChar c).toList ++ rest) =
      (readChars? fuel rest).map (consChar c) := by
  rcases printChar_cases c with ⟨letter, hLetter, hEscape, hText⟩ | ⟨hSmall, hText⟩ |
    ⟨hLarge, hText⟩ | ⟨hQuote, hSlash, hLow, hText⟩
  · rw [hText]
    exact readChars?_escape hLetter hEscape fuel rest
  · rw [hText]
    exact readChars?_unit (readUnit?_hexText hSmall rest) (readPair_single hSmall rest) fuel
  · obtain ⟨hHigh, hLow, hSum⟩ := units_of_large hLarge
    rw [hText, cons_append, cons_append, append_assoc, cons_append, cons_append]
    exact readChars?_halves hHigh hLow hSum fuel rest
  · rw [hText]
    exact readChars?_plain hQuote hSlash hLow fuel rest

theorem length_printChar_pos (c : Char) : 0 < (printChar c).toList.length := by
  rcases printChar_cases c with ⟨_, _, _, hText⟩ | ⟨_, hText⟩ | ⟨_, hText⟩ | ⟨_, _, _, hText⟩ <;>
    exact hText ▸ succ_pos _

theorem readChars?_printChars (cs : List Char)
    (hFuel : (cs.flatMap fun c => (printChar c).toList).length < fuel) (rest : List Char) :
    readChars? fuel ((cs.flatMap fun c => (printChar c).toList) ++ '"' :: rest) =
      some (cs, rest) := by
  induction cs generalizing fuel with
  | nil =>
    cases fuel with
    | zero => simp at hFuel
    | succ fuel => rfl
  | cons c cs ih =>
    cases fuel with
    | zero => simp at hFuel
    | succ fuel =>
      have hPos := length_printChar_pos c
      rw [flatMap_cons, length_append] at hFuel
      rw [flatMap_cons, append_assoc, readChars?_printChar, ih (by omega)]
      rfl

theorem toList_printText (s : String) :
    (printText s).toList = '"' :: ((s.toList.flatMap fun c => (printChar c).toList) ++ ['"']) := by
  simp [printText, String.toList_join, flatMap_map]

theorem readText?_printText (s : String) (rest : List Char) :
    readText? ((s.toList.flatMap fun c => (printChar c).toList) ++ '"' :: rest) =
      some (s, rest) := by
  unfold readText?
  rw [readChars?_printChars s.toList (by simp only [length_append, length_cons]; omega)]
  simp

def itemsText (items : List Document) : List Char :=
  [',', ' '].intercalate ((printAll items).map String.toList)

def membersText (ms : List (String × Document)) : List Char :=
  [',', ' '].intercalate ((printMembers ms).map String.toList)

theorem itemsText_singleton (d : Document) : itemsText [d] = d.print.toList := by
  simp [itemsText, printAll]

theorem itemsText_cons (d e : Document) (rest : List Document) :
    itemsText (d :: e :: rest) = d.print.toList ++ ',' :: ' ' :: itemsText (e :: rest) := by
  simp [itemsText, printAll]

theorem toList_print_list (items : List Document) :
    (print (.list items)).toList = '[' :: (itemsText items ++ [']']) := by
  simp [print, itemsText]

theorem toList_print_object (ms : List (String × Document)) :
    (print (.object ms)).toList = '\x7b' :: (membersText ms ++ ['\x7d']) := by
  simp [print, membersText]

def memberText (m : String × Document) : List Char :=
  (printText m.1).toList ++ ':' :: ' ' :: m.2.print.toList

theorem membersText_singleton (m : String × Document) : membersText [m] = memberText m := by
  simp [membersText, printMembers, memberText]

theorem membersText_cons (m n : String × Document) (rest : List (String × Document)) :
    membersText (m :: n :: rest) = memberText m ++ ',' :: ' ' :: membersText (n :: rest) := by
  simp [membersText, printMembers, memberText]

theorem skipBlanks_cons (h : c ≠ ' ' ∧ c ≠ '\t' ∧ c ≠ '\n' ∧ c ≠ '\r') (cs : List Char) :
    skipBlanks (c :: cs) = c :: cs := by
  unfold skipBlanks
  rw [dropWhile_cons_of_neg (by simp [h])]

theorem skipBlanks_blank (cs : List Char) : skipBlanks (' ' :: cs) = skipBlanks cs := by
  unfold skipBlanks
  rw [dropWhile_cons_of_pos rfl]

/-- A character that a value can start with: no blank, and no closing bracket. -/
def Starts (c : Char) : Prop := (c ≠ ' ' ∧ c ≠ '\t' ∧ c ≠ '\n' ∧ c ≠ '\r') ∧ c ≠ ']'

/-- A whole number starts with a digit, or with a minus sign and a digit. -/
theorem exists_intText_eq (n : Int) : ∃ c cs, c.isDigit = true ∧
    ((intText n).toList = c :: cs ∨ (intText n).toList = '-' :: c :: cs) := by
  rw [toList_intText]
  cases hDigits : toDigits 10 n.natAbs with
  | nil => exact absurd hDigits toDigits_ne_nil
  | cons c cs =>
    have hc := isDigit_of_mem_toDigits (n := n.natAbs) (c := c) (by simp [hDigits])
    refine ⟨c, cs, hc, ?_⟩
    split
    · exact .inr rfl
    · exact .inl rfl

theorem starts_of_isNumberChar (h : isNumberChar c = true) : Starts c := by
  refine ⟨⟨?_, ?_, ?_, ?_⟩, ?_⟩ <;> (rintro rfl; cases h)

/-- A double is written as a number, or as a word. -/
theorem printFloat_cases (x : Float) :
    (NumberText (printFloat x) ∧ (printFloat x).toList ≠ []) ∨
    printFloat x ∈ ["NaN", "Infinity", "-Infinity", "-inf", "inf"] := by
  unfold printFloat floatText
  split
  · exact .inr (by simp)
  split
  · exact .inr (by simp)
  split
  · exact .inr (by simp)
  split
  · rename_i b _
    have hSign : NumberText (if b.negative then "-" else "") := by
      split <;> rfl
    dsimp only
    split
    · exact .inl ⟨hSign.append rfl, by simp⟩
    · refine .inl ⟨hSign.append (numberText_text _), ?_⟩
      simpa using fun _ => text_ne_empty (shortest b)
  · split <;> simp

theorem exists_print_eq_cons (d : Document) : ∃ c cs, d.print.toList = c :: cs ∧ Starts c := by
  cases d with
  | null => exact ⟨'n', _, rfl, by unfold Starts; decide⟩
  | bool b =>
    cases b with
    | false => exact ⟨'f', _, rfl, by unfold Starts; decide⟩
    | true => exact ⟨'t', _, rfl, by unfold Starts; decide⟩
  | int n =>
    obtain ⟨c, cs, hc, hText | hText⟩ := exists_intText_eq n
    · exact ⟨c, cs, hText, forall_isDigit (P := Starts) (by unfold Starts; decide) hc⟩
    · exact ⟨'-', c :: cs, hText, by unfold Starts; decide⟩
  | float x =>
    rcases printFloat_cases x with ⟨hText, hNonempty⟩ | hWord
    · obtain ⟨c, cs, hCons⟩ := exists_cons_of_ne_nil hNonempty
      exact ⟨c, cs, hCons, starts_of_isNumberChar (all_eq_true.1 hText c (hCons ▸ mem_cons_self))⟩
    · have hWords : ∀ word ∈ ["NaN", "Infinity", "-Infinity", "-inf", "inf"],
          ∃ c cs, word.toList = c :: cs ∧ Starts c := by
        simp [Starts]
      exact hWords _ hWord
  | text s => exact ⟨'"', _, toList_printText s, by unfold Starts; decide⟩
  | list items => exact ⟨'[', _, toList_print_list items, by unfold Starts; decide⟩
  | object ms => exact ⟨'\x7b', _, toList_print_object ms, by unfold Starts; decide⟩

theorem skipBlanks_print (d : Document) (rest : List Char) :
    skipBlanks (d.print.toList ++ rest) = d.print.toList ++ rest := by
  obtain ⟨c, cs, hText, hc⟩ := exists_print_eq_cons d
  rw [hText, cons_append, skipBlanks_cons hc.1]

/-- No word for a value starts like a whole number. -/
theorem readConstant?_intText (n : Int) (rest : List Char) :
    readConstant? ((intText n).toList ++ rest) = none := by
  obtain ⟨c, cs, hc, hText | hText⟩ := exists_intText_eq n
  · rw [hText]
    refine forall_isDigit (P := fun c => readConstant? (c :: cs ++ rest) = none) ?_ hc
    intro d hd
    interval_cases d <;> rfl
  · rw [hText]
    refine forall_isDigit (P := fun c => readConstant? ('-' :: c :: cs ++ rest) = none) ?_ hc
    intro d hd
    interval_cases d <;> rfl

theorem readValue?_intText (n : Int) (hEnds : Ends rest) :
    readValue? (fuel + 1) ((intText n).toList ++ rest) = some (.int n, rest) := by
  have hConstant := readConstant?_intText n rest
  have hNumber := readNumber?_intText n hEnds
  have hChar : ∀ c, c.isDigit = true → c ≠ '"' ∧ c ≠ '[' ∧ c ≠ '\x7b' := fun c hc =>
    forall_isDigit (P := fun c => c ≠ '"' ∧ c ≠ '[' ∧ c ≠ '\x7b') (by decide) hc
  have hValue : readValue? (fuel + 1) ((intText n).toList ++ rest) =
      (readConstant? ((intText n).toList ++ rest)).or
        (readNumber? ((intText n).toList ++ rest)) := by
    obtain ⟨c, cs, hc, hText | hText⟩ := exists_intText_eq n
    · rw [readValue?]
      all_goals simp_all
    · rw [hText, readValue?]
      all_goals simp
  rw [hValue, hConstant, hNumber]
  rfl

theorem exists_itemsText_eq_cons (d : Document) (ds : List Document) :
    ∃ c cs, itemsText (d :: ds) = c :: cs ∧ Starts c := by
  obtain ⟨c, cs, hText, hc⟩ := exists_print_eq_cons d
  cases ds with
  | nil => exact ⟨c, cs, by rw [itemsText_singleton, hText], hc⟩
  | cons e es => exact ⟨c, _, by rw [itemsText_cons, hText, cons_append], hc⟩

theorem skipBlanks_itemsText (d : Document) (ds : List Document) (rest : List Char) :
    skipBlanks (itemsText (d :: ds) ++ rest) = itemsText (d :: ds) ++ rest := by
  obtain ⟨c, cs, hText, hc⟩ := exists_itemsText_eq_cons d ds
  rw [hText, cons_append, skipBlanks_cons hc.1]

theorem exists_membersText_eq_cons (m : String × Document) (ms : List (String × Document)) :
    ∃ cs, membersText (m :: ms) = '"' :: cs := by
  cases ms with
  | nil => exact ⟨_, by rw [membersText_singleton, memberText, toList_printText, cons_append]⟩
  | cons n ns =>
    exact ⟨_, by rw [membersText_cons, memberText, toList_printText, cons_append, cons_append]⟩

theorem skipBlanks_membersText (m : String × Document) (ms : List (String × Document))
    (rest : List Char) :
    skipBlanks (membersText (m :: ms) ++ rest) = membersText (m :: ms) ++ rest := by
  obtain ⟨cs, hText⟩ := exists_membersText_eq_cons m ms
  rw [hText, cons_append, skipBlanks_cons (by decide)]

theorem readValue?_text (s : String) (rest : List Char) :
    readValue? (fuel + 1) ((print (.text s)).toList ++ rest) = some (.text s, rest) := by
  change readValue? (fuel + 1) ((printText s).toList ++ rest) = _
  rw [toList_printText, cons_append, append_assoc, readValue?, cons_append, readText?_printText]
  rfl

/-- Reading the text of a list with items is reading the text of these. -/
theorem readValue?_list (d : Document) (ds : List Document) (rest : List Char) :
    readValue? (fuel + 1) ((print (.list (d :: ds))).toList ++ rest) =
      (readItems? fuel (itemsText (d :: ds) ++ ']' :: rest)).map fun x => (.list x.1, x.2) := by
  obtain ⟨c, cs, hText, hc⟩ := exists_itemsText_eq_cons d ds
  rw [toList_print_list, cons_append, append_assoc, readValue?, skipBlanks_itemsText]
  split
  · rename_i hFirst
    rw [hText] at hFirst
    exact absurd (cons.inj hFirst).1 hc.2
  · rfl

theorem readValue?_object (m : String × Document) (ms : List (String × Document))
    (rest : List Char) :
    readValue? (fuel + 1) ((print (.object (m :: ms))).toList ++ rest) =
      (readMembers? fuel [] (membersText (m :: ms) ++ '\x7d' :: rest)).map
        fun x => (.object x.1, x.2) := by
  obtain ⟨cs, hText⟩ := exists_membersText_eq_cons m ms
  rw [toList_print_object, cons_append, append_assoc, readValue?, skipBlanks_membersText]
  split
  · rename_i hFirst
    rw [hText] at hFirst
    exact absurd (cons.inj hFirst).1 (by decide)
  · rfl

/-- A member that is not known yet comes after the others. -/
theorem setMember_of_not_mem {name : String} (h : name ∉ known.map (·.1)) (d : Document) :
    setMember known name d = known ++ [(name, d)] := by
  induction known with
  | nil => rfl
  | cons m rest ih =>
    simp only [map_cons, mem_cons, not_or] at h
    rw [setMember, if_neg (by simpa using fun hName => h.1 hName.symm), ih h.2, cons_append]

/-- Setting a member keeps the names, or puts a new one after them. -/
theorem map_setMember (ms : List (String × Document)) (name : String) (d : Document) :
    (setMember ms name d).map (·.1) =
      if name ∈ ms.map (·.1) then ms.map (·.1) else ms.map (·.1) ++ [name] := by
  induction ms with
  | nil => rfl
  | cons m rest ih =>
    by_cases hName : m.1 = name
    · simp [setMember, hName]
    · have hName' : ¬name = m.1 := fun h => hName h.symm
      rw [setMember, if_neg (by simpa using hName), map_cons, ih]
      by_cases hRest : name ∈ rest.map (·.1)
      · simp only [hRest, if_true, map_cons, mem_cons, or_true]
      · simp only [hRest, hName', if_false, map_cons, mem_cons, or_self, cons_append]

theorem nodup_setMember (h : (ms.map (·.1)).Nodup) (name : String)
    (d : Document) : ((setMember ms name d).map (·.1)).Nodup := by
  rw [map_setMember]
  split
  · exact h
  · rename_i hName
    refine nodup_append.2 ⟨h, by simp, ?_⟩
    rintro a ha b hb rfl
    exact hName (mem_singleton.1 hb ▸ ha)

theorem nodup_of_readMembers?
    (hRead : readMembers? fuel known cs = some (ms, rest)) (hKnown : (known.map (·.1)).Nodup) :
    (ms.map (·.1)).Nodup := by
  induction fuel generalizing known cs with
  | zero => cases hRead
  | succ fuel ih =>
    unfold readMembers? at hRead
    split at hRead
    · obtain ⟨⟨name, cs⟩, _, hRead⟩ := Option.bind_eq_some_iff.1 hRead
      dsimp only at hRead
      split at hRead
      · obtain ⟨⟨d, cs⟩, _, hRead⟩ := Option.bind_eq_some_iff.1 hRead
        split at hRead
        · cases hRead
          exact nodup_setMember hKnown name d
        · exact ih hRead (nodup_setMember hKnown name d)
        · cases hRead
      · cases hRead
    · cases hRead

theorem readConstant?_ne_object : readConstant? cs ≠ some (.object ms, rest) := by
  intro h
  obtain ⟨⟨word, d⟩, hWord, hRead⟩ := exists_of_findSome?_eq_some h
  dsimp only at hRead
  split at hRead
  · cases hRead
    simp [constants] at hWord
  · cases hRead

theorem readNumber?_ne_object : readNumber? cs ≠ some (.object ms, rest) := by
  have hUnsigned (sign cs : List Char) : readUnsigned? sign cs ≠ some (.object ms, rest) := by
    intro h
    obtain ⟨_, _, h⟩ := Option.bind_eq_some_iff.1 h
    dsimp only at h
    split at h
    · obtain ⟨_, _, h⟩ := Option.bind_eq_some_iff.1 h
      cases h
    · obtain ⟨_, _, h⟩ := Option.bind_eq_some_iff.1 h
      cases h
  unfold readNumber?
  split <;> exact hUnsigned _ _

/-- Of an object that is read no two members have one name. -/
theorem nodup_of_read {s : String} (h : read s = .ok (.object ms)) : (ms.map (·.1)).Nodup := by
  unfold read at h
  dsimp only at h
  split at h
  · rename_i d rest hRead
    split at h
    · cases h
      unfold readValue? at hRead
      split at hRead
      · obtain ⟨_, _, h⟩ := Option.map_eq_some_iff.1 hRead
        cases h
      · split at hRead
        · cases hRead
        · obtain ⟨_, _, h⟩ := Option.map_eq_some_iff.1 hRead
          cases h
      · split at hRead
        · cases hRead
          exact nodup_nil
        · obtain ⟨⟨members, cs⟩, hMembers, hEq⟩ := Option.map_eq_some_iff.1 hRead
          cases hEq
          exact nodup_of_readMembers? hMembers nodup_nil
      · rcases Option.or_eq_some_iff.1 hRead with hRead | ⟨_, hRead⟩
        · exact absurd hRead readConstant?_ne_object
        · exact absurd hRead readNumber?_ne_object
    · cases h
  · cases h

end Document

end TableQuery
