import Mathlib.Data.List.Induction
import Mathlib.Data.Nat.Digits.Defs
import Mathlib.Tactic.SplitIfs

/-!
Decimal numerals as texts: the digits of a number behind any count of zeros, and
with a sign. Spellings are described without reading them.
-/

namespace Numerals

/-- The digits of the number, behind any count of zeros. -/
def Spells (number : Nat) (digits : List Char) : Prop :=
  ∃ zeros, digits = List.replicate zeros '0' ++ Nat.toDigits 10 number

def AllDigits (digits : List Char) : Prop := ∀ digit ∈ digits, digit.isDigit = true

theorem allDigits_toDigits (number : Nat) : AllDigits (Nat.toDigits 10 number) :=
  fun _ member => Nat.isDigit_of_mem_toDigits (by decide) (by decide) member

theorem Spells.canonical (number : Nat) : Spells number (Nat.toDigits 10 number) := ⟨0, rfl⟩

theorem Spells.allDigits {number : Nat} {digits : List Char} (spells : Spells number digits) :
    AllDigits digits := by
  obtain ⟨zeros, rfl⟩ := spells
  intro digit member
  rcases List.mem_append.mp member with zero | known
  · rw [List.eq_of_mem_replicate zero]
    decide
  · exact allDigits_toDigits number digit known

theorem Spells.ne_nil {number : Nat} {digits : List Char} (spells : Spells number digits) :
    digits ≠ [] := by
  obtain ⟨zeros, rfl⟩ := spells
  simp

/-- A sign is no digit. -/
theorem Spells.ne_sign {number : Nat} {digits : List Char} (spells : Spells number digits)
    {sign : Char} (symbol : sign.isDigit = false) (rest : List Char) : digits ≠ sign :: rest := by
  rintro rfl
  rw [spells.allDigits sign List.mem_cons_self] at symbol
  cases symbol

theorem Spells.value {number : Nat} {digits : List Char} (spells : Spells number digits) :
    Nat.ofDigitChars 10 digits 0 = number := by
  obtain ⟨zeros, rfl⟩ := spells
  rw [Nat.ofDigitChars_append, Nat.ofDigitChars_replicate_zero, Nat.mul_zero,
    Nat.ofDigitChars_ten_toDigits]

theorem digit_value {digit : Char} (isDigit : digit.isDigit = true) :
    ∃ value < 10, digit.toNat - '0'.toNat = value ∧ digit = Nat.digitChar value := by
  have bounds : 48 ≤ digit.toNat ∧ digit.toNat ≤ 57 := by
    simpa [Char.isDigit, UInt32.le_iff_toNat_le] using isDigit
  have zero : '0'.toNat = 48 := rfl
  refine ⟨digit.toNat - 48, by omega, rfl, ?_⟩
  apply Char.toNat_inj.mp
  rw [Nat.toNat_digitChar_of_lt_ten (by omega)]
  omega

/-- One digit more on the right. -/
theorem Spells.snoc {number value : Nat} {digits : List Char} (small : value < 10)
    (spells : Spells number digits) :
    Spells (10 * number + value) (digits ++ [Nat.digitChar value]) := by
  obtain ⟨zeros, rfl⟩ := spells
  rcases Nat.eq_zero_or_pos number with rfl | positive
  · refine ⟨zeros + 1, ?_⟩
    rw [Nat.mul_zero, Nat.zero_add, Nat.toDigits_of_lt_base small, Nat.toDigits_zero,
      List.replicate_succ']
  · refine ⟨zeros, ?_⟩
    rw [← Nat.toDigits_append_toDigits (by decide) positive small, Nat.toDigits_of_lt_base small,
      List.append_assoc]

theorem spells_of_digits (digits : List Char) (all : AllDigits digits) (some_ : digits ≠ []) :
    Spells (Nat.ofDigitChars 10 digits 0) digits := by
  induction digits using List.reverseRecOn with
  | nil => exact absurd rfl some_
  | append_singleton before digit ih =>
      obtain ⟨value, small, read, rfl⟩ := digit_value (all digit (by simp))
      rw [Nat.ofDigitChars_append, Nat.ofDigitChars_cons, Nat.ofDigitChars_nil, read]
      by_cases first : before = []
      · subst first
        refine ⟨0, ?_⟩
        rw [Nat.ofDigitChars_nil, Nat.mul_zero, Nat.zero_add, Nat.toDigits_of_lt_base small]
        rfl
      · have earlier : AllDigits before := fun other member => all other (by simp [member])
        exact (ih earlier first).snoc small

theorem spells_iff (number : Nat) (digits : List Char) :
    Spells number digits ↔
      digits ≠ [] ∧ AllDigits digits ∧ Nat.ofDigitChars 10 digits 0 = number := by
  constructor
  · exact fun spells => ⟨spells.ne_nil, spells.allDigits, spells.value⟩
  · rintro ⟨some_, all, rfl⟩
    exact spells_of_digits digits all some_

/-- Only zero is written with a leading zero. -/
theorem head_toDigits (number : Nat) (zero : (Nat.toDigits 10 number).head? = some '0') :
    number = 0 := by
  induction number using Nat.strongRecOn with
  | _ number ih =>
      rw [Nat.toDigits_eq_if (by decide)] at zero
      by_cases small : number < 10
      · rw [if_pos small] at zero
        exact Nat.digitChar_eq_zero.mp (Option.some.inj zero)
      · obtain ⟨first, tail, shape⟩ :=
          List.exists_cons_of_ne_nil (Nat.toDigits_ne_nil (n := number / 10) (b := 10))
        rw [if_neg small, shape, List.cons_append, List.head?_cons] at zero
        have lower := ih (number / 10) (by omega) (by rw [shape, List.head?_cons, zero])
        omega

/-- An unsigned numeral may have a plus sign. -/
def Unsigned (number : Nat) (text : String) : Prop :=
  ∃ digits, Spells number digits ∧ (text.toList = digits ∨ text.toList = '+' :: digits)

/-- Zero may have either sign. -/
def Signed (number : Int) (text : String) : Prop :=
  ∃ digits, Spells number.natAbs digits ∧
    (0 ≤ number ∧ (text.toList = digits ∨ text.toList = '+' :: digits) ∨
      number ≤ 0 ∧ text.toList = '-' :: digits)

theorem unsigned_repr (number : Nat) : Unsigned number (toString number) :=
  ⟨_, Spells.canonical number, Or.inl Nat.toList_repr⟩

theorem signed_repr (number : Int) : Signed number (toString number) := by
  refine ⟨_, Spells.canonical number.natAbs, ?_⟩
  rw [Int.toString_eq_repr, Int.repr_eq_if]
  split_ifs with sign
  · have magnitude : number.toNat = number.natAbs := by omega
    refine Or.inl ⟨sign, Or.inl ?_⟩
    rw [magnitude, Nat.toList_repr]
  · have magnitude : (-number).toNat = number.natAbs := by omega
    refine Or.inr ⟨by omega, ?_⟩
    rw [magnitude, String.toList_append, Nat.toList_repr]
    rfl

/-- A numeral has no other characters than digits and a sign. -/
theorem Signed.mem {number : Int} {text : String} (signed : Signed number text) {char : Char}
    (member : char ∈ text.toList) : char.isDigit = true ∨ char = '+' ∨ char = '-' := by
  obtain ⟨digits, spells, shape⟩ := signed
  have all := spells.allDigits
  rcases shape with ⟨_, plain | plus⟩ | ⟨_, minus⟩
  · exact Or.inl (all char (plain ▸ member))
  · rw [plus, List.mem_cons] at member
    exact member.elim (fun sign => Or.inr (Or.inl sign)) fun digit => Or.inl (all char digit)
  · rw [minus, List.mem_cons] at member
    exact member.elim (fun sign => Or.inr (Or.inr sign)) fun digit => Or.inl (all char digit)

theorem Unsigned.signed {number : Nat} {text : String} (unsigned : Unsigned number text) :
    Signed number text := by
  obtain ⟨digits, spells, shape⟩ := unsigned
  exact ⟨digits, spells, Or.inl ⟨Int.natCast_nonneg number, shape⟩⟩

theorem Signed.notMem {number : Int} {text : String} (signed : Signed number text)
    {separator : Char} (symbol : separator.isDigit = false) (plus : separator ≠ '+')
    (minus : separator ≠ '-') : separator ∉ text.toList := by
  intro member
  rcases signed.mem member with digit | rfl | rfl
  · rw [symbol] at digit
    cases digit
  · exact plus rfl
  · exact minus rfl

theorem Signed.ne_of_letter {number : Int} {text word : String} (signed : Signed number text)
    (letter : Char) (inside : letter ∈ word.toList) (symbol : letter.isDigit = false)
    (plus : letter ≠ '+') (minus : letter ≠ '-') : text ≠ word := by
  rintro rfl
  exact signed.notMem symbol plus minus inside

/-! A numeral at the end of a text, behind a symbol. -/

theorem eq_nil_of_symbol {before between digits : List Char} {symbol : Char}
    (ends : (before ++ between).getLast? = some symbol) (notDigit : symbol.isDigit = false)
    (all : AllDigits digits) (inside : ∀ char ∈ between, char ∈ digits) : between = [] := by
  by_contra some_
  rw [List.getLast?_append, List.getLast?_eq_some_getLast some_, Option.some_or] at ends
  have digit := all symbol (inside symbol (Option.some.inj ends ▸ List.getLast_mem some_))
  rw [notDigit] at digit
  cases digit

theorem split_digits {before other digits rest : List Char} {symbol : Char}
    (notDigit : symbol.isDigit = false) (ends : before.getLast? = some symbol)
    (otherEnds : other.getLast? = some symbol) (all : AllDigits digits) (allRest : AllDigits rest)
    (same : before ++ digits = other ++ rest) : before = other ∧ digits = rest := by
  rcases List.append_eq_append_iff.mp same with ⟨between, rfl, rfl⟩ | ⟨between, rfl, rfl⟩
  · have none_ := eq_nil_of_symbol otherEnds notDigit all fun char => List.mem_append_left rest
    subst none_
    exact ⟨(List.append_nil before).symm, rfl⟩
  · have none_ := eq_nil_of_symbol ends notDigit allRest fun char => List.mem_append_left digits
    subst none_
    exact ⟨List.append_nil other, rfl⟩

end Numerals
