import Detersim.MessageText

/-!
The bytes of a text, and how they are read back: text that is well formed loses nothing.
-/

namespace Detersim

/-- `str::as_bytes`. -/
def textBytes (text : String) : Message := text.toList.flatMap String.utf8EncodeChar

section Bytes

/-- A byte's class, by its number. -/
theorem utf8Width_eq (byte : UInt8) : utf8Width byte =
    if byte.toNat < 128 then 1
    else if 194 ≤ byte.toNat ∧ byte.toNat ≤ 223 then 2
    else if 224 ≤ byte.toNat ∧ byte.toNat ≤ 239 then 3
    else if 240 ≤ byte.toNat ∧ byte.toNat ≤ 244 then 4
    else 0 := rfl

theorem isContinuation_iff (byte : UInt8) :
    isContinuation byte = true ↔ 128 ≤ byte.toNat ∧ byte.toNat ≤ 191 := by
  rw [isContinuation, Bool.and_eq_true, decide_eq_true_eq, decide_eq_true_eq]
  rfl

theorem isSecond_iff (first byte : UInt8) : isSecond first byte = true ↔
    (if first.toNat = 224 then 160 else if first.toNat = 240 then 144 else 128) ≤ byte.toNat ∧
      byte.toNat ≤ if first.toNat = 237 then 159 else if first.toNat = 244 then 143 else 191 := by
  have same (left right : UInt8) : left = right ↔ left.toNat = right.toNat :=
    UInt8.toNat_inj.symm
  simp only [isSecond, isContinuation, same, UInt8.reduceToNat]
  split_ifs <;> simp_all [UInt8.le_iff_toNat_le]

theorem toNat_byte {value : Nat} (below : value < 256) : (UInt8.ofNat value).toNat = value :=
  UInt8.toNat_ofNat_of_lt' below

theorem readContinuations_encode (code low : Nat) (due : Nat) (rest : List UInt8) (below : low < 64) :
    readContinuations code (due + 1) (UInt8.ofNat (low + 128) :: rest) =
      ((readContinuations (code * 64 + low) due rest).1,
        (readContinuations (code * 64 + low) due rest).2 + 1) := by
  have value := toNat_byte (by omega : low + 128 < 256)
  have inside : isContinuation (UInt8.ofNat (low + 128)) = true := by
    rw [isContinuation_iff, value]
    omega
  have least : (low + 128) % 64 = low := by omega
  rw [readContinuations, if_pos inside, value, least]

theorem readChar_two {high low : Nat} (least : 2 ≤ high) (most : high < 32) (below : low < 64)
    (rest : List UInt8) :
    readChar (UInt8.ofNat (high + 192)) (UInt8.ofNat (low + 128) :: rest) =
      (some (high * 64 + low), 1) := by
  have first := toNat_byte (by omega : high + 192 < 256)
  have second := toNat_byte (by omega : low + 128 < 256)
  have width : utf8Width (UInt8.ofNat (high + 192)) = 2 := by
    rw [utf8Width_eq, first]
    split_ifs <;> omega
  have inside : isSecond (UInt8.ofNat (high + 192)) (UInt8.ofNat (low + 128)) = true := by
    rw [isSecond_iff, first, second]
    split_ifs <;> omega
  have lead : (high + 192) % 2 ^ 5 = high := by omega
  have last : (low + 128) % 64 = low := by omega
  rw [readChar, width]
  simp only [inside, if_true, first, second, readContinuations, Nat.sub_zero, lead, last]

theorem readChar_three {high middle low : Nat} (most : high < 16) (within : middle < 64)
    (below : low < 64) (long : high = 0 → 32 ≤ middle) (scalar : high = 13 → middle < 32)
    (rest : List UInt8) :
    readChar (UInt8.ofNat (high + 224)) (UInt8.ofNat (middle + 128) :: UInt8.ofNat (low + 128) :: rest) =
      (some ((high * 64 + middle) * 64 + low), 2) := by
  have first := toNat_byte (by omega : high + 224 < 256)
  have second := toNat_byte (by omega : middle + 128 < 256)
  have width : utf8Width (UInt8.ofNat (high + 224)) = 3 := by
    rw [utf8Width_eq, first]
    split_ifs <;> omega
  have inside : isSecond (UInt8.ofNat (high + 224)) (UInt8.ofNat (middle + 128)) = true := by
    rw [isSecond_iff, first, second]
    split_ifs <;> omega
  have lead : (high + 224) % 2 ^ (5 - 1) = high := by omega
  have next : (middle + 128) % 64 = middle := by omega
  rw [readChar, width]
  simp only [inside, if_true, first, second, lead, next]
  rw [readContinuations_encode _ low 0 rest below]
  rfl

theorem readChar_four {high middle next low : Nat} (most : high < 5) (within : middle < 64)
    (inner : next < 64) (below : low < 64) (long : high = 0 → 16 ≤ middle)
    (scalar : high = 4 → middle < 16) (rest : List UInt8) :
    readChar (UInt8.ofNat (high + 240)) (UInt8.ofNat (middle + 128) ::
        UInt8.ofNat (next + 128) :: UInt8.ofNat (low + 128) :: rest) =
      (some (((high * 64 + middle) * 64 + next) * 64 + low), 3) := by
  have first := toNat_byte (by omega : high + 240 < 256)
  have second := toNat_byte (by omega : middle + 128 < 256)
  have width : utf8Width (UInt8.ofNat (high + 240)) = 4 := by
    rw [utf8Width_eq, first]
    split_ifs <;> omega
  have inside : isSecond (UInt8.ofNat (high + 240)) (UInt8.ofNat (middle + 128)) = true := by
    rw [isSecond_iff, first, second]
    split_ifs <;> omega
  have lead : (high + 240) % 2 ^ (5 - 2) = high := by omega
  have second' : (middle + 128) % 64 = middle := by omega
  rw [readChar, width]
  simp only [inside, if_true, first, second, lead, second']
  rw [readContinuations_encode _ next 1 _ inner, readContinuations_encode _ low 0 rest below]
  rfl

end Bytes

theorem scalar_cases (ch : Char) : ch.toNat < 0xD800 ∨ 0xDFFF < ch.toNat ∧ ch.toNat < 0x110000 := by
  have valid := ch.valid
  simpa [UInt32.isValidChar, Nat.isValidChar] using valid

/-- The bytes of one character are read back, and no others. -/
theorem readChar_encode (ch : Char) : ∃ first tail, String.utf8EncodeChar ch = first :: tail ∧
    ∀ rest, readChar first (tail ++ rest) = (some ch.toNat, tail.length) := by
  have scalar := scalar_cases ch
  have value : ch.val.toNat = ch.toNat := rfl
  unfold String.utf8EncodeChar
  rw [value]
  generalize ch.toNat = code at scalar
  dsimp only
  split_ifs with one two three
  · refine ⟨_, _, rfl, fun rest => ?_⟩
    have first := toNat_byte (by omega : code < 256)
    have width : utf8Width (UInt8.ofNat code) = 1 := by
      rw [utf8Width_eq, first, if_pos (by omega)]
    rw [readChar, width, first]
    rfl
  · refine ⟨_, _, rfl, fun rest => ?_⟩
    refine (readChar_two (by omega) (by omega) (by omega) rest).trans ?_
    congr 2
    omega
  · refine ⟨_, _, rfl, fun rest => ?_⟩
    refine (readChar_three (by omega) (by omega) (by omega) (by omega) (by omega) rest).trans ?_
    congr 2
    omega
  · refine ⟨_, _, rfl, fun rest => ?_⟩
    refine (readChar_four (by omega) (by omega) (by omega) (by omega) (by omega) (by omega)
      rest).trans ?_
    congr 2
    omega

theorem decodeLossy_skip (bytes rest : List UInt8) :
    decodeLossy bytes.length (bytes ++ rest) = decodeLossy 0 rest := by
  induction bytes with
  | nil => rfl
  | cons byte bytes ih => exact ih

/-- Well-formed text is decoded without loss. -/
theorem fromUtf8Lossy_textBytes (text : String) : fromUtf8Lossy (textBytes text) = text.toList := by
  rw [textBytes, fromUtf8Lossy]
  induction text.toList with
  | nil => rfl
  | cons ch rest ih =>
      obtain ⟨first, tail, encoded, read⟩ := readChar_encode ch
      rw [List.flatMap_cons, encoded, List.cons_append, decodeLossy, read]
      simp only [Option.map_some, Option.getD_some, Char.ofNat_toNat, decodeLossy_skip, ih]

end Detersim
