import Mathlib.Data.Nat.ModEq

/-!
Mixing steps on 64-bit words that lose nothing: an xor with the word shifted to
the right, a product with an odd factor, a sum.
-/

namespace WordMixing

theorem eq_zero_of_shiftRight {word shift : UInt64} (positive : 0 < shift.toNat % 64)
    (same : word = word >>> shift) : word = 0 := by
  have halved : word.toNat = word.toNat / 2 ^ (shift.toNat % 64) := by
    rw [← Nat.shiftRight_eq_div_pow, ← UInt64.toNat_shiftRight, ← same]
  have large : 1 < 2 ^ (shift.toNat % 64) := Nat.one_lt_two_pow positive.ne'
  apply UInt64.toNat_inj.mp
  by_contra nonzero
  exact absurd halved (Nat.div_lt_self (Nat.pos_of_ne_zero nonzero) large).ne'

theorem xorShift_injective {left right shift : UInt64} (positive : 0 < shift.toNat % 64)
    (same : left ^^^ left >>> shift = right ^^^ right >>> shift) : left = right := by
  -- The difference of the two words is its own shift.
  have shifted : left ^^^ right = (left ^^^ right) >>> shift := by
    rw [UInt64.shiftRight_xor]
    calc left ^^^ right
        = left ^^^ left >>> shift ^^^ (left >>> shift ^^^ right) := by
          rw [UInt64.xor_assoc, ← UInt64.xor_assoc (left >>> shift), UInt64.xor_self,
            UInt64.zero_xor]
      _ = right ^^^ right >>> shift ^^^ (left >>> shift ^^^ right) := by rw [same]
      _ = left >>> shift ^^^ right >>> shift := by
          rw [UInt64.xor_comm right, UInt64.xor_comm (left >>> shift), UInt64.xor_assoc,
            ← UInt64.xor_assoc right, UInt64.xor_self, UInt64.zero_xor, UInt64.xor_comm]
  exact UInt64.xor_eq_zero_iff.mp (eq_zero_of_shiftRight positive shifted)

theorem mul_injective {left right factor inverse : UInt64} (inverts : factor * inverse = 1)
    (same : left * factor = right * factor) : left = right := by
  have undone (word : UInt64) : word * factor * inverse = word := by
    rw [UInt64.mul_assoc, inverts, UInt64.mul_one]
  rw [← undone left, same, undone]

/-! Two half words in one: one in the upper half, a multiple of the other below it. -/

/-- A half word, as the upper half of a word. -/
theorem rotate_half {half : Nat} (small : half < 2 ^ 32) :
    (UInt64.ofNat half <<< 32 ||| UInt64.ofNat half >>> 32).toNat = half * 2 ^ 32 := by
  have value : (UInt64.ofNat half).toNat = half := by
    rw [UInt64.toNat_ofNat', Nat.mod_eq_of_lt (by omega)]
  have below : half / 2 ^ 32 = 0 := Nat.div_eq_of_lt small
  have distance : (32 : UInt64).toNat % 64 = 32 := rfl
  rw [UInt64.toNat_or, UInt64.toNat_shiftLeft, UInt64.toNat_shiftRight, value, distance,
    Nat.shiftRight_eq_div_pow, below, Nat.or_zero, Nat.shiftLeft_eq, Nat.mod_eq_of_lt (by omega)]

theorem low_half_xor {upper lower : UInt64} {half : Nat} (shape : upper.toNat = half * 2 ^ 32) :
    (upper ^^^ lower).toNat % 2 ^ 32 = lower.toNat % 2 ^ 32 := by
  rw [UInt64.toNat_xor, Nat.xor_mod_two_pow, shape, Nat.mul_mod_left, Nat.zero_xor]

theorem low_half_mul {factor count : Nat} :
    (UInt64.ofNat count * UInt64.ofNat factor).toNat % 2 ^ 32 = count * factor % 2 ^ 32 := by
  rw [UInt64.toNat_mul, UInt64.toNat_ofNat', UInt64.toNat_ofNat', ← Nat.mul_mod,
    Nat.mod_mod_of_dvd _ (by decide)]

/-- The two half words are read off the word again. -/
theorem halves_injective {factor half count other more : Nat}
    (odd : Nat.Coprime (2 ^ 32) factor) (smallHalf : half < 2 ^ 32) (smallCount : count < 2 ^ 32)
    (smallOther : other < 2 ^ 32) (smallMore : more < 2 ^ 32)
    (same : (UInt64.ofNat half <<< 32 ||| UInt64.ofNat half >>> 32) ^^^
        UInt64.ofNat count * UInt64.ofNat factor =
      (UInt64.ofNat other <<< 32 ||| UInt64.ofNat other >>> 32) ^^^
        UInt64.ofNat more * UInt64.ofNat factor) : half = other ∧ count = more := by
  have products : count * factor ≡ more * factor [MOD 2 ^ 32] := by
    have low := congrArg (UInt64.toNat · % 2 ^ 32) same
    rwa [low_half_xor (rotate_half smallHalf), low_half_xor (rotate_half smallOther),
      low_half_mul, low_half_mul] at low
  have counts : count = more := by
    have congruent := Nat.ModEq.cancel_right_of_coprime odd products
    rwa [Nat.ModEq, Nat.mod_eq_of_lt smallCount, Nat.mod_eq_of_lt smallMore] at congruent
  subst counts
  have upper := congrArg UInt64.toNat ((UInt64.xor_left_inj _).mp same)
  rw [rotate_half smallHalf, rotate_half smallOther] at upper
  exact ⟨Nat.eq_of_mul_eq_mul_right (by decide) upper, rfl⟩

end WordMixing
