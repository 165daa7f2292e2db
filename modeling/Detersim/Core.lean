import Mathlib.Data.Int.Basic
import Mathlib.Data.Nat.Basic
import Mathlib.Tactic.Ring

/-!
The capability types every other module is written against: node identities,
messages, logical time and the SplitMix64 generator. A `u64` whose arithmetic
matters is a `UInt64`; identities and counters that are only copied, compared
and incremented by one are natural numbers.
-/

namespace Detersim

abbrev NodeId := Nat

abbrev Message := List UInt8

/-- Nanoseconds since the start of a run. -/
abbrev SimTime := UInt64

def u64Max : Nat := 2 ^ 64 - 1

/-- `SimTime::saturating_add` of a duration given in nanoseconds. -/
def SimTime.saturatingAdd (time : SimTime) (nanos : Nat) : SimTime :=
  UInt64.ofNat (min (time.toNat + nanos) u64Max)

/-- The conversions through `i128` that end in `clamp(0, u64::MAX) as u64`. -/
def clampU64 (value : Int) : UInt64 := UInt64.ofNat (min value.toNat u64Max)

def nanosPerMilli : Nat := 1000000

theorem toNat_ofNat_min (value : Nat) : (UInt64.ofNat (min value u64Max)).toNat = min value u64Max := by
  apply UInt64.toNat_ofNat_of_lt'
  have bound : min value u64Max ≤ u64Max := Nat.min_le_right _ _
  exact Nat.lt_of_le_of_lt bound (by decide)

theorem toNat_le_u64Max (value : UInt64) : value.toNat ≤ u64Max :=
  Nat.le_sub_one_of_lt value.toNat_lt

theorem SimTime.toNat_saturatingAdd (time : SimTime) (nanos : Nat) :
    (time.saturatingAdd nanos).toNat = min (time.toNat + nanos) u64Max :=
  toNat_ofNat_min _

theorem SimTime.le_saturatingAdd (time : SimTime) (nanos : Nat) :
    time.toNat ≤ (time.saturatingAdd nanos).toNat := by
  rw [SimTime.toNat_saturatingAdd]
  exact Nat.le_min.mpr ⟨Nat.le_add_right _ _, toNat_le_u64Max time⟩

/-- The generator's whole state is one word. -/
structure SplitMix64 where
  state : UInt64
  deriving DecidableEq

def SplitMix64.nextU64 (rng : SplitMix64) : UInt64 × SplitMix64 :=
  let state := rng.state + 0x9E3779B97F4A7C15
  let z := (state ^^^ (state >>> 30)) * 0xBF58476D1CE4E5B9
  let z := (z ^^^ (z >>> 27)) * 0x94D049BB133111EB
  (z ^^^ (z >>> 31), ⟨state⟩)

end Detersim
