import Mathlib.Data.Nat.Notation
import Mathlib.Tactic

/-!
# Bit fields of a 32-bit word

Reading and packing adjacent bit fields with a mask and a shift.

* `field w lo width` — bits `lo .. lo + width - 1` of a word, as a number;
* `field_append` — adjacent fields put together;
* `toNat_and_mask` — masking is the remainder modulo a power of two;
* `toNat_shift_or_mask` — shifting an accumulator left and filling the freed bits adds.
-/

namespace BitFields

/-- The word whose `n` lowest bits are set. -/
def mask (n : UInt32) : UInt32 := (1 <<< n) - 1

/-- Bits `lo .. lo + width - 1` of a word. -/
def field (w : UInt32) (lo width : ℕ) : ℕ := w.toNat / 2 ^ lo % 2 ^ width

theorem field_lt (w : UInt32) (lo width : ℕ) : field w lo width < 2 ^ width :=
  Nat.mod_lt _ (Nat.two_pow_pos width)

theorem field_mod (w : UInt32) (lo width : ℕ) : field w lo width % 2 ^ width = field w lo width :=
  Nat.mod_mod _ _

/-- Two adjacent fields are one. -/
theorem field_append (w : UInt32) (lo k m : ℕ) :
    field w lo (k + m) = field w (lo + k) m * 2 ^ k + field w lo k := by
  rw [field, field, field, Nat.pow_add, Nat.pow_add, Nat.mod_mul, ← Nat.div_div_eq_div_mul,
    Nat.add_comm, Nat.mul_comm]

theorem field_all (w : UInt32) : field w 0 32 = w.toNat := by
  rw [field, Nat.pow_zero, Nat.div_one]
  exact Nat.mod_eq_of_lt w.toNat_lt

/-- A field depends on its own bits only. -/
theorem field_congr {w w' : UInt32} {lo width : ℕ}
    (h : ∀ k < width, w.toNat.testBit (lo + k) = w'.toNat.testBit (lo + k)) :
    field w lo width = field w' lo width := by
  apply Nat.eq_of_testBit_eq
  intro k
  rw [field, field, Nat.testBit_mod_two_pow, Nat.testBit_mod_two_pow, Nat.testBit_div_two_pow,
    Nat.testBit_div_two_pow, Nat.add_comm]
  by_cases hk : k < width
  · rw [h k hk]
  · simp [hk]

/-- The bits of a field. -/
theorem testBit_field (w : UInt32) (lo : ℕ) {width k : ℕ} (hk : k < width) :
    (field w lo width).testBit k = w.toNat.testBit (lo + k) := by
  rw [field, Nat.testBit_mod_two_pow, Nat.testBit_div_two_pow, Nat.add_comm]
  simp [hk]

theorem toNat_mask {n : UInt32} (hn : n.toNat < 32) : (mask n).toNat = 2 ^ n.toNat - 1 := by
  have hlt : 2 ^ n.toNat < 2 ^ 32 := Nat.pow_lt_pow_right (by decide) hn
  have hshift : (1 <<< n : UInt32).toNat = 2 ^ n.toNat := by
    rw [UInt32.toNat_shiftLeft, Nat.mod_eq_of_lt hn, Nat.shiftLeft_eq]
    show 1 * 2 ^ n.toNat % 2 ^ 32 = _
    rw [Nat.one_mul, Nat.mod_eq_of_lt hlt]
  have hone : (1 : UInt32).toNat = 1 := rfl
  have hle : (1 : UInt32) ≤ 1 <<< n := by
    rw [UInt32.le_iff_toNat_le, hshift, hone]
    exact Nat.one_le_two_pow
  rw [mask, UInt32.toNat_sub_of_le _ _ hle, hshift, hone]

theorem toNat_and_mask (s : UInt32) {n : UInt32} (hn : n.toNat < 32) :
    (s &&& mask n).toNat = s.toNat % 2 ^ n.toNat := by
  rw [UInt32.toNat_and, toNat_mask hn, Nat.and_two_pow_sub_one_eq_mod]

/-- The lowest byte of a word survives masking with eight bits. -/
theorem toUInt8_and_mask (s : UInt32) : (s &&& mask 8).toUInt8 = s.toUInt8 := by
  apply UInt8.toNat_inj.mp
  rw [UInt32.toNat_toUInt8, UInt32.toNat_toUInt8, toNat_and_mask s (by decide)]
  exact Nat.mod_mod _ _

theorem toNat_shiftRight (s : UInt32) {n : UInt32} (hn : n.toNat < 32) :
    (s >>> n).toNat = s.toNat / 2 ^ n.toNat := by
  rw [UInt32.toNat_shiftRight, Nat.mod_eq_of_lt hn, Nat.shiftRight_eq_div_pow]

/-- Appending a field to an accumulator that has room for it. -/
theorem toNat_shift_or_mask {d : UInt32} (s : UInt32) {n : UInt32} (hn : n.toNat < 32)
    (hd : d.toNat * 2 ^ n.toNat < 2 ^ 32) :
    (d <<< n ||| s &&& mask n).toNat = d.toNat * 2 ^ n.toNat + s.toNat % 2 ^ n.toNat := by
  rw [UInt32.toNat_or, toNat_and_mask s hn, UInt32.toNat_shiftLeft, Nat.mod_eq_of_lt hn,
    Nat.shiftLeft_eq, Nat.mod_eq_of_lt hd, ← Nat.shiftLeft_eq,
    Nat.shiftLeft_add_eq_or_of_lt (Nat.mod_lt _ (Nat.two_pow_pos _))]

end BitFields
