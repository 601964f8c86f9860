/-
RdEngine/Lib/Channels.lean

Eight-bit channels of a packed pixel.

A channel given by a shift and a maximum is shifted out, masked and rescaled to
eight bits (`scaled`).  It is the byte at bit `p` of every pixel exactly when the
maximum is eight ones that the shift puts there (`scaled_eq_byte_iff`).
-/
import Mathlib.Data.Nat.Bitwise

namespace Channels

/-- A channel, shifted out, masked and rescaled to eight bits. -/
def scaled (max shift v : ℕ) : ℕ := (v / 2 ^ shift &&& max) * 255 / max

/-- The byte of a pixel at bit `p`. -/
def byteAt (p v : ℕ) : ℕ := v / 2 ^ p % 256

/-- A channel is rescaled to eight bits. -/
theorem scaled_lt (max shift v : ℕ) : scaled max shift v < 256 := by
  rcases Nat.eq_zero_or_pos max with rfl | hpos
  · rw [scaled, Nat.div_zero]
    decide
  · have hmask : (v / 2 ^ shift &&& max) * 255 ≤ max * 255 :=
      Nat.mul_le_mul_right _ Nat.and_le_right
    have hle : scaled max shift v ≤ 255 := by
      rw [scaled]
      exact Nat.div_le_of_le_mul hmask
    omega

/-- Rescaling keeps the order of channel values. -/
theorem scaled_mono {max shift v w : ℕ} (h : v / 2 ^ shift &&& max ≤ w / 2 ^ shift &&& max) :
    scaled max shift v ≤ scaled max shift w :=
  Nat.div_le_div_right (Nat.mul_le_mul_right 255 h)

theorem scaled_of_eq_zero {max shift v : ℕ} (h : v / 2 ^ shift &&& max = 0) :
    scaled max shift v = 0 := by
  rw [scaled, h, Nat.zero_mul, Nat.zero_div]

theorem scaled_of_eq_max {max shift v : ℕ} (hmax : max ≠ 0) (h : v / 2 ^ shift &&& max = max) :
    scaled max shift v = 255 := by
  rw [scaled, h]
  exact Nat.mul_div_cancel_left 255 (Nat.pos_of_ne_zero hmax)

/-- Eight ones from bit `a` on mask out a byte. -/
theorem and_byteMask (w a : ℕ) : w &&& (255 * 2 ^ a) = 2 ^ a * byteAt a w := by
  apply Nat.eq_of_testBit_eq
  intro i
  have hmask : 255 * 2 ^ a = 2 ^ a * (2 ^ 8 - 1) := Nat.mul_comm _ _
  rw [byteAt, hmask, show 256 = 2 ^ 8 from rfl, Nat.testBit_and, Nat.testBit_two_pow_mul,
    Nat.testBit_two_pow_mul, Nat.testBit_two_pow_sub_one, Nat.testBit_mod_two_pow,
    Nat.testBit_div_two_pow]
  by_cases hi : a ≤ i
  · have hadd : i - a + a = i := Nat.sub_add_cancel hi
    rw [hadd]
    simp [hi, Bool.and_comm]
  · simp [hi]

/-- With the byte's own mask the rescaling changes nothing. -/
theorem scaled_byteMask {shift p : ℕ} (h : shift ≤ p) (v : ℕ) :
    scaled (255 * 2 ^ (p - shift)) shift v = byteAt p v := by
  have hpos : 0 < 255 * 2 ^ (p - shift) := Nat.mul_pos (by decide) (Nat.two_pow_pos _)
  have hshift : byteAt (p - shift) (v / 2 ^ shift) = byteAt p v := by
    rw [byteAt, byteAt, Nat.div_div_eq_div_mul, ← Nat.pow_add, Nat.add_sub_cancel' h]
  rw [scaled, and_byteMask, hshift]
  calc 2 ^ (p - shift) * byteAt p v * 255 / (255 * 2 ^ (p - shift))
      = 255 * 2 ^ (p - shift) * byteAt p v / (255 * 2 ^ (p - shift)) := by
        congr 1
        rw [Nat.mul_right_comm, Nat.mul_comm (2 ^ (p - shift))]
    _ = byteAt p v := Nat.mul_div_cancel_left _ hpos

/-- One bit of the byte at `p`. -/
theorem byteAt_two_pow {k : ℕ} (hk : k < 8) (p : ℕ) : byteAt p (2 ^ (p + k)) = 2 ^ k := by
  rw [byteAt, Nat.pow_add, Nat.mul_div_cancel_left _ (Nat.two_pow_pos p)]
  exact Nat.mod_eq_of_lt (show 2 ^ k < 2 ^ 8 from Nat.pow_lt_pow_right (by decide) hk)

/-- **When a channel is the byte at bit `p` of every pixel.** -/
theorem scaled_eq_byte_iff {max shift p : ℕ} (hp : p + 8 ≤ 32) :
    (∀ v < 2 ^ 32, scaled max shift v = byteAt p v) ↔
      shift ≤ p ∧ max = 255 * 2 ^ (p - shift) := by
  constructor
  · intro h
    have hbit : ∀ k < 8, scaled max shift (2 ^ (p + k)) = 2 ^ k := by
      intro k hk
      rw [h _ (Nat.pow_lt_pow_right (by decide) (by omega)), byteAt_two_pow hk]
    -- the lowest bit of the byte is not shifted out
    have hshift : shift ≤ p := by
      by_contra hlt
      have hzero := hbit 0 (by decide)
      rw [scaled, Nat.div_eq_of_lt (Nat.pow_lt_pow_right (by decide) (by omega)),
        Nat.zero_and, Nat.zero_mul, Nat.zero_div] at hzero
      exact absurd hzero (by decide)
    obtain ⟨a, rfl⟩ := Nat.exists_eq_add_of_le hshift
    rw [Nat.add_sub_cancel_left]
    have hread : ∀ k < 8, (2 ^ (a + k) &&& max) * 255 / max = 2 ^ k := by
      intro k hk
      have := hbit k hk
      rwa [scaled, Nat.add_assoc, Nat.pow_add, Nat.mul_div_cancel_left _ (Nat.two_pow_pos _)]
        at this
    -- every bit of the byte is in the mask
    have hmask : ∀ k < 8, max.testBit (a + k) = true := by
      intro k hk
      by_contra hout
      have hout : max.testBit (a + k) = false := Bool.eq_false_of_not_eq_true hout
      have hbit := hread k hk
      rw [Nat.two_pow_and, hout, Bool.toNat_false, Nat.mul_zero, Nat.zero_mul,
        Nat.zero_div] at hbit
      exact absurd hbit.symm (Nat.two_pow_pos k).ne'
    have hbyte : byteAt a max = 255 := by
      apply Nat.eq_of_testBit_eq
      intro i
      rw [byteAt, show 256 = 2 ^ 8 from rfl, show 255 = 2 ^ 8 - 1 from rfl,
        Nat.testBit_mod_two_pow, Nat.testBit_div_two_pow, Nat.testBit_two_pow_sub_one]
      by_cases hi : i < 8
      · have := hmask i hi
        rw [Nat.add_comm] at this
        simp [hi, this]
      · simp [hi]
    refine ⟨hshift, le_antisymm ?_ ?_⟩
    · -- a larger maximum would scale the lowest bit down to nothing
      by_contra hlarge
      have hzero := hread 0 (by decide)
      rw [Nat.add_zero, Nat.two_pow_and, show max.testBit a = true from hmask 0 (by decide),
        Bool.toNat_true, Nat.mul_one, Nat.div_eq_of_lt (by omega)] at hzero
      exact absurd hzero (by decide)
    · have hle : byteAt a max ≤ max / 2 ^ a := Nat.mod_le _ _
      rw [hbyte] at hle
      exact (Nat.le_div_iff_mul_le (Nat.two_pow_pos a)).mp hle
  · rintro ⟨hshift, rfl⟩ v -
    exact scaled_byteMask hshift v

end Channels
