import Mathlib.Data.Int.Basic
import Mathlib.Tactic.Ring

/-!
# Fixed-width readings of integers

The C++ sources keep one number in variables of several widths.  This file has the two readings of
an integer that the conversions use: `u32`, the low 32 bits as an unsigned number (what `%u`
prints), and `int32`, the low 32 bits as a two's complement number (what an `int` holds).
-/

namespace MachineInt

/-- The low 32 bits of an integer, unsigned. -/
def u32 (x : ℤ) : ℕ := (x % 4294967296).toNat

/-- The low 32 bits of an integer, as a signed number. -/
def int32 (x : ℤ) : ℤ := (x + 2147483648) % 4294967296 - 2147483648

theorem u32_lt (x : ℤ) : u32 x < 4294967296 := by
  unfold u32; omega

theorem u32_of_nonneg {x : ℤ} (h0 : 0 ≤ x) (h : x < 4294967296) : u32 x = x.toNat := by
  unfold u32; omega

@[simp] theorem u32_natCast {n : ℕ} (h : n < 4294967296) : u32 n = n := by
  unfold u32; omega

@[simp] theorem u32_neg_one : u32 (-1) = 4294967295 := rfl

@[simp] theorem u32_zero : u32 0 = 0 := rfl

theorem int32_of_range {x : ℤ} (h0 : -2147483648 ≤ x) (h : x < 2147483648) : int32 x = x := by
  unfold int32; omega

@[simp] theorem int32_neg_one : int32 (-1) = -1 := rfl

theorem int32_lt (x : ℤ) : int32 x < 2147483648 := by
  unfold int32; omega

/-- Narrowing to an `int` does not change the bits that `%u` prints. -/
@[simp] theorem u32_int32 (x : ℤ) : u32 (int32 x) = u32 x := by
  unfold u32 int32; omega

/-- A value written with `%u` and read into an `int` comes back when it fits an `int`. -/
theorem int32_u32 {x : ℤ} (h0 : -2147483648 ≤ x) (h : x < 2147483648) : int32 (u32 x) = x := by
  unfold u32 int32; omega

end MachineInt
