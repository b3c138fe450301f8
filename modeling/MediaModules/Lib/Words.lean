import Mathlib.Algebra.Order.Ring.Int
import Mathlib.Tactic.Common

/-!
# Machine words as integers

The value an integer expression takes when it is stored in a word of a fixed width. In range the
conversions change nothing.
-/
namespace MediaModules.Lib.Words

/-- The value an `s16` takes. -/
def s16 (x : Int) : Int := (x + 32768) % 65536 - 32768

/-- The value a `u32` takes. -/
def u32 (x : Int) : Int := x % 4294967296

/-- The value an `s32` takes. -/
def s32 (x : Int) : Int := (x + 2147483648) % 4294967296 - 2147483648

/-- The value a `u64` takes. -/
def u64 (x : Int) : Int := x % 18446744073709551616

variable {x : Int}

theorem u32_of_range (h0 : 0 ≤ x) (h1 : x < 4294967296) : u32 x = x := Int.emod_eq_of_lt h0 h1

theorem s32_of_range (h0 : -2147483648 ≤ x) (h1 : x < 2147483648) : s32 x = x := by
  simp only [s32]
  omega

theorem u64_of_range (h0 : 0 ≤ x) (h1 : x < 18446744073709551616) : u64 x = x :=
  Int.emod_eq_of_lt h0 h1

theorem u32_s32 (x : Int) : u32 (s32 x) = u32 x := by
  simp only [u32, s32]
  omega

end MediaModules.Lib.Words
