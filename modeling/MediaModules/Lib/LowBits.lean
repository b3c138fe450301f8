import Mathlib.Algebra.Order.Ring.Int
import Mathlib.Tactic.Common

/-!
# A counter from its low part

Of a counter only the remainder by `m` is sent. The rest is taken from a value before, by one more
or one less when the remainder moved by half of `m`.
-/
namespace MediaModules.Lib.LowBits

/-- The multiple of `m` below the counter, from that of the value before and both remainders. -/
def highPart (m prevHigh prevLow low : Int) : Int :=
  if low < prevLow ∧ prevLow - low ≥ m / 2 then prevHigh + m
  else if low > prevLow ∧ low - prevLow > m / 2 then prevHigh - m
  else prevHigh

/-- Two values that are less than `m` apart lie in the same or in neighbouring multiples of it. -/
theorem quotient_step {m p q : Int} (hm : 0 < m) (hlow : -m < p - q) (hhigh : p - q < m) :
    p / m - q / m = -1 ∨ p / m - q / m = 0 ∨ p / m - q / m = 1 := by
  have hp := Int.mul_ediv_add_emod p m
  have hq := Int.mul_ediv_add_emod q m
  have hpr := Int.emod_lt_of_pos p hm
  have hqr := Int.emod_lt_of_pos q hm
  have hp0 := Int.emod_nonneg p (Int.ne_of_gt hm)
  have hq0 := Int.emod_nonneg q (Int.ne_of_gt hm)
  have hsplit : m * (p / m - q / m) = p - q - (p % m - q % m) := by
    rw [Int.mul_sub]
    omega
  have hlt : p / m - q / m < 2 := by
    refine Int.lt_of_mul_lt_mul_left (a := m) ?_ (Int.le_of_lt hm)
    rw [hsplit]
    omega
  have hgt : -2 < p / m - q / m := by
    refine Int.lt_of_mul_lt_mul_left (a := m) ?_ (Int.le_of_lt hm)
    rw [hsplit]
    omega
  omega

/-- A counter that moved by at most half of `m`, and not down by it, is restored. -/
theorem highPart_eq {m p q : Int} (hm : 0 < m) (hlow : -(m / 2) < p - q) (hhigh : p - q ≤ m / 2) :
    highPart m (q - q % m) (q % m) (p % m) = p - p % m := by
  have hp := Int.mul_ediv_add_emod p m
  have hq := Int.mul_ediv_add_emod q m
  have hmul : m * (p / m - q / m) = p - q - (p % m - q % m) := by
    rw [Int.mul_sub]
    omega
  have hstep := quotient_step (m := m) (p := p) (q := q) hm (by omega) (by omega)
  unfold highPart
  rcases hstep with hdown | hsame | hup
  · rw [hdown] at hmul
    rw [if_neg (by omega), if_pos (by omega)]
    omega
  · rw [hsame] at hmul
    rw [if_neg (by omega), if_neg (by omega)]
    omega
  · rw [hup] at hmul
    rw [if_pos (by omega)]
    omega

end MediaModules.Lib.LowBits
