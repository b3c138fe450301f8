import Mathlib.Algebra.BigOperators.Group.List.Basic
import Mathlib.Algebra.Order.Ring.Int
import Mathlib.Tactic.Common

/-!
# A line cut into pieces

The starts of the pieces ascend from zero to the whole. Every place is in just one piece, and looking
through the starts up to the first one behind a place ends at its piece.
-/
namespace MediaModules.Lib.Cuts

variable {c : Nat → Int} {n : Nat} {total x : Int}

structure IsCut (c : Nat → Int) (n : Nat) (total : Int) : Prop where
  zero : c 0 = 0
  ascending : ∀ i < n, c i < c (i + 1)
  whole : c n = total

theorem IsCut.lt (h : IsCut c n total) {i j : Nat} (hij : i < j) (hj : j ≤ n) : c i < c j := by
  induction j with
  | zero => exact absurd hij (Nat.not_lt_zero i)
  | succ j ih =>
    have hstep := h.ascending j hj
    rcases Nat.lt_succ_iff_lt_or_eq.mp hij with hlt | rfl
    · exact Int.lt_trans (ih hlt (Nat.le_of_succ_le hj)) hstep
    · exact hstep

theorem IsCut.le (h : IsCut c n total) {i j : Nat} (hij : i ≤ j) (hj : j ≤ n) : c i ≤ c j := by
  rcases Nat.lt_or_eq_of_le hij with hlt | rfl
  · exact Int.le_of_lt (h.lt hlt hj)
  · exact le_refl _

theorem IsCut.bounds (h : IsCut c n total) {i : Nat} (hi : i < n) : 0 ≤ c i ∧ c (i + 1) ≤ total := by
  rw [← h.zero, ← h.whole]
  exact ⟨h.le (Nat.zero_le i) (Nat.le_of_lt hi), h.le hi (le_refl n)⟩

theorem IsCut.exists_piece (h : IsCut c n total) (h0 : 0 ≤ x) (hx : x < total) :
    ∃ i < n, c i ≤ x ∧ x < c (i + 1) := by
  have hfind : ∀ k ≤ n, x < c k → ∃ i < k, c i ≤ x ∧ x < c (i + 1) := by
    intro k hk
    induction k with
    | zero =>
      intro hlt
      rw [h.zero] at hlt
      omega
    | succ k ih =>
      intro hlt
      rcases Int.lt_or_le x (c k) with hbefore | hin
      · obtain ⟨i, hi, hpiece⟩ := ih (Nat.le_of_succ_le hk) hbefore
        exact ⟨i, Nat.lt_succ_of_lt hi, hpiece⟩
      · exact ⟨k, Nat.lt_succ_self k, hin, hlt⟩
  exact hfind n (le_refl n) (h.whole.symm ▸ hx)

/-- And in no other. -/
theorem IsCut.piece_unique (h : IsCut c n total) {i j : Nat} (hi : i < n) (hj : j < n)
    (hxi : c i ≤ x ∧ x < c (i + 1)) (hxj : c j ≤ x ∧ x < c (j + 1)) : i = j := by
  rcases Nat.lt_trichotomy i j with hlt | heq | hgt
  · have hle : c (i + 1) ≤ c j := h.le hlt (Nat.le_of_lt hj)
    omega
  · exact heq
  · have hle : c (j + 1) ≤ c i := h.le hgt (Nat.le_of_lt hi)
    omega

/-- The pieces make up the whole. -/
theorem IsCut.sum_pieces (h : IsCut c n total) :
    ((List.range n).map fun i => c (i + 1) - c i).sum = total := by
  have hsum : ∀ k, ((List.range k).map fun i => c (i + 1) - c i).sum = c k - c 0 := by
    intro k
    induction k with
    | zero => exact (Int.sub_self _).symm
    | succ k ih =>
      rw [List.range_succ, List.map_append, List.sum_append, ih, List.map_singleton,
        List.sum_singleton]
      omega
  rw [hsum n, h.zero, h.whole, Int.sub_zero]

/-- The last start that is not behind a place, up to the first one that is. -/
def lastStart (x : Int) : List Int → Nat → Nat → Nat
  | [], _, found => found
  | start :: starts, i, found => if x ≥ start then lastStart x starts (i + 1) i else found

theorem lastStart_behind (starts : List Int) {start : Int} (h : x < start) (i found : Nat) :
    lastStart x (start :: starts) i found = found := if_neg (Int.not_le.mpr h)

/-- The search ends at the piece of the place. -/
theorem IsCut.lastStart_eq (h : IsCut c n total) {j : Nat} (hj : j < n)
    (hpiece : c j ≤ x ∧ x < c (j + 1)) (found : Nat) :
    lastStart x ((List.range n).map c) 0 found = j := by
  have hsearch : ∀ k i found, i + k = n → i ≤ j →
      lastStart x ((List.range' i k).map c) i found = j := by
    intro k
    induction k with
    | zero => intro i found hik hij; omega
    | succ k ih =>
      intro i found hik hij
      have hle : c i ≤ x := Int.le_trans (h.le hij (Nat.le_of_lt hj)) hpiece.1
      rw [List.range'_succ, List.map_cons, lastStart, if_pos hle]
      rcases Nat.lt_or_eq_of_le hij with hlt | rfl
      · exact ih (i + 1) i (by omega) hlt
      · cases k with
        | zero => rfl
        | succ k => exact lastStart_behind _ hpiece.2 _ _
  rw [List.range_eq_range']
  exact hsearch n 0 found (Nat.zero_add n) (Nat.zero_le j)

/-- Cuts at even parts of the whole. -/
theorem isCut_even {n total : Nat} (hn : 0 < n) (hle : n ≤ total) :
    IsCut (fun i => ((i * total / n : Nat) : Int)) n total where
  zero := by simp
  ascending i _ := by
    have hstep : (i + 1) * total / n ≥ (i * total + n) / n := by
      refine Nat.div_le_div_right ?_
      rw [Nat.succ_mul]
      exact Nat.add_le_add_left hle _
    rw [Nat.add_div_right _ hn] at hstep
    exact_mod_cast hstep
  whole := by rw [Nat.mul_div_cancel_left _ hn]

end MediaModules.Lib.Cuts
