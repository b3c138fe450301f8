import Mathlib.Algebra.Order.BigOperators.Group.List
import Mathlib.Algebra.Order.Ring.Int
import Mathlib.Algebra.Order.Ring.Nat
import Mathlib.Tactic.Common

/-!
# Totals over a list

The sum of a weight over a list, and over the entries of a list that belong to one account.
-/
namespace MediaModules.Lib.Tally

variable {α κ : Type*}

/-- The weight of the whole list. -/
def tally (w : α → Nat) (xs : List α) : Nat := (xs.map w).sum

/-- The weight of the entries of account `a`. -/
def tallyAt [DecidableEq κ] (k : α → κ) (w : α → Nat) (a : κ) (xs : List α) : Nat :=
  tally w (xs.filter fun x => k x = a)

section
variable (w : α → Nat)

theorem tally_append (xs ys : List α) : tally w (xs ++ ys) = tally w xs + tally w ys := by
  unfold tally
  rw [List.map_append, List.sum_append]

theorem tally_concat (xs : List α) (x : α) : tally w (xs ++ [x]) = tally w xs + w x := by
  rw [tally_append]
  rfl

theorem tally_perm {xs ys : List α} (h : xs.Perm ys) : tally w xs = tally w ys :=
  (h.map w).sum_eq

theorem tally_erase [DecidableEq α] {xs : List α} {x : α} (h : x ∈ xs) :
    tally w xs = tally w (xs.erase x) + w x := by
  rw [tally_perm w (List.perm_cons_erase h)]
  exact Nat.add_comm _ _

theorem tally_congr {w' : α → Nat} {xs : List α} (h : ∀ x ∈ xs, w x = w' x) :
    tally w xs = tally w' xs := by
  unfold tally
  rw [List.map_congr_left h]

theorem tally_le {w' : α → Nat} {xs : List α} (h : ∀ x ∈ xs, w x ≤ w' x) :
    tally w xs ≤ tally w' xs := by
  induction xs with
  | nil => exact Nat.le_refl 0
  | cons x xs ih =>
    have hhead := h x List.mem_cons_self
    have htail := ih fun y hy => h y (List.mem_cons_of_mem x hy)
    show w x + tally w xs ≤ w' x + tally w' xs
    omega

/-- Weights that come to the same total without one being smaller are the same. -/
theorem eq_of_tally_eq {w' : α → Nat} {xs : List α} (h : ∀ x ∈ xs, w x ≤ w' x)
    (hsum : tally w xs = tally w' xs) : ∀ x ∈ xs, w x = w' x := by
  induction xs with
  | nil => exact nofun
  | cons x xs ih =>
    have hhead := h x List.mem_cons_self
    have hrest : ∀ y ∈ xs, w y ≤ w' y := fun y hy => h y (List.mem_cons_of_mem x hy)
    have htail := tally_le w hrest
    have hsum : w x + tally w xs = w' x + tally w' xs := hsum
    intro y hy
    rcases List.mem_cons.mp hy with rfl | hy
    · omega
    · exact ih hrest (by omega) y hy

end

/-- A rearrangement of numbers that lowers none of them moves none of them. -/
theorem eq_of_perm_of_le {g : Nat → Nat} {xs : List Nat} (hperm : (xs.map g).Perm xs)
    (hle : ∀ x ∈ xs, x ≤ g x) : ∀ x ∈ xs, g x = x := by
  have hsum : tally id xs = tally g xs := by
    have := tally_perm id hperm
    unfold tally at this ⊢
    rw [List.map_map] at this
    exact this.symm
  exact fun x hx => (eq_of_tally_eq id hle hsum x hx).symm

section
variable [DecidableEq κ] (k : α → κ) (w : α → Nat) (a : κ)

theorem tallyAt_concat (xs : List α) (x : α) :
    tallyAt k w a (xs ++ [x]) = tallyAt k w a xs + if k x = a then w x else 0 := by
  unfold tallyAt
  rw [List.filter_append, tally_append]
  by_cases h : k x = a
  · simp [h, tally]
  · simp [h, tally]

theorem tallyAt_erase [DecidableEq α] {xs : List α} {x : α} (h : x ∈ xs) :
    tallyAt k w a xs = tallyAt k w a (xs.erase x) + if k x = a then w x else 0 := by
  have hperm := (List.perm_cons_erase h).filter fun x => decide (k x = a)
  unfold tallyAt
  rw [tally_perm w hperm]
  by_cases hk : k x = a
  · rw [List.filter_cons_of_pos (by simpa using hk), if_pos hk]
    exact Nat.add_comm _ _
  · rw [List.filter_cons_of_neg (by simpa using hk), if_neg hk, Nat.add_zero]

theorem tallyAt_le (xs : List α) : tallyAt k w a xs ≤ tally w xs :=
  (List.filter_sublist.map w).sum_le_sum fun _ _ => Nat.zero_le _

theorem tallyAt_eq_zero {xs : List α} (h : ∀ x ∈ xs, k x ≠ a) : tallyAt k w a xs = 0 := by
  have hnil : xs.filter (fun x => k x = a) = [] :=
    List.filter_eq_nil_iff.mpr fun x hx => by simpa using h x hx
  unfold tallyAt
  rw [hnil]
  rfl

end

end MediaModules.Lib.Tally
