import Mathlib.Algebra.BigOperators.Fin
import Mathlib.Algebra.BigOperators.Ring.Finset
import Mathlib.Algebra.Order.BigOperators.Group.Finset
import Mathlib.Algebra.Order.Ring.Int
import Mathlib.Tactic.Common

/-!
# Reference counts of named objects

A fixed number of slots name objects, and every object counts its references. The rules say what a
loop that raises or lowers counts slot by slot does to them.
-/
namespace MediaModules.Lib.RefCount

open scoped BigOperators

variable {ι β : Type*} [Fintype ι] [DecidableEq β]

/-- One reference to `b`, if it is what is named. -/
def named (o : Option β) (b : β) : Int := if o = some b then 1 else 0

/-- The number of slots that name `b`. -/
def names (slot : ι → Option β) (b : β) : Int := ∑ i, named (slot i) b

/-- The counts with `d` added to that of the object `o`, if there is one. -/
def bump (count : β → Int) (o : Option β) (d : Int) : β → Int := fun b =>
  if o = some b then count b + d else count b

section One
omit [Fintype ι]

theorem bump_apply (count : β → Int) (o : Option β) (d : Int) (b : β) :
    bump count o d b = count b + if o = some b then d else 0 := by
  unfold bump
  split
  · rfl
  · rw [Int.add_zero]

theorem bump_named (count : β → Int) (o : Option β) (d : Int) (b : β) :
    bump count o d b = count b + d * named o b := by
  unfold bump named
  split
  · rw [Int.mul_one]
  · rw [Int.mul_zero, Int.add_zero]

@[simp] theorem named_none (b : β) : named none b = 0 :=
  if_neg (Option.some_ne_none b).symm

theorem named_self (b : β) : named (some b) b = 1 := if_pos rfl

theorem named_nonneg (o : Option β) (b : β) : 0 ≤ named o b := by
  unfold named
  split <;> decide

end One

theorem names_nonneg (slot : ι → Option β) (b : β) : 0 ≤ names slot b :=
  Finset.sum_nonneg fun i _ => named_nonneg (slot i) b

theorem names_pos {slot : ι → Option β} {i : ι} {b : β} (h : slot i = some b) :
    0 < names slot b := by
  refine Finset.sum_pos' (fun i _ => named_nonneg (slot i) b) ⟨i, Finset.mem_univ i, ?_⟩
  rw [h, named_self]
  decide

theorem names_eq_zero {slot : ι → Option β} {b : β} :
    names slot b = 0 ↔ ∀ i, slot i ≠ some b := by
  constructor
  · intro h i hi
    have hpos := names_pos hi
    omega
  · intro h
    exact Finset.sum_eq_zero fun i _ => if_neg (h i)

omit [DecidableEq β] in
/-- A loop over all slots, each of which adds a weight to the counts. -/
theorem foldl_count {n : Nat} {body : (β → Int) → Fin n → β → Int} (weight : Fin n → β → Int)
    (h : ∀ count i b, body count i b = count b + weight i b) (count : β → Int) (b : β) :
    (List.finRange n).foldl body count b = count b + ∑ i, weight i b := by
  have hlist : ∀ (l : List (Fin n)) (count : β → Int),
      l.foldl body count b = count b + (l.map fun i => weight i b).sum := by
    intro l
    induction l with
    | nil => intro count; simp
    | cons i l ih =>
      intro count
      rw [List.foldl_cons, ih, h, List.map_cons, List.sum_cons, Int.add_assoc]
  rw [hlist, Fin.sum_univ_def]

/-- A loop that adds `d` to the count of the object of each slot. -/
theorem foldl_bump {n : Nat} (slot : Fin n → Option β) (d : Int) (count : β → Int) (b : β) :
    (List.finRange n).foldl (fun count i => bump count (slot i) d) count b =
      count b + d * names slot b := by
  rw [names, Finset.mul_sum]
  exact foldl_count (fun i b => d * named (slot i) b)
    (fun count i b => bump_named count (slot i) d b) count b

@[simp] theorem names_none (b : β) : names (fun _ : ι => none) b = 0 :=
  names_eq_zero.mpr fun _ h => by cases h

/-- One slot changes hands. -/
theorem names_update [DecidableEq ι] (slot : ι → Option β) (i : ι) (o : Option β) (b : β) :
    names (fun j => if j = i then o else slot j) b + named (slot i) b =
      names slot b + named o b := by
  have hrest : ∀ f : ι → Int, ∑ j, f j = f i + ∑ j ∈ Finset.univ.erase i, f j := fun f =>
    (Finset.add_sum_erase _ f (Finset.mem_univ i)).symm
  have hsame : ∑ j ∈ Finset.univ.erase i, named (if j = i then o else slot j) b =
      ∑ j ∈ Finset.univ.erase i, named (slot j) b :=
    Finset.sum_congr rfl fun j hj => by rw [if_neg (Finset.ne_of_mem_erase hj)]
  rw [names, names, hrest, hrest fun j => named (slot j) b, if_pos rfl, hsame]
  omega

end MediaModules.Lib.RefCount
