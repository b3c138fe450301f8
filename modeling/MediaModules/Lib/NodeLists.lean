import Mathlib.Data.List.Perm.Basic
import Mathlib.Tactic.Common

/-!
# Nodes split between two lists

A fixed set of nodes, each linked in one of two lists: the used nodes, in an order of their
own, and the free ones, taken from the front and given back at the end.
-/
namespace MediaModules.Lib.NodeLists

variable {α : Type*}

/-- Every node is in exactly one of the lists, once. -/
def Partition (all used free : List α) : Prop := (used ++ free).Perm all

/-- Link `x` in front of the first node with `stop`, else at the end. -/
def insertBefore (stop : α → Bool) (x : α) : List α → List α
  | [] => [x]
  | y :: ys => if stop y then x :: y :: ys else y :: insertBefore stop x ys

theorem insertBefore_perm (stop : α → Bool) (x : α) (xs : List α) :
    (insertBefore stop x xs).Perm (x :: xs) := by
  induction xs with
  | nil => exact .refl _
  | cons y ys ih =>
    unfold insertBefore
    split
    · exact .refl _
    · exact (ih.cons y).trans (.swap x y ys)

theorem insertBefore_length (stop : α → Bool) (x : α) (xs : List α) :
    (insertBefore stop x xs).length = xs.length + 1 :=
  (insertBefore_perm stop x xs).length_eq

/-- Only the answers for the nodes of the list count. -/
theorem insertBefore_congr {stop stop' : α → Bool} {x : α} {xs : List α}
    (h : ∀ y ∈ xs, stop y = stop' y) : insertBefore stop x xs = insertBefore stop' x xs := by
  induction xs with
  | nil => rfl
  | cons y ys ih =>
    rw [insertBefore, insertBefore, h y List.mem_cons_self,
      ih fun z hz => h z (List.mem_cons_of_mem y hz)]

theorem mem_insertBefore {stop : α → Bool} {x y : α} {xs : List α} :
    y ∈ insertBefore stop x xs ↔ y = x ∨ y ∈ xs := by
  rw [(insertBefore_perm stop x xs).mem_iff, List.mem_cons]

/-- An order is kept by a search that stops at the first node not below `x`. -/
theorem insertBefore_pairwise {r : α → α → Prop} {stop : α → Bool} {x : α} {xs : List α}
    (htrans : ∀ {a b c}, r a b → r b c → r a c) (hstop : ∀ y ∈ xs, stop y = true → r x y)
    (hpass : ∀ y ∈ xs, stop y = false → r y x) (h : xs.Pairwise r) :
    (insertBefore stop x xs).Pairwise r := by
  induction xs with
  | nil => exact List.pairwise_singleton r x
  | cons y ys ih =>
    obtain ⟨hy, hys⟩ := List.pairwise_cons.mp h
    rw [insertBefore]
    split
    · rename_i hs
      have hxy := hstop y List.mem_cons_self hs
      refine List.pairwise_cons.mpr ⟨fun z hz => ?_, h⟩
      rcases List.mem_cons.mp hz with rfl | hz
      · exact hxy
      · exact htrans hxy (hy z hz)
    · rename_i hs
      have hyx := hpass y List.mem_cons_self (Bool.not_eq_true _ ▸ hs)
      have hrest := ih (fun z hz => hstop z (List.mem_cons_of_mem y hz))
        (fun z hz => hpass z (List.mem_cons_of_mem y hz)) hys
      refine List.pairwise_cons.mpr ⟨fun z hz => ?_, hrest⟩
      rcases mem_insertBefore.mp hz with rfl | hz
      · exact hyx
      · exact hy z hz

/-- A node that is in one of two lists leaves it. -/
theorem erase_both_perm [DecidableEq α] {xs ys : List α} (h : (xs ++ ys).Nodup) (x : α) :
    (xs.erase x ++ ys.erase x).Perm ((xs ++ ys).erase x) := by
  by_cases hx : x ∈ xs
  · have hy : x ∉ ys := fun hy => (List.nodup_append.mp h).2.2 x hx x hy rfl
    rw [List.erase_of_not_mem hy, List.erase_append_left _ hx]
  · rw [List.erase_of_not_mem hx, List.erase_append_right _ hx]

/-- A node that is in one of two lists goes to the end of the second. -/
theorem move_back_perm [DecidableEq α] {xs ys : List α} {x : α} (h : (xs ++ ys).Nodup)
    (hx : x ∈ xs ++ ys) : (xs.erase x ++ (ys.erase x ++ [x])).Perm (xs ++ ys) := by
  rw [← List.append_assoc]
  apply (List.perm_append_singleton x _).trans
  exact ((erase_both_perm h x).cons x).trans (List.perm_cons_erase hx).symm

/-- A node that is in one of two lists goes to the end of the first. -/
theorem move_front_perm [DecidableEq α] {xs ys : List α} {x : α} (h : (xs ++ ys).Nodup)
    (hx : x ∈ xs ++ ys) : ((xs.erase x ++ [x]) ++ ys.erase x).Perm (xs ++ ys) := by
  have hback := move_back_perm h hx
  rw [← List.append_assoc] at hback
  refine List.Perm.trans ?_ hback
  rw [List.append_assoc, List.append_assoc]
  exact List.perm_append_comm.append_left _

namespace Partition

variable {all used used' free : List α} {x : α}

theorem nodup (h : Partition all used free) (ha : all.Nodup) : (used ++ free).Nodup :=
  h.nodup_iff.mpr ha

theorem length_add (h : Partition all used free) : used.length + free.length = all.length := by
  rw [← List.length_append]
  exact h.length_eq

theorem not_mem_free (h : Partition all used free) (ha : all.Nodup) (hx : x ∈ used) :
    x ∉ free :=
  fun hx' => (List.nodup_append.mp (h.nodup ha)).2.2 x hx x hx' rfl

/-- A used node goes to the end of the free ones. -/
theorem release [DecidableEq α] (h : Partition all used free) (hx : x ∈ used) :
    Partition all (used.erase x) (free ++ [x]) := by
  have hperm : (used.erase x ++ (free ++ [x])).Perm (used ++ free) := by
    rw [← List.append_assoc]
    apply (List.perm_append_singleton x _).trans
    rw [← List.cons_append]
    exact (List.perm_cons_erase hx).symm.append_right free
  exact hperm.trans h

/-- The first free node goes anywhere among the used ones. -/
theorem claim (h : Partition all used (x :: free)) (hu : used'.Perm (x :: used)) :
    Partition all used' free := by
  have hperm : (used' ++ free).Perm (used ++ x :: free) :=
    (hu.append_right free).trans List.perm_middle.symm
  exact hperm.trans h

end Partition

end MediaModules.Lib.NodeLists
