import Mathlib.Data.List.Induction
import Mathlib.Data.List.Nodup

/-!
# Inserting into an array in place

An array is a list that is read and written by index; outside it both are `none`. A new element is
inserted by moving the ones behind it up, and unwanted elements are taken out by moving the others down.
-/
namespace MediaModules.Lib.InPlace

variable {α : Type*}

def write (a : List α) (i : Nat) (x : α) : Option (List α) :=
  if i < a.length then some (a.set i x) else none

/-- Move the elements from `lo` on, below `hi`, one place up, the last one first. -/
def shiftUp (lo : Nat) : Nat → List α → Option (List α)
  | 0, a => some a
  | hi + 1, a =>
    if hi + 1 > lo then do
      let x ← a[hi]?
      let a ← write a (hi + 1) x
      shiftUp lo hi a
    else some a

/-- Of the `n` elements from `i` on, move those to keep down to `j`. -/
def compact (keep : α → Bool) : Nat → Nat → Nat → List α → Option (List α)
  | 0, _, _, a => some a
  | n + 1, i, j, a => do
    let x ← a[i]?
    if keep x then (write a j x).bind fun a => compact keep n (i + 1) (j + 1) a
    else compact keep n (i + 1) j a

theorem write_some {a : List α} {i : Nat} (x : α) (h : i < a.length) :
    write a i x = some (a.set i x) := if_pos h

theorem write_at (front rest : List α) (x y : α) :
    write (front ++ x :: rest) front.length y = some (front ++ y :: rest) := by
  rw [write_some y (by simp), List.set_append_right _ _ (Nat.le_refl _), Nat.sub_self, List.set_cons_zero]

theorem getElem?_at (front rest : List α) (x : α) :
    (front ++ x :: rest)[front.length]? = some x := by
  rw [List.getElem?_append_right (Nat.le_refl _), Nat.sub_self, List.getElem?_cons_zero]

/-- Nothing is moved from a place behind the end. -/
theorem shiftUp_of_le {lo hi : Nat} (h : hi ≤ lo) (a : List α) : shiftUp lo hi a = some a := by
  cases hi with
  | zero => rfl
  | succ hi => exact if_neg (Nat.not_lt.mpr h)

/-- An element is inserted, and the one behind the end is lost. -/
theorem shiftUp_write (front seg rest : List α) (x y : α) :
    (shiftUp front.length (front.length + seg.length) (front ++ (seg ++ x :: rest))).bind
      (write · front.length y) = some (front ++ y :: (seg ++ rest)) := by
  induction seg using List.reverseRecOn generalizing x rest with
  | nil =>
    rw [List.length_nil, Nat.add_zero, shiftUp_of_le (Nat.le_refl _), Option.bind_some]
    exact write_at front rest x y
  | append_singleton seg c ih =>
    have hsplit : front ++ ((seg ++ [c]) ++ x :: rest) = (front ++ seg) ++ c :: x :: rest := by simp
    have hsplit' : front ++ ((seg ++ [c]) ++ x :: rest) = (front ++ seg ++ [c]) ++ x :: rest := by simp
    have hlast : (front ++ ((seg ++ [c]) ++ x :: rest))[front.length + seg.length]? = some c := by
      rw [hsplit, ← List.length_append]
      exact getElem?_at _ _ _
    have hmove : write (front ++ ((seg ++ [c]) ++ x :: rest)) (front.length + seg.length + 1) c =
        some (front ++ (seg ++ c :: c :: rest)) := by
      have hlen : front.length + seg.length + 1 = (front ++ seg ++ [c]).length := by
        simp [Nat.add_assoc]
      rw [hsplit', hlen, write_at]
      simp
    have hgo : front.length + seg.length + 1 > front.length := by omega
    rw [List.length_append, List.length_singleton, ← Nat.add_assoc, shiftUp, if_pos hgo, hlast,
      Option.bind_eq_bind, Option.bind_some, hmove, Option.bind_eq_bind, Option.bind_some, ih]
    simp

/-- The elements to keep come first; behind them stays what was there. -/
theorem compact_eq (keep : α → Bool) (seg rest : List α) :
    ∀ front gap : List α, compact keep seg.length (front.length + gap.length) front.length
      (front ++ (gap ++ (seg ++ rest))) =
        some (front ++ (seg.filter keep ++ ((gap ++ seg).drop (seg.filter keep).length ++ rest))) := by
  induction seg with
  | nil => simp [compact]
  | cons c seg ih =>
    intro front gap
    have hread : (front ++ (gap ++ (c :: seg ++ rest)))[front.length + gap.length]? = some c := by
      rw [← List.append_assoc, ← List.length_append, List.cons_append]
      exact getElem?_at _ _ _
    rw [List.length_cons, compact, hread, Option.bind_eq_bind, Option.bind_some]
    cases hkeep : keep c with
    | false =>
      have hgap := ih front (gap ++ [c])
      rw [List.length_append, List.length_singleton, ← Nat.add_assoc, List.append_assoc,
        List.singleton_append, List.append_assoc, List.singleton_append] at hgap
      rw [if_neg Bool.false_ne_true, List.cons_append, hgap, List.filter_cons_of_neg (by simp [hkeep])]
    | true =>
      -- The place behind the front holds the first element of the gap, or `c` itself.
      obtain ⟨h, t, hgap⟩ : ∃ h t, gap ++ [c] = h :: t := List.exists_cons_of_ne_nil (by simp)
      have hlen : gap.length = t.length := by simpa using congrArg List.length hgap
      have hsplit (b : List α) : gap ++ c :: b = h :: (t ++ b) := by
        rw [← List.singleton_append, ← List.append_assoc, hgap, List.cons_append]
      have hmoved := ih (front ++ [c]) t
      rw [List.length_append, List.length_singleton, Nat.add_right_comm, List.append_assoc,
        List.append_assoc] at hmoved
      rw [if_pos rfl, List.cons_append, hsplit, write_at, Option.bind_some, hlen,
        ← List.singleton_append, hmoved, List.filter_cons_of_pos hkeep, List.length_cons, hsplit,
        List.drop_succ_cons, List.singleton_append, List.cons_append]

section Place
variable {β : Type*} [DecidableEq β]

/-- An element put at a place and taken out behind it. The length stays: the last one may be lost. -/
def place (i : Nat) (q : β) (l : List β) : List β :=
  (l.take i ++ q :: (l.drop i).filter (· != q)).take l.length

variable {i : Nat} {p q : β} {l : List β}

/-- Behind the end nothing is put. -/
theorem place_of_le (q : β) (h : l.length ≤ i) : place i q l = l := by
  rw [place, List.take_of_length_le h, List.take_left]

theorem length_filter_ne (q : β) (h : l.Nodup) : l.length ≤ (l.filter (· != q)).length + 1 := by
  rw [← h.erase_eq_filter, List.length_erase]
  split
  · omega
  · omega

theorem length_place (q : β) (h : (l.drop i).Nodup) : (place i q l).length = l.length := by
  have hrest := length_filter_ne q h
  rw [List.length_drop] at hrest
  rw [place, List.length_take, List.length_append, List.length_cons, List.length_take]
  omega

theorem mem_place (h : p ∈ place i q l) : p = q ∨ p ∈ l := by
  rcases List.mem_append.mp (List.mem_of_mem_take h) with hfront | hbehind
  · exact .inr (List.mem_of_mem_take hfront)
  · rcases List.mem_cons.mp hbehind with rfl | hrest
    · exact .inl rfl
    · exact .inr (List.mem_of_mem_drop (List.mem_filter.mp hrest).1)

theorem drop_place (q : β) (hi : i < l.length) :
    List.Sublist ((place i q l).drop (i + 1)) (l.drop i) := by
  have hfront : (l.take i ++ [q]).length = i + 1 := by
    rw [List.length_append, List.length_take, List.length_singleton]
    omega
  have hsplit : l.take i ++ q :: (l.drop i).filter (· != q) =
      (l.take i ++ [q]) ++ (l.drop i).filter (· != q) := by simp
  rw [place, hsplit, List.drop_take, List.drop_left' hfront]
  exact (List.take_sublist _ _).trans List.filter_sublist

theorem place_nodup (q : β) (h : (l.drop i).Nodup) : ((place i q l).drop (i + 1)).Nodup := by
  rcases Nat.lt_or_ge i l.length with hi | hi
  · exact h.sublist (drop_place q hi)
  · rw [place_of_le q hi, List.drop_eq_nil_of_le (by omega)]
    exact List.nodup_nil

end Place

end MediaModules.Lib.InPlace
