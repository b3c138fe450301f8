import Mathlib.Tactic.Common

/-!
# Loops that may fail

A loop that counts from 0 fails in its first bad round. One that reads or writes an array at each count
fails where the array ends.
-/
namespace MediaModules.Lib.Checked

variable {β ε : Type*} {bound n : Nat} {e : ε} {g : β → Nat → β} {b c : β}

/-- The rounds below `n`. -/
def rounds (f : β → Nat → Except ε β) (n : Nat) (b : β) : Except ε β := (List.range n).foldlM f b

theorem rounds_succ (f : β → Nat → Except ε β) (n : Nat) (b : β) :
    rounds f (n + 1) b = (rounds f n b).bind fun c => f c n := by
  rw [rounds, List.range_succ, List.foldlM_append]
  cases h : rounds f n b with
  | error e' =>
    rw [rounds] at h
    rw [h]
    rfl
  | ok c =>
    rw [rounds] at h
    rw [h]
    show (f c n).bind (fun c => .ok c) = f c n
    cases f c n <;> rfl

/-- When the good rounds keep an invariant, and every other one fails under it, all rounds are good and
the loop comes to its end, or it fails in the first that is not. -/
theorem rounds_cases {f : β → Nat → Except ε β} {Good : Nat → Prop} {P : Nat → β → Prop} {err : Nat → ε}
    (hstart : P 0 b) (hgood : ∀ i < n, ∀ c, P i c → Good i → ∃ c', f c i = .ok c' ∧ P (i + 1) c')
    (hbad : ∀ i < n, ∀ c, P i c → ¬ Good i → f c i = .error (err i)) :
    ((∀ i < n, Good i) ∧ ∃ c, rounds f n b = .ok c ∧ P n c) ∨
      ∃ i < n, (∀ j < i, Good j) ∧ ¬ Good i ∧ rounds f n b = .error (err i) := by
  induction n with
  | zero => exact Or.inl ⟨fun i hi => absurd hi (Nat.not_lt_zero i), b, rfl, hstart⟩
  | succ n ih =>
    rw [rounds_succ]
    rcases ih (fun i hi => hgood i (Nat.lt_succ_of_lt hi)) fun i hi => hbad i (Nat.lt_succ_of_lt hi) with
      ⟨hall, c, hc, hP⟩ | ⟨i, hi, hbefore, hno, herr⟩
    · rw [hc]
      by_cases hn : Good n
      · refine Or.inl ⟨fun i hi => ?_, hgood n (Nat.lt_succ_self n) c hP hn⟩
        rcases Nat.lt_succ_iff_lt_or_eq.mp hi with hlt | rfl
        · exact hall i hlt
        · exact hn
      · exact Or.inr ⟨n, Nat.lt_succ_self n, hall, hn, hbad n (Nat.lt_succ_self n) c hP hn⟩
    · rw [herr]
      exact Or.inr ⟨i, Nat.lt_succ_of_lt hi, hbefore, hno, rfl⟩

/-- The rounds below `n`, over an array of `bound` elements. -/
def loopBelow (bound : Nat) (e : ε) (g : β → Nat → β) (n : Nat) (b : β) : Except ε β :=
  rounds (fun b i => if i < bound then .ok (g b i) else .error e) n b

/-- The loop comes to its end exactly when its counts are in the array. -/
theorem loopBelow_eq (bound : Nat) (e : ε) (g : β → Nat → β) (n : Nat) (b : β) :
    loopBelow bound e g n b = if n ≤ bound then .ok ((List.range n).foldl g b) else .error e := by
  induction n with
  | zero => rfl
  | succ n ih =>
    rw [loopBelow] at ih ⊢
    rw [rounds_succ, ih, List.range_succ, List.foldl_append]
    by_cases hlt : n < bound
    · rw [if_pos (Nat.le_of_lt hlt), if_pos (Nat.succ_le_of_lt hlt)]
      exact if_pos hlt
    · rw [if_neg (show ¬ n + 1 ≤ bound from hlt)]
      split <;> rfl

theorem loopBelow_ok (h : n ≤ bound) : loopBelow bound e g n b = .ok ((List.range n).foldl g b) := by
  rw [loopBelow_eq, if_pos h]

theorem le_of_loopBelow (h : loopBelow bound e g n b = .ok c) : n ≤ bound := by
  rw [loopBelow_eq] at h
  by_contra hgt
  rw [if_neg hgt] at h
  exact nomatch h

end MediaModules.Lib.Checked
