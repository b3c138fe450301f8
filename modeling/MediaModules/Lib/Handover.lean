import Mathlib.Data.List.Basic

/-!
# Handing over once

A log of items handed over and items closed, the latest entry first. An item is handed over at most
once between two closings when whoever hands it over knows which items are pending: no pending item
was handed over since it was closed last.
-/
namespace MediaModules.Lib.Handover

variable {ι : Type*}

/-- An entry of the log. -/
inductive Entry (ι : Type*)
  | handed (i : ι)
  | closed (i : ι)

variable [DecidableEq ι]

/-- How often an item was handed over since it was closed last. -/
def sinceClosed (i : ι) : List (Entry ι) → Nat
  | [] => 0
  | .handed j :: log => if j = i then sinceClosed i log + 1 else sinceClosed i log
  | .closed j :: log => if j = i then 0 else sinceClosed i log

/-- At no time an item was handed over twice since it was closed last. -/
def Once (log : List (Entry ι)) : Prop := ∀ i, ∀ log', log' <:+ log → sinceClosed i log' ≤ 1

/-- The pending items: none of them was handed over since it was closed last. -/
structure Balanced (pending : ι → Prop) (log : List (Entry ι)) : Prop where
  once : Once log
  fresh : ∀ i, pending i → sinceClosed i log = 0

variable {pending pending' : ι → Prop} {log : List (Entry ι)}

theorem once_cons {e : Entry ι} (h : Once log) (he : ∀ i, sinceClosed i (e :: log) ≤ 1) :
    Once (e :: log) := by
  intro i log' hlog
  rcases List.suffix_cons_iff.mp hlog with rfl | hlog
  · exact he i
  · exact h i log' hlog

theorem Once.now (h : Once log) (i : ι) : sinceClosed i log ≤ 1 := h i log (List.suffix_refl log)

theorem Balanced.nil : Balanced pending [] := by
  refine ⟨fun i log' hlog => ?_, fun _ _ => rfl⟩
  rw [List.suffix_nil.mp hlog]
  exact Nat.zero_le 1

/-- Fewer items are pending. -/
theorem Balanced.mono (h : Balanced pending log) (hsub : ∀ i, pending' i → pending i) :
    Balanced pending' log :=
  ⟨h.once, fun i hi => h.fresh i (hsub i hi)⟩

/-- A pending item is handed over, and is pending no more. -/
theorem Balanced.hand (h : Balanced pending log) {i : ι} (hi : pending i)
    (hsub : ∀ j, pending' j → pending j ∧ j ≠ i) : Balanced pending' (.handed i :: log) := by
  refine ⟨once_cons h.once fun j => ?_, fun j hj => ?_⟩
  · show (if i = j then sinceClosed j log + 1 else sinceClosed j log) ≤ 1
    split
    · next hij =>
      exact Nat.le_of_eq (by rw [← hij, h.fresh i hi])
    · exact h.once.now j
  · obtain ⟨hp, hne⟩ := hsub j hj
    show (if i = j then sinceClosed j log + 1 else sinceClosed j log) = 0
    rw [if_neg hne.symm]
    exact h.fresh j hp

/-- An item is closed, and may be pending again. -/
theorem Balanced.close (h : Balanced pending log) {i : ι}
    (hsub : ∀ j, pending' j → pending j ∨ j = i) : Balanced pending' (.closed i :: log) := by
  refine ⟨once_cons h.once fun j => ?_, fun j hj => ?_⟩
  · show (if i = j then 0 else sinceClosed j log) ≤ 1
    split
    · exact Nat.zero_le 1
    · exact h.once.now j
  · show (if i = j then 0 else sinceClosed j log) = 0
    split
    · rfl
    · next hne => exact h.fresh j ((hsub j hj).resolve_right fun hj => hne hj.symm)

end MediaModules.Lib.Handover
