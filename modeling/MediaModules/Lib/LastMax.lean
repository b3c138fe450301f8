import Mathlib.Data.List.Basic
import Mathlib.Order.Lattice

/-!
# The last of the greatest

A list is read from the left and the best member so far is kept: a later member replaces it unless it is
smaller.
-/
namespace MediaModules.Lib.LastMax

variable {α ρ : Type*} [LinearOrder ρ] {rank : α → ρ} {l : List α} {a b : α}

/-- The member is a greatest one, and the last one of those. -/
def IsLastMax (rank : α → ρ) (l : List α) (a : α) : Prop :=
  ∃ before after, l = before ++ a :: after ∧ (∀ b ∈ before, rank b ≤ rank a) ∧
    ∀ b ∈ after, rank b < rank a

theorem isLastMax_singleton (rank : α → ρ) (a : α) : IsLastMax rank [a] a :=
  ⟨[], [], rfl, fun _ h => absurd h List.not_mem_nil, fun _ h => absurd h List.not_mem_nil⟩

theorem IsLastMax.rank_le (h : IsLastMax rank l a) (hb : b ∈ l) : rank b ≤ rank a := by
  obtain ⟨before, after, rfl, hbefore, hafter⟩ := h
  obtain hb | hb := List.mem_append.mp hb
  · exact hbefore b hb
  · obtain rfl | hb := List.mem_cons.mp hb
    · exact le_rfl
    · exact (hafter b hb).le

/-- A smaller member does not replace it. -/
theorem IsLastMax.append_lt (h : IsLastMax rank l a) (hb : rank b < rank a) :
    IsLastMax rank (l ++ [b]) a := by
  obtain ⟨before, after, rfl, hbefore, hafter⟩ := h
  refine ⟨before, after ++ [b], by rw [List.append_assoc, List.cons_append], hbefore, fun c hc => ?_⟩
  obtain hc | hc := List.mem_append.mp hc
  · exact hafter c hc
  · exact List.mem_singleton.mp hc ▸ hb

/-- Any other one does. -/
theorem IsLastMax.append_le (h : IsLastMax rank l a) (hb : rank a ≤ rank b) :
    IsLastMax rank (l ++ [b]) b :=
  ⟨l, [], rfl, fun _ hc => (h.rank_le hc).trans hb, fun _ hc => absurd hc List.not_mem_nil⟩

end MediaModules.Lib.LastMax
