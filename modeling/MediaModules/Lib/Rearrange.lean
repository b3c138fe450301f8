import Mathlib.Logic.Equiv.Basic
import Mathlib.Data.List.Perm.Basic
import Mathlib.Data.List.Nodup
import Mathlib.Data.List.Range

/-!
# Rearranging part of an array in place

Arrays are lists read and written by index. `Within lo hi a b` says that `b` comes from `a` by
moving elements between `lo` and `hi` only; it composes, it moves every property of the
elements between the bounds along, and it is a permutation of the whole.
-/
namespace MediaModules.Lib.Rearrange

variable {α : Type*}

/-- Read the element at an index. -/
def item [Inhabited α] (a : List α) (i : Nat) : α := a.getD i default

/-- Exchange two elements. -/
def swap [Inhabited α] (a : List α) (i j : Nat) : List α := (a.set i (item a j)).set j (item a i)

/-- The first index from `i` on where `stop` holds, at most `n` steps away. -/
def advance (stop : Nat → Bool) : Nat → Nat → Nat
  | 0, i => i
  | n + 1, i => if stop i then i else advance stop n (i + 1)

/-- The first index from `i` downwards where `stop` holds, at most `n` steps away. -/
def retreat (stop : Nat → Bool) : Nat → Nat → Nat
  | 0, i => i
  | n + 1, i => if stop i then i else retreat stop n (i - 1)

section Arrays

variable [Inhabited α]

/-- `b` rearranges the elements of `a` between `lo` and `hi`. -/
structure Within (lo hi : Nat) (a b : List α) : Prop where
  length_eq : b.length = a.length
  perm : ∃ σ : Equiv.Perm Nat, (∀ k, k < lo ∨ hi < k → σ k = k) ∧ ∀ k, item b k = item a (σ k)

theorem within_refl (lo hi : Nat) (a : List α) : Within lo hi a a :=
  ⟨rfl, Equiv.refl Nat, fun _ _ => rfl, fun _ => rfl⟩

theorem Within.trans {lo hi : Nat} {a b c : List α} (hab : Within lo hi a b)
    (hbc : Within lo hi b c) : Within lo hi a c := by
  obtain ⟨σ, hσ, hb⟩ := hab.perm
  obtain ⟨τ, hτ, hc⟩ := hbc.perm
  refine ⟨hbc.length_eq.trans hab.length_eq, τ.trans σ, ?_, ?_⟩
  · intro k hk
    show σ (τ k) = k
    rw [hτ k hk, hσ k hk]
  · intro k
    rw [hc k, hb (τ k)]
    rfl

theorem Within.mono {lo hi lo' hi' : Nat} {a b : List α} (h : Within lo hi a b) (hlo : lo' ≤ lo)
    (hhi : hi ≤ hi') : Within lo' hi' a b := by
  obtain ⟨σ, hσ, hb⟩ := h.perm
  refine ⟨h.length_eq, σ, fun k hk => hσ k ?_, hb⟩
  omega

/-- Outside the bounds nothing changes. -/
theorem Within.outside {lo hi k : Nat} {a b : List α} (h : Within lo hi a b)
    (hk : k < lo ∨ hi < k) : item b k = item a k := by
  obtain ⟨σ, hσ, hb⟩ := h.perm
  rw [hb k, hσ k hk]

theorem Within.inside {lo hi k : Nat} {a b : List α} (h : Within lo hi a b) (hlo : lo ≤ k)
    (hhi : k ≤ hi) : ∃ m, lo ≤ m ∧ m ≤ hi ∧ item b k = item a m := by
  obtain ⟨σ, hσ, hb⟩ := h.perm
  refine ⟨σ k, ?_, ?_, hb k⟩
  · by_contra hlt
    have hfix := σ.injective (hσ (σ k) (by omega))
    omega
  · by_contra hlt
    have hfix := σ.injective (hσ (σ k) (by omega))
    omega

theorem map_item_range (a : List α) : (List.range a.length).map (item a) = a := by
  apply List.ext_getElem (by simp)
  intro i h1 h2
  simp [item, h2]

/-- Rearranging a part of a list permutes the list. -/
theorem Within.toPerm {lo hi : Nat} {a b : List α} (h : Within lo hi a b)
    (hhi : hi < a.length) : b.Perm a := by
  obtain ⟨σ, hσ, hb⟩ := h.perm
  have hrange : ((List.range a.length).map σ).Perm (List.range a.length) := by
    refine (List.perm_ext_iff_of_nodup ?_ List.nodup_range).mpr fun k => ?_
    · exact List.nodup_range.map σ.injective
    · simp only [List.mem_map, List.mem_range]
      constructor
      · rintro ⟨m, hm, rfl⟩
        by_contra hge
        have hfix := σ.injective (hσ (σ m) (by omega))
        omega
      · intro hk
        refine ⟨σ.symm k, ?_, σ.apply_symm_apply k⟩
        by_contra hge
        have hfix := hσ (σ.symm k) (by omega)
        rw [σ.apply_symm_apply] at hfix
        omega
  have hmap : (List.range a.length).map (item b) = ((List.range a.length).map σ).map (item a) := by
    rw [List.map_map]
    exact List.map_congr_left fun k _ => hb k
  calc b = (List.range a.length).map (item b) := by rw [← h.length_eq, map_item_range]
    _ = ((List.range a.length).map σ).map (item a) := hmap
    _ |>.Perm ((List.range a.length).map (item a)) := hrange.map _
    _ = a := map_item_range a

theorem length_swap (a : List α) (i j : Nat) : (swap a i j).length = a.length := by
  simp [swap]

theorem item_set (a : List α) {i : Nat} (x : α) (k : Nat) (hi : i < a.length) :
    item (a.set i x) k = if k = i then x else item a k := by
  unfold item
  rw [List.getD_eq_getElem?_getD, List.getD_eq_getElem?_getD, List.getElem?_set]
  by_cases h : i = k
  · subst h
    simp [hi]
  · rw [if_neg h, if_neg (Ne.symm h)]

theorem item_swap (a : List α) {i j : Nat} (hi : i < a.length) (hj : j < a.length) (k : Nat) :
    item (swap a i j) k = item a (Equiv.swap i j k) := by
  have hj' : j < (a.set i (item a j)).length := by simpa using hj
  unfold swap
  rw [item_set _ _ _ hj', item_set _ _ _ hi, Equiv.swap_apply_def]
  by_cases h1 : k = j
  · by_cases h2 : k = i
    · rw [if_pos h1, if_pos h2, ← h1, ← h2]
    · rw [if_pos h1, if_neg h2, if_pos h1]
  · by_cases h2 : k = i
    · rw [if_neg h1, if_pos h2, if_pos h2]
    · rw [if_neg h1, if_neg h2, if_neg h2, if_neg h1]

theorem swap_within (a : List α) {lo hi i j : Nat} (hhi : hi < a.length) (hi1 : lo ≤ i)
    (hi2 : i ≤ hi) (hj1 : lo ≤ j) (hj2 : j ≤ hi) : Within lo hi a (swap a i j) := by
  refine ⟨length_swap a i j, Equiv.swap i j, fun k hk => ?_, item_swap a (by omega) (by omega)⟩
  exact Equiv.swap_apply_of_ne_of_ne (by omega) (by omega)

theorem item_swap_left (a : List α) {i j : Nat} (hi : i < a.length) (hj : j < a.length) :
    item (swap a i j) i = item a j := by
  rw [item_swap a hi hj, Equiv.swap_apply_left]

theorem item_swap_right (a : List α) {i j : Nat} (hi : i < a.length) (hj : j < a.length) :
    item (swap a i j) j = item a i := by
  rw [item_swap a hi hj, Equiv.swap_apply_right]

theorem item_swap_other (a : List α) {i j k : Nat} (hi : i < a.length) (hj : j < a.length)
    (h1 : k ≠ i) (h2 : k ≠ j) : item (swap a i j) k = item a k := by
  rw [item_swap a hi hj, Equiv.swap_apply_of_ne_of_ne h1 h2]

end Arrays

/-- What `advance` finds. -/
theorem advance_spec (stop : Nat → Bool) (n i : Nat) :
    i ≤ advance stop n i ∧ advance stop n i ≤ i + n ∧
      (∀ k, i ≤ k → k < advance stop n i → stop k = false) ∧
      (advance stop n i = i + n ∨ stop (advance stop n i) = true) := by
  induction n generalizing i with
  | zero => exact ⟨Nat.le_refl i, Nat.le_refl i, fun k h1 h2 => absurd h2 (by
      show ¬ k < i
      omega), Or.inl rfl⟩
  | succ n ih =>
    cases hs : stop i with
    | true =>
      have hr : advance stop (n + 1) i = i := by simp [advance, hs]
      rw [hr]
      exact ⟨Nat.le_refl i, by omega, fun k h1 h2 => by omega, Or.inr hs⟩
    | false =>
      have hr : advance stop (n + 1) i = advance stop n (i + 1) := by simp [advance, hs]
      obtain ⟨h1, h2, h3, h4⟩ := ih (i + 1)
      rw [hr]
      refine ⟨by omega, by omega, fun k hk1 hk2 => ?_, ?_⟩
      · by_cases hk : k = i
        · rw [hk, hs]
        · exact h3 k (by omega) hk2
      · rcases h4 with h4 | h4
        · exact Or.inl (by omega)
        · exact Or.inr h4

/-- What `retreat` finds. -/
theorem retreat_spec (stop : Nat → Bool) (n i : Nat) (hn : n ≤ i) :
    i - n ≤ retreat stop n i ∧ retreat stop n i ≤ i ∧
      (∀ k, retreat stop n i < k → k ≤ i → stop k = false) ∧
      (retreat stop n i = i - n ∨ stop (retreat stop n i) = true) := by
  induction n generalizing i with
  | zero => exact ⟨Nat.le_refl i, Nat.le_refl i, fun k h1 h2 => absurd h1 (by
      show ¬ i < k
      omega), Or.inl rfl⟩
  | succ n ih =>
    cases hs : stop i with
    | true =>
      have hr : retreat stop (n + 1) i = i := by simp [retreat, hs]
      rw [hr]
      exact ⟨by omega, Nat.le_refl i, fun k h1 h2 => by omega, Or.inr hs⟩
    | false =>
      have hr : retreat stop (n + 1) i = retreat stop n (i - 1) := by simp [retreat, hs]
      obtain ⟨h1, h2, h3, h4⟩ := ih (i - 1) (by omega)
      rw [hr]
      refine ⟨by omega, by omega, fun k hk1 hk2 => ?_, ?_⟩
      · by_cases hk : k = i
        · rw [hk, hs]
        · exact h3 k hk1 (by omega)
      · rcases h4 with h4 | h4
        · exact Or.inl (by omega)
        · exact Or.inr h4

end MediaModules.Lib.Rearrange
