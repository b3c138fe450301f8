import Mathlib.Algebra.Order.BigOperators.Group.Finset
import Mathlib.Algebra.Order.Ring.Int
import Mathlib.Data.Finset.Lattice.Basic
import Mathlib.Tactic.Common

/-!
# Who holds what

Holders that hold at most one item each. The live items are held by exactly one holder, and two
counters keep the number of holders with an item and the weight of what they hold.
-/
namespace MediaModules.Lib.Holdings

variable {ι β : Type*}

/-- Every live item is held by exactly one holder, and nothing else is held. -/
structure Owns (held : ι → Option β) (live : Finset β) : Prop where
  live_of_held : ∀ i b, held i = some b → b ∈ live
  once : ∀ b ∈ live, ∃! i, held i = some b

/-- The weight of what a holder has. -/
def weightOf (w : β → Nat) : Option β → Nat
  | none => 0
  | some b => w b

/-- The number of holders with an item is `count`, and what they hold weighs `total`. -/
def Counted (held : ι → Option β) (w : β → Nat) (count total : Int) : Prop :=
  ∃ holders : Finset ι, (∀ i, i ∈ holders ↔ held i ≠ none) ∧ count = holders.card ∧
    total = ∑ i ∈ holders, (weightOf w (held i) : Int)

variable {held : ι → Option β} {live : Finset β} {w : β → Nat} {count total : Int} {i : ι} {b : β}

theorem Owns.injective (h : Owns held live) {j : ι} (hi : held i = some b) (hj : held j = some b) :
    i = j :=
  (h.once b (h.live_of_held i b hi)).unique hi hj

theorem owns_none : Owns (fun _ : ι => (none : Option β)) ∅ :=
  ⟨nofun, fun b hb => absurd hb (Finset.notMem_empty b)⟩

theorem counted_none : Counted (fun _ : ι => (none : Option β)) w 0 0 :=
  ⟨∅, fun i => iff_of_false (Finset.notMem_empty i) fun h => h rfl, rfl, rfl⟩

/-- What the counters say is determined by who holds what. -/
theorem Counted.unique {count' total' : Int} (h : Counted held w count total)
    (h' : Counted held w count' total') : count = count' ∧ total = total' := by
  obtain ⟨s, hs, rfl, rfl⟩ := h
  obtain ⟨s', hs', rfl, rfl⟩ := h'
  have heq : s = s' := Finset.ext fun i => (hs i).trans (hs' i).symm
  rw [heq]
  exact ⟨rfl, rfl⟩

theorem Counted.congr {w' : β → Nat} (h : Counted held w count total)
    (hw : ∀ i b, held i = some b → w' b = w b) : Counted held w' count total := by
  obtain ⟨s, hs, hcount, htotal⟩ := h
  refine ⟨s, hs, hcount, htotal.trans (Finset.sum_congr rfl fun i hi => ?_)⟩
  cases hb : held i with
  | none => rfl
  | some b => exact congrArg Nat.cast (hw i b hb).symm

theorem Counted.nonneg (h : Counted held w count total) : 0 ≤ count ∧ 0 ≤ total := by
  obtain ⟨s, -, rfl, rfl⟩ := h
  exact ⟨Int.natCast_nonneg _, Finset.sum_nonneg fun i _ => Int.natCast_nonneg _⟩

theorem Counted.zero (h : Counted held w count total) (hnone : ∀ i, held i = none) :
    count = 0 ∧ total = 0 := by
  have hempty : held = fun _ => none := funext hnone
  rw [hempty] at h
  exact h.unique counted_none

variable [DecidableEq ι]

section
variable [DecidableEq β]

theorem Owns.take (h : Owns held live) (hi : held i = none) (hb : b ∉ live) :
    Owns (Function.update held i (some b)) (insert b live) := by
  have hother {j : ι} {x : β} (hj : held j = some x) : j ≠ i := fun hji => by
    rw [hji, hi] at hj
    exact absurd hj nofun
  refine ⟨fun j x hj => ?_, fun x hx => ?_⟩
  · by_cases hji : j = i
    · rw [hji, Function.update_self] at hj
      exact Option.some.inj hj ▸ Finset.mem_insert_self b live
    · rw [Function.update_of_ne hji] at hj
      exact Finset.mem_insert_of_mem (h.live_of_held j x hj)
  · by_cases hxb : x = b
    · refine ⟨i, by rw [hxb]; exact Function.update_self i _ held, fun j hj => ?_⟩
      by_contra hji
      have hj : Function.update held i (some b) j = some x := hj
      rw [Function.update_of_ne hji, hxb] at hj
      exact hb (h.live_of_held j b hj)
    · obtain ⟨j, hj, huniq⟩ := h.once x (Finset.mem_of_mem_insert_of_ne hx hxb)
      refine ⟨j, ?_, fun k hk => ?_⟩
      · show Function.update held i (some b) j = some x
        rw [Function.update_of_ne (hother hj)]
        exact hj
      · have hk : Function.update held i (some b) k = some x := hk
        by_cases hki : k = i
        · rw [hki, Function.update_self] at hk
          exact absurd (Option.some.inj hk).symm hxb
        · rw [Function.update_of_ne hki] at hk
          exact huniq k hk

/-- A holder gives its item up, and the item is no longer live. -/
theorem Owns.drop (h : Owns held live) (hi : held i = some b) :
    Owns (Function.update held i none) (live.erase b) := by
  refine ⟨fun j x hj => ?_, fun x hx => ?_⟩
  · by_cases hji : j = i
    · rw [hji, Function.update_self] at hj
      exact absurd hj nofun
    · rw [Function.update_of_ne hji] at hj
      refine Finset.mem_erase.mpr ⟨fun hxb => hji ?_, h.live_of_held j x hj⟩
      rw [hxb] at hj
      exact h.injective hj hi
  · obtain ⟨hxb, hx⟩ := Finset.mem_erase.mp hx
    obtain ⟨j, hj, huniq⟩ := h.once x hx
    have hji : j ≠ i := fun hji => by
      have hj : held j = some x := hj
      rw [hji, hi] at hj
      exact hxb (Option.some.inj hj).symm
    refine ⟨j, ?_, fun k hk => ?_⟩
    · show Function.update held i none j = some x
      rw [Function.update_of_ne hji]
      exact hj
    · have hk : Function.update held i none k = some x := hk
      by_cases hki : k = i
      · rw [hki, Function.update_self] at hk
        exact absurd hk nofun
      · rw [Function.update_of_ne hki] at hk
        exact huniq k hk

end

/-- What the others hold weighs the same after a change of one holder. -/
theorem sum_update {s : Finset ι} (hi : i ∉ s) (x : Option β) :
    ∑ j ∈ s, (weightOf w (Function.update held i x j) : Int) =
      ∑ j ∈ s, (weightOf w (held j) : Int) := by
  apply Finset.sum_congr rfl
  intro j hj
  have hji : j ≠ i := fun hji => hi (hji ▸ hj)
  rw [Function.update_of_ne hji]

theorem Counted.take (h : Counted held w count total) (hi : held i = none) :
    Counted (Function.update held i (some b)) w (count + 1) (total + w b) := by
  obtain ⟨s, hs, rfl, rfl⟩ := h
  have hmem : i ∉ s := fun hmem => (hs i).mp hmem hi
  refine ⟨insert i s, fun j => ?_, ?_, ?_⟩
  · rw [Finset.mem_insert, hs]
    by_cases hji : j = i
    · rw [hji, Function.update_self]
      exact iff_of_true (Or.inl rfl) nofun
    · rw [Function.update_of_ne hji]
      exact ⟨fun hj => hj.resolve_left hji, Or.inr⟩
  · rw [Finset.card_insert_of_notMem hmem]
    exact (Nat.cast_succ _).symm
  · rw [Finset.sum_insert hmem, sum_update hmem, Function.update_self]
    exact Int.add_comm _ _

theorem Counted.drop (h : Counted held w count total) (hi : held i = some b) :
    Counted (Function.update held i none) w (count - 1) (total - w b) := by
  obtain ⟨s, hs, rfl, rfl⟩ := h
  have hmem : i ∈ s := (hs i).mpr fun hnone => by
    rw [hnone] at hi
    exact absurd hi nofun
  refine ⟨s.erase i, fun j => ?_, ?_, ?_⟩
  · rw [Finset.mem_erase, hs]
    by_cases hji : j = i
    · rw [hji, Function.update_self]
      exact iff_of_false (fun hj => hj.1 rfl) fun hj => hj rfl
    · rw [Function.update_of_ne hji]
      exact ⟨fun hj => hj.2, fun hj => ⟨hji, hj⟩⟩
  · have hcard := Finset.card_erase_add_one hmem
    omega
  · rw [sum_update (Finset.notMem_erase i s), ← Finset.add_sum_erase s _ hmem, hi]
    exact add_sub_cancel_left _ _

end MediaModules.Lib.Holdings
