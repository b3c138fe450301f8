import Mathlib.Data.Finset.SDiff
import Mathlib.Data.Finset.Lattice.Lemmas
import Mathlib.Data.Finset.Disjoint
import Mathlib.Data.Finset.Basic
import Mathlib.Tactic.Common

/-!
# Resources split among owners

What each owner has a share of is kept beside what is given out at all. The shares do not meet, and
together they are what is given out.
-/
namespace MediaModules.Lib.Shares

variable {ι α : Type*}

/-- The shares of different owners do not meet, and `total` is what they make up. -/
structure Split (owners : List ι) (share : ι → Finset α) (total : Finset α) : Prop where
  apart : ∀ i ∈ owners, ∀ j ∈ owners, i ≠ j → Disjoint (share i) (share j)
  whole : ∀ x, x ∈ total ↔ ∃ i ∈ owners, x ∈ share i

variable {owners owners' : List ι} {share share' : ι → Finset α} {total given : Finset α} {i : ι}

theorem Split.subset (h : Split owners share total) (hi : i ∈ owners) : share i ⊆ total :=
  fun x hx => (h.whole x).mpr ⟨i, hi, hx⟩

/-- Owners that have nothing may come and go. -/
theorem Split.exchange (h : Split owners share total)
    (hsame : ∀ i, share i ≠ ∅ → (i ∈ owners ↔ i ∈ owners')) : Split owners' share total := by
  have hhas {i : ι} {x : α} (hx : x ∈ share i) : share i ≠ ∅ :=
    Finset.nonempty_iff_ne_empty.mp ⟨x, hx⟩
  refine ⟨fun i hi j hj hij => ?_, fun x => (h.whole x).trans ?_⟩
  · rw [Finset.disjoint_left]
    intro x hxi hxj
    have hi' := (hsame i (hhas hxi)).mpr hi
    have hj' := (hsame j (hhas hxj)).mpr hj
    exact Finset.disjoint_left.mp (h.apart i hi' j hj' hij) hxi hxj
  · exact exists_congr fun i => and_congr_left fun hx => hsame i (hhas hx)

theorem Split.congr (h : Split owners share total) (hshare : ∀ i ∈ owners, share' i = share i) :
    Split owners share' total := by
  refine ⟨fun i hi j hj hij => ?_, fun x => (h.whole x).trans ?_⟩
  · rw [hshare i hi, hshare j hj]
    exact h.apart i hi j hj hij
  · exact exists_congr fun i => and_congr_right fun hi => by rw [hshare i hi]

variable [DecidableEq ι] [DecidableEq α]

theorem Split.give (h : Split owners share total) (hi : i ∈ owners) (hnew : Disjoint given total) :
    Split owners (Function.update share i (share i ∪ given)) (total ∪ given) := by
  have hother {j : ι} (hj : j ∈ owners) (hij : i ≠ j) :
      Disjoint (share i ∪ given) (share j) :=
    Finset.disjoint_union_left.mpr
      ⟨h.apart i hi j hj hij, Finset.disjoint_of_subset_right (h.subset hj) hnew⟩
  refine ⟨fun j hj k hk hjk => ?_, fun x => ?_⟩
  · by_cases hji : j = i
    · have hki : k ≠ i := fun hki => hjk (hji.trans hki.symm)
      rw [hji, Function.update_self, Function.update_of_ne hki]
      exact hother hk fun hik => hki hik.symm
    · rw [Function.update_of_ne hji]
      by_cases hki : k = i
      · rw [hki, Function.update_self]
        exact (hother hj fun hij => hji hij.symm).symm
      · rw [Function.update_of_ne hki]
        exact h.apart j hj k hk hjk
  · rw [Finset.mem_union, h.whole x]
    constructor
    · rintro (⟨j, hj, hx⟩ | hx)
      · refine ⟨j, hj, ?_⟩
        by_cases hji : j = i
        · rw [hji, Function.update_self]
          exact Finset.mem_union_left given (hji ▸ hx)
        · rw [Function.update_of_ne hji]
          exact hx
      · refine ⟨i, hi, ?_⟩
        rw [Function.update_self]
        exact Finset.mem_union_right (share i) hx
    · rintro ⟨j, hj, hx⟩
      by_cases hji : j = i
      · rw [hji, Function.update_self, Finset.mem_union] at hx
        exact hx.imp_left fun hx => ⟨i, hi, hx⟩
      · rw [Function.update_of_ne hji] at hx
        exact Or.inl ⟨j, hj, hx⟩

theorem Split.giveUp (h : Split owners share total) (hi : i ∈ owners) (hpart : given ⊆ share i) :
    Split owners (Function.update share i (share i \ given)) (total \ given) := by
  have hless (j : ι) : Function.update share i (share i \ given) j ⊆ share j := by
    by_cases hji : j = i
    · rw [hji, Function.update_self]
      exact Finset.sdiff_subset
    · rw [Function.update_of_ne hji]
  refine ⟨fun j hj k hk hjk => ?_, fun x => ?_⟩
  · exact Finset.disjoint_of_subset_left (hless j)
      (Finset.disjoint_of_subset_right (hless k) (h.apart j hj k hk hjk))
  · rw [Finset.mem_sdiff, h.whole x]
    constructor
    · rintro ⟨⟨j, hj, hx⟩, hout⟩
      refine ⟨j, hj, ?_⟩
      by_cases hji : j = i
      · rw [hji, Function.update_self]
        exact Finset.mem_sdiff.mpr ⟨hji ▸ hx, hout⟩
      · rw [Function.update_of_ne hji]
        exact hx
    · rintro ⟨j, hj, hx⟩
      refine ⟨⟨j, hj, hless j hx⟩, fun hgiven => ?_⟩
      by_cases hji : j = i
      · rw [hji, Function.update_self] at hx
        exact (Finset.mem_sdiff.mp hx).2 hgiven
      · exact Finset.disjoint_left.mp (h.apart j hj i hi hji) (hless j hx) (hpart hgiven)

end MediaModules.Lib.Shares
