import Mathlib.Data.Finset.Card
import Mathlib.Data.Finset.SDiff
import Mathlib.Data.Finset.Range

/-!
# Words as sets

A machine word as the set of its bits. The bitwise operations are the operations on sets.
-/
namespace MediaModules.Lib.Bits

variable {w : Nat}

/-- The bits of a word. -/
def bits (b : BitVec w) : Finset Nat := (Finset.range w).filter fun k => b.getLsbD k = true

variable (a b : BitVec w) {k : Nat}

@[simp] theorem mem_bits : k ∈ bits b ↔ b.getLsbD k = true := by
  unfold bits
  rw [Finset.mem_filter, Finset.mem_range, and_iff_right_iff_imp]
  exact BitVec.lt_of_getLsbD

theorem bits_injective : Function.Injective (bits (w := w)) := by
  intro a b h
  refine BitVec.eq_of_getLsbD_eq fun k _ => Bool.eq_iff_iff.mpr ?_
  rw [← mem_bits, ← mem_bits, h]

@[simp] theorem bits_zero : bits (0#w) = ∅ := by
  ext k
  simp

theorem bits_eq_empty : bits b = ∅ ↔ b = 0#w := by
  rw [← bits_zero, bits_injective.eq_iff]

theorem bits_or : bits (a ||| b) = bits a ∪ bits b := by
  ext k
  simp

theorem bits_and : bits (a &&& b) = bits a ∩ bits b := by
  ext k
  simp

theorem bits_and_not : bits (a &&& ~~~b) = bits a \ bits b := by
  ext k
  rw [mem_bits, Finset.mem_sdiff, mem_bits, mem_bits, BitVec.getLsbD_and, BitVec.getLsbD_not,
    Bool.and_eq_true, Bool.and_eq_true, Bool.not_eq_true', Bool.not_eq_true]
  refine and_congr_right fun hk => and_iff_right ?_
  exact decide_eq_true (BitVec.lt_of_getLsbD hk)

theorem getLsbD_shift {j : Nat} (hk : k < w) : (1#w <<< k).getLsbD j = decide (j = k) := by
  have htwo : (1#w <<< k).getLsbD j = (BitVec.twoPow w k).getLsbD j := rfl
  rw [htwo, BitVec.getLsbD_twoPow, decide_eq_true hk, Bool.true_and]
  exact decide_eq_decide.mpr eq_comm

theorem bits_shift (hk : k < w) : bits (1#w <<< k) = {k} := by
  ext j
  rw [mem_bits, getLsbD_shift hk, decide_eq_true_eq, Finset.mem_singleton]

/-- The bits left when one is cleared. -/
theorem getLsbD_clear {j : Nat} (hk : k < w) :
    (b &&& ~~~(1#w <<< k)).getLsbD j = (b.getLsbD j && !decide (j = k)) := by
  have hmem := congrArg (fun s => j ∈ s) (bits_and_not b (1#w <<< k))
  rw [bits_shift hk, Finset.mem_sdiff, mem_bits, mem_bits, Finset.mem_singleton] at hmem
  rw [Bool.eq_iff_iff, Bool.and_eq_true, Bool.not_eq_true', decide_eq_false_iff_not]
  exact iff_of_eq hmem

theorem disjoint_iff : Disjoint (bits a) (bits b) ↔ a &&& b = 0#w := by
  rw [Finset.disjoint_iff_inter_eq_empty, ← bits_and, bits_eq_empty]

theorem mem_bits_foldr {ι : Type*} (f : ι → BitVec w) (is : List ι) :
    k ∈ bits (is.foldr (fun i b => f i ||| b) 0#w) ↔ ∃ i ∈ is, k ∈ bits (f i) := by
  induction is with
  | nil => simp
  | cons i is ih => simp [bits_or, ih]

theorem and_eq_right : a &&& b = b ↔ bits b ⊆ bits a := by
  rw [← bits_injective.eq_iff, bits_and, Finset.inter_eq_right]

/-- Testing one bit. -/
theorem and_shift_eq_zero (hk : k < w) : b &&& 1#w <<< k = 0#w ↔ b.getLsbD k = false := by
  rw [← disjoint_iff, bits_shift hk, Finset.disjoint_singleton_right, mem_bits,
    Bool.not_eq_true]

/-- Setting a bit that was clear. -/
theorem card_bits_set (hk : k < w) (h : b.getLsbD k = false) :
    (bits (b ||| 1#w <<< k)).card = (bits b).card + 1 := by
  rw [bits_or, bits_shift hk, Finset.union_comm, ← Finset.insert_eq, Finset.card_insert_of_notMem]
  simp [h]

theorem card_bits_clear (hk : k < w) (h : b.getLsbD k = true) :
    (bits (b &&& ~~~(1#w <<< k))).card + 1 = (bits b).card := by
  rw [bits_and_not, bits_shift hk, Finset.sdiff_singleton_eq_erase]
  exact Finset.card_erase_add_one ((mem_bits b).mpr h)

end MediaModules.Lib.Bits
