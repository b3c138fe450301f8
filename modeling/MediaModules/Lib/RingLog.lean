import Mathlib.Data.List.Basic
import Mathlib.Data.List.TakeDrop
import Mathlib.Logic.Function.Basic
import Mathlib.Tactic.Common

/-!
# A log in a ring

A log grows without end. A ring of `n` cells shows its last `n` entries, entry `i` in cell `i % n`. A
reader copies blocks of the log out of the ring; it may skip entries, and never goes back.
-/
namespace MediaModules.Lib.RingLog

variable {α : Type*} {n : Nat} {cells : Nat → α} {log : List α}

/-- The ring shows the last `n` entries of the log. -/
def Shows (n : Nat) (cells : Nat → α) (log : List α) : Prop :=
  ∀ (i : Nat) (hi : i < log.length), log.length ≤ i + n → cells (i % n) = log[i]

theorem shows_nil : Shows n cells [] := fun _ hi => absurd hi (Nat.not_lt_zero _)

/-- A new entry takes the cell of the oldest one. -/
theorem Shows.push (h : Shows n cells log) (x : α) :
    Shows n (Function.update cells (log.length % n) x) (log ++ [x]) := by
  intro i hi hfresh
  rw [List.length_append, List.length_singleton] at hi hfresh
  rcases Nat.lt_succ_iff_lt_or_eq.mp hi with hold | rfl
  · have hcell : i % n ≠ log.length % n := by
      intro heq
      have hdist : (log.length - i) % n = 0 := Nat.sub_mod_eq_zero_of_mod_eq heq.symm
      have hlt : log.length - i < n := by omega
      rw [Nat.mod_eq_of_lt hlt] at hdist
      omega
    rw [Function.update_of_ne hcell, h i hold (by omega), List.getElem_append_left hold]
  · rw [Function.update_self, List.getElem_append_right (Nat.le_refl _)]
    simp

/-- `len` cells from `pos` on. -/
def block (cells : Nat → α) (pos len : Nat) : List α := (List.range len).map fun k => cells (pos + k)

/-- The same round the end of the ring. -/
def around (n : Nat) (cells : Nat → α) (pos len : Nat) : List α :=
  (List.range len).map fun k => cells ((pos + k) % n)

@[simp] theorem around_length (n : Nat) (cells : Nat → α) (pos len : Nat) :
    (around n cells pos len).length = len := by
  simp [around]

/-- Before the end of the ring it is one block. -/
theorem around_eq_block {pos len : Nat} (h : pos % n + len ≤ n) :
    around n cells pos len = block cells (pos % n) len := by
  refine List.map_congr_left fun k hk => ?_
  have hk := List.mem_range.mp hk
  rw [← Nat.mod_add_mod, Nat.mod_eq_of_lt (by omega)]

/-- Behind it, it is two. -/
theorem around_eq_blocks {pos len : Nat} (hn : 0 < n) (hlen : len ≤ n) (h : n < pos % n + len) :
    around n cells pos len =
      block cells (pos % n) (n - pos % n) ++ block cells 0 (pos % n + len - n) := by
  have hpos : pos % n < n := Nat.mod_lt pos hn
  have hsplit : len = n - pos % n + (pos % n + len - n) := by omega
  have hrange : List.range len = List.range (n - pos % n) ++
      (List.range (pos % n + len - n)).map fun k => n - pos % n + k := by
    rw [← List.range_add, ← hsplit]
  rw [around, hrange, List.map_append, List.map_map, block, block]
  congr 1
  · refine List.map_congr_left fun k hk => ?_
    have hk := List.mem_range.mp hk
    rw [← Nat.mod_add_mod, Nat.mod_eq_of_lt (by omega)]
  · refine List.map_congr_left fun k hk => ?_
    have hk := List.mem_range.mp hk
    have hcell : pos % n + (n - pos % n + k) = n + k := by omega
    rw [Function.comp_apply, ← Nat.mod_add_mod, hcell, Nat.add_mod_left,
      Nat.mod_eq_of_lt (by omega), Nat.zero_add]

/-- A block of entries that are all still in the ring. -/
theorem Shows.around_eq (h : Shows n cells log) {start len : Nat} (hend : start + len ≤ log.length)
    (hfresh : log.length ≤ start + n) : around n cells start len = (log.drop start).take len := by
  apply List.ext_getElem
  · rw [around_length, List.length_take, List.length_drop]
    omega
  · intro k hk _
    rw [around_length] at hk
    rw [List.getElem_take, List.getElem_drop]
    simp only [around, List.getElem_map, List.getElem_range]
    exact h (start + k) (by omega) (by omega)

/-! ## A reader -/

/-- The blocks that a reader took, each with the length of the log at that time, and the number of the
entry after the last one. A block starts at the entry after the one before it, or further on if at
least `skip` entries were waiting; all of its entries were still in the ring. -/
inductive Served (n skip : Nat) (log : List α) : List (Nat × List α) → Nat → Prop
  | init : Served n skip log [] 0
  | read {reads : List (Nat × List α)} {next start len count : Nat}
      (before : Served n skip log reads next) (next_le : next ≤ start) (len_le : start + len ≤ count)
      (count_le : count ≤ log.length) (fresh : count ≤ start + n)
      (skips : start ≠ next → skip ≤ count - next) :
      Served n skip log (reads ++ [(count, (log.drop start).take len)]) (start + len)

variable {skip next : Nat} {reads : List (Nat × List α)}

theorem Served.next_le_length (h : Served n skip log reads next) : next ≤ log.length := by
  cases h with
  | init => exact Nat.zero_le _
  | read _ _ hlen hcount => exact Nat.le_trans hlen hcount

/-- What is behind the blocks does not matter to them. -/
theorem Served.push (h : Served n skip log reads next) (x : α) :
    Served n skip (log ++ [x]) reads next := by
  induction h with
  | init => exact .init
  | @read reads next start len count _ hnext hlen hcount hfresh hskips ih =>
    have hle : count ≤ (log ++ [x]).length := by
      rw [List.length_append]
      omega
    have hsame : ((log ++ [x]).drop start).take len = (log.drop start).take len := by
      rw [List.drop_append_of_le_length (by omega),
        List.take_append_of_le_length (by rw [List.length_drop]; omega)]
    rw [← hsame]
    exact .read ih hnext hlen hle hfresh hskips

/-- The entries read are entries of the log, in its order and each at most once. -/
theorem Served.sublist (h : Served n skip log reads next) :
    (reads.flatMap Prod.snd).Sublist (log.take next) := by
  induction h with
  | init => exact List.nil_sublist _
  | @read reads next start len count _ hnext hlen hcount hfresh hskips ih =>
    have hsplit : log.take (start + len) = log.take start ++ (log.drop start).take len :=
      List.take_add
    have hbefore : (log.take next).Sublist (log.take start) :=
      (List.take_prefix_take_left hnext).sublist
    rw [List.flatMap_append, List.flatMap_singleton, hsplit]
    exact (ih.trans hbefore).append (List.Sublist.refl _)

end MediaModules.Lib.RingLog
