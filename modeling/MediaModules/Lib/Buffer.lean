import Mathlib.Tactic.Common
import Mathlib.Data.List.TakeDrop

/-!
# Memory blocks with checked copies

A block carries its size in its type, as an array or a fixed-size allocation does.
Reads and writes outside the block are `none`, so a program that is shown to
return a value on every input is shown to stay inside its buffers.
-/
namespace MediaModules.Lib.Buffer

variable {α : Type*} {n : Nat}

/-- A memory block of `n` cells. -/
@[ext] structure Block (α : Type*) (n : Nat) where
  cells : List α
  size_eq : cells.length = n

namespace Block

/-- A block of `n` equal cells, as `memset` leaves it. -/
def fill (n : Nat) (a : α) : Block α n := ⟨List.replicate n a, List.length_replicate⟩

/-- Copy `len` cells out of the block, from `off` on. -/
def read (b : Block α n) (off len : Nat) : Option (List α) :=
  if off + len ≤ n then some ((b.cells.drop off).take len) else none

/-- Copy `src` into the block, from `off` on. -/
def write (b : Block α n) (off : Nat) (src : List α) : Option (Block α n) :=
  if h : off + src.length ≤ n then
    some ⟨b.cells.take off ++ src ++ b.cells.drop (off + src.length), by
      have hs := b.size_eq
      simp only [List.length_append, List.length_take, List.length_drop]
      omega⟩
  else none

/-- A copy of as many cells as `src` has that is skipped when there are none. -/
def copy (b : Block α n) (off : Nat) (src : List α) : Option (Block α n) :=
  if src.length ≠ 0 then b.write off src else some b

theorem read_of_le (b : Block α n) {off len : Nat} (h : off + len ≤ n) :
    b.read off len = some ((b.cells.drop off).take len) := if_pos h

theorem read_zero (b : Block α n) {len : Nat} (h : len ≤ n) :
    b.read 0 len = some (b.cells.take len) := by
  rw [read_of_le b (by omega), List.drop_zero]

theorem write_of_le (b : Block α n) (off : Nat) (src : List α) (h : off + src.length ≤ n) :
    ∃ b' : Block α n, b.write off src = some b' ∧
      b'.cells = b.cells.take off ++ src ++ b.cells.drop (off + src.length) :=
  ⟨_, dif_pos h, rfl⟩

theorem write_bounds {b b' : Block α n} {off : Nat} {src : List α}
    (h : b.write off src = some b') : off + src.length ≤ n := by
  unfold write at h
  split at h
  · assumption
  · cases h

theorem write_cells {b b' : Block α n} {off : Nat} {src : List α}
    (h : b.write off src = some b') :
    b'.cells = b.cells.take off ++ src ++ b.cells.drop (off + src.length) := by
  obtain ⟨b'', h1, h2⟩ := write_of_le b off src (write_bounds h)
  rw [h1] at h
  exact Option.some.inj h ▸ h2

/-- Up to its end, a write shows the old cells and then its source. -/
theorem write_take {b b' : Block α n} {off : Nat} {src : List α}
    (h : b.write off src = some b') :
    b'.cells.take (off + src.length) = b.cells.take off ++ src := by
  have hb := write_bounds h
  have hs := b.size_eq
  have hl : (b.cells.take off ++ src).length = off + src.length := by
    simp only [List.length_append, List.length_take]
    omega
  rw [write_cells h, ← hl]
  exact List.take_left

/-- A write over cells in the middle of a block. -/
theorem write_over {b : Block α n} {front old behind src : List α}
    (hcells : b.cells = front ++ (old ++ behind)) (hlen : old.length = src.length) :
    ∃ b' : Block α n, b.write front.length src = some b' ∧ b'.cells = front ++ (src ++ behind) := by
  have hs := b.size_eq
  rw [hcells] at hs
  simp only [List.length_append] at hs
  obtain ⟨b', hwrite, hcells'⟩ := b.write_of_le front.length src (by omega)
  refine ⟨b', hwrite, ?_⟩
  rw [hcells', hcells, List.take_left, ← List.append_assoc front old, ← hlen, ← List.length_append,
    List.drop_left, List.append_assoc]

/-- A write behind the cells in front, if there is room. -/
theorem write_next {b : Block α n} {front behind : List α} (hcells : b.cells = front ++ behind)
    (src : List α) (h : front.length + src.length ≤ n) :
    ∃ b' : Block α n, b.write front.length src = some b' ∧
      b'.cells = front ++ (src ++ behind.drop src.length) := by
  have hs := b.size_eq
  rw [hcells, List.length_append] at hs
  have hcells' : b.cells = front ++ (behind.take src.length ++ behind.drop src.length) := by
    rw [List.take_append_drop, hcells]
  exact write_over hcells' (by rw [List.length_take]; omega)

theorem write_none (b : Block α n) {off : Nat} {src : List α} (h : ¬ off + src.length ≤ n) :
    b.write off src = none := dif_neg h

theorem write_drop {b b' : Block α n} {off k : Nat} {src : List α}
    (h : b.write off src = some b') (hk : off + src.length ≤ k) :
    b'.cells.drop k = b.cells.drop k := by
  have hb := write_bounds h
  have hs := b.size_eq
  have hl : (b.cells.take off ++ src).length = off + src.length := by
    simp only [List.length_append, List.length_take]
    omega
  obtain ⟨d, rfl⟩ := Nat.exists_eq_add_of_le hk
  rw [write_cells h, ← List.drop_drop, ← hl, List.drop_left, List.drop_drop, hl]

/-- `b'` is `b` with `src` written from `off` on: up to the end of `src` it shows the old
cells and then `src`, behind that it is unchanged. -/
structure Wrote (b : Block α n) (off : Nat) (src : List α) (b' : Block α n) : Prop where
  front : b'.cells.take (off + src.length) = b.cells.take off ++ src
  behind : ∀ k, off + src.length ≤ k → b'.cells.drop k = b.cells.drop k

/-- A copy that fits writes its source. -/
theorem copy_of_le (b : Block α n) (off : Nat) (src : List α) (h : off + src.length ≤ n) :
    ∃ b' : Block α n, b.copy off src = some b' ∧ b.Wrote off src b' := by
  unfold copy
  by_cases h0 : src.length = 0
  · obtain rfl := List.length_eq_zero_iff.mp h0
    exact ⟨b, if_neg (by simp), by simp, fun _ _ => rfl⟩
  · obtain ⟨b', hw, -⟩ := b.write_of_le off src h
    exact ⟨b', by rw [if_pos h0, hw], write_take hw, fun k hk => write_drop hw hk⟩

namespace Wrote

variable {b b' b'' : Block α n} {off : Nat} {src src' : List α}

/-- Cells before the written range keep their value. -/
theorem take_of_le (h : b.Wrote off src b') (hoff : off ≤ n) {k : Nat} (hk : k ≤ off) :
    b'.cells.take k = b.cells.take k := by
  have ht := congrArg (List.take k) h.front
  have hs := b.size_eq
  rw [List.take_take, Nat.min_eq_left (by omega)] at ht
  rw [ht, List.take_append_of_le_length (by rw [List.length_take]; omega), List.take_take,
    Nat.min_eq_left hk]

/-- Two writes one behind the other are one. -/
theorem append (h : b.Wrote off src b') (h' : b'.Wrote (off + src.length) src' b'') :
    b.Wrote off (src ++ src') b'' := by
  constructor
  · rw [List.length_append, ← Nat.add_assoc, h'.front, h.front, List.append_assoc]
  · intro k hk
    rw [List.length_append, ← Nat.add_assoc] at hk
    rw [h'.behind k hk, h.behind k (by omega)]

end Wrote

end Block

end MediaModules.Lib.Buffer
