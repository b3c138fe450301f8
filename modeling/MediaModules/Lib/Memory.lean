import Mathlib.Algebra.Order.Ring.Int
import Mathlib.Tactic.Common

/-!
# Byte blocks read through computed pointers

A pointer into a block is a signed offset from its start: pointer arithmetic on untrusted lengths may
take it behind the block or before it. Reads and writes are `none` outside, and the rules say when
they are not.
-/
namespace MediaModules.Lib.Memory

variable (b : List UInt8) (off : Int) (len : Nat)

/-- The bytes from `off` on, `len` of them, belong to the block. -/
def Inside : Prop := 0 ≤ off ∧ off + len ≤ b.length

instance : Decidable (Inside b off len) := inferInstanceAs (Decidable (_ ∧ _))

/-- These bytes, when they belong to the block. -/
def slice : List UInt8 := (b.drop off.toNat).take len

def read : Option (List UInt8) := if Inside b off len then some (slice b off len) else none

/-- A loop over `len` bytes: none of them is read when there are none. -/
def readAll : Option (List UInt8) := if len = 0 then some [] else read b off len

/-- `memcpy` into the block. -/
def write (src : List UInt8) : Option (List UInt8) :=
  if Inside b off src.length then
    some (b.take off.toNat ++ src ++ b.drop (off.toNat + src.length))
  else none

/-- The `int` in four little-endian bytes. -/
def intOf : List UInt8 → Int
  | [x0, x1, x2, x3] =>
    ((x0.toNat + 256 * x1.toNat + 65536 * x2.toNat + 16777216 * x3.toNat : Int) + 2147483648)
      % 4294967296 - 2147483648
  | _ => 0

/-- The `int` at `off`. -/
def intAt : Int := intOf (slice b off 4)

def readInt : Option Int := if Inside b off 4 then some (intAt b off) else none

/-- A string that starts at `off` ends in the block. -/
def Terminated : Prop := 0 ≤ off ∧ 0 ∈ b.drop off.toNat

instance : Decidable (Terminated b off) := inferInstanceAs (Decidable (_ ∧ _))

/-- The string at `off`. -/
def stringAt : List UInt8 := (b.drop off.toNat).takeWhile (· ≠ 0)

def readString : Option (List UInt8) := if Terminated b off then some (stringAt b off) else none

/-- `strcmp` with a constant: it reads up to the first difference or the end of both. -/
def sameString (b : List UInt8) (off : Int) : List UInt8 → Option Bool
  | [] => (read b off 1).map (· = [0])
  | x :: xs => do
    let c ← read b off 1
    if c = [x] then sameString b (off + 1) xs else return false

variable {b off len}

theorem intAt_bounds (b : List UInt8) (off : Int) :
    -2147483648 ≤ intAt b off ∧ intAt b off < 2147483648 := by
  simp only [intAt]
  generalize slice b off 4 = bytes
  unfold intOf
  split <;> omega

theorem Inside.mono (h : Inside b off len) {off' : Int} {len' : Nat} (hoff : off ≤ off')
    (hend : off' + len' ≤ off + len) : Inside b off' len' :=
  ⟨h.1.trans hoff, hend.trans h.2⟩

theorem inside_of_length {n : Nat} (hlen : n ≤ b.length) (hoff : 0 ≤ off) (hend : off + len ≤ n) :
    Inside b off len :=
  ⟨hoff, hend.trans (by exact_mod_cast hlen)⟩

theorem slice_length (h : Inside b off len) : (slice b off len).length = len := by
  obtain ⟨h1, h2⟩ := h
  simp only [slice, List.length_take, List.length_drop]
  omega

theorem read_eq_some {r : List UInt8} :
    read b off len = some r ↔ Inside b off len ∧ slice b off len = r := by
  simp only [read]
  split <;> simp_all

theorem readInt_eq_some {r : Int} : readInt b off = some r ↔ Inside b off 4 ∧ intAt b off = r := by
  simp only [readInt]
  split <;> simp_all

theorem readString_eq_some {r : List UInt8} :
    readString b off = some r ↔ Terminated b off ∧ stringAt b off = r := by
  simp only [readString]
  split <;> simp_all

theorem read_some (h : Inside b off len) : read b off len = some (slice b off len) := if_pos h

theorem readAll_defined : (∃ r, readAll b off len = some r) ↔ (len ≠ 0 → Inside b off len) := by
  simp only [readAll]
  split
  · rename_i hzero
    exact ⟨fun _ hne => absurd hzero hne, fun _ => ⟨[], rfl⟩⟩
  · rename_i hne
    simp [read_eq_some, hne]

theorem readInt_some (h : Inside b off 4) : readInt b off = some (intAt b off) := if_pos h

theorem write_length {src b' : List UInt8} (h : write b off src = some b') :
    Inside b off src.length ∧ b'.length = b.length := by
  simp only [write] at h
  split at h
  · rename_i hin
    obtain rfl := Option.some.inj h
    obtain ⟨h1, h2⟩ := hin
    refine ⟨⟨h1, h2⟩, ?_⟩
    simp only [List.length_append, List.length_take, List.length_drop]
    omega
  · cases h

/-- What was written is read back. -/
theorem slice_write {src b' : List UInt8} (h : write b off src = some b') :
    slice b' off src.length = src := by
  simp only [write] at h
  split at h
  · rename_i hin
    obtain rfl := Option.some.inj h
    have htake : (b.take off.toNat).length = off.toNat := by
      obtain ⟨h1, h2⟩ := hin
      rw [List.length_take]
      omega
    rw [slice, List.append_assoc, List.drop_left' htake, List.take_left' rfl]
  · cases h

theorem read_write_apart {src b' : List UInt8} {off' : Int} {len' : Nat}
    (h : write b off src = some b')
    (hapart : off + src.length ≤ off' ∨ off' + len' ≤ off) :
    read b' off' len' = read b off' len' := by
  obtain ⟨hin, hlen⟩ := write_length h
  simp only [write, if_pos hin] at h
  obtain rfl := Option.some.inj h
  have hsame : Inside (b.take off.toNat ++ src ++ b.drop (off.toNat + src.length)) off' len' ↔
      Inside b off' len' := by
    simp only [Inside, hlen]
  rw [read, read, if_congr hsame rfl rfl]
  by_cases hinside : Inside b off' len'
  · rw [if_pos hinside, if_pos hinside]
    obtain ⟨h1, h2⟩ := hin
    obtain ⟨h3, h4⟩ := hinside
    refine congrArg some (List.ext_getElem? fun k => ?_)
    simp only [slice, List.getElem?_take, List.getElem?_drop]
    split
    · rw [List.append_assoc, List.getElem?_append]
      simp only [List.length_take, List.getElem?_append, List.getElem?_take, List.getElem?_drop]
      rcases hapart with hbehind | hbefore
      · rw [if_neg (by omega), if_neg (by omega)]
        congr 1
        omega
      · rw [if_pos (by omega), if_pos (by omega)]
    · rfl
  · rw [if_neg hinside, if_neg hinside]

theorem read_write_inside {src b' : List UInt8} {off' : Int} {len' : Nat}
    (h : write b off src = some b') (hstart : off ≤ off') (hend : off' + len' ≤ off + src.length) :
    read b' off' len' = read src (off' - off) len' := by
  obtain ⟨hin, hlen⟩ := write_length h
  have hsrc := slice_write h
  obtain ⟨h1, h2⟩ := hin
  have hinside : Inside b' off' len' := ⟨h1.trans hstart, by omega⟩
  have hinsrc : Inside src (off' - off) len' := ⟨by omega, by omega⟩
  rw [read_some hinside, read_some hinsrc]
  refine congrArg some ?_
  conv_rhs => rw [← hsrc]
  simp only [slice, List.drop_take, List.drop_drop, List.take_take]
  congr 1
  · omega
  · congr 1
    omega

/-- A read of a part that was copied out. -/
theorem read_slice {len' : Nat} {off' : Int} (h : Inside b off len) (hstart : 0 ≤ off')
    (hend : off' + len' ≤ len) : read (slice b off len) off' len' = read b (off + off') len' := by
  have hlen := slice_length h
  obtain ⟨h1, h2⟩ := h
  have hinside : Inside b (off + off') len' := ⟨by omega, by omega⟩
  have hinslice : Inside (slice b off len) off' len' := ⟨hstart, by omega⟩
  rw [read_some hinside, read_some hinslice]
  simp only [slice, List.drop_take, List.drop_drop, List.take_take]
  congr 2
  · omega
  · congr 1
    omega

/-- A comparison with a constant looks at no more than the constant and the end of it. -/
theorem sameString_congr {b' : List UInt8} (s : List UInt8)
    (h : ∀ o, off ≤ o → o ≤ off + s.length → read b o 1 = read b' o 1) :
    sameString b off s = sameString b' off s := by
  induction s generalizing off with
  | nil => rw [sameString, sameString, h off le_rfl (by simp)]
  | cons x xs ih =>
    have hrest : sameString b (off + 1) xs = sameString b' (off + 1) xs :=
      ih fun o hstart hend => h o (by omega) (by rw [List.length_cons]; omega)
    rw [sameString, sameString, h off le_rfl (by omega), hrest]

theorem write_some (src : List UInt8) (h : Inside b off src.length) :
    ∃ b', write b off src = some b' := ⟨_, if_pos h⟩

/-- A comparison with a constant stays inside when the whole of the constant would. -/
theorem sameString_some (s : List UInt8) (h : Inside b off (s.length + 1)) :
    ∃ r, sameString b off s = some r := by
  induction s generalizing off with
  | nil =>
    have hone : Inside b off 1 := h
    exact ⟨_, by rw [sameString, read_some hone]; rfl⟩
  | cons x xs ih =>
    have hone : Inside b off 1 := h.mono le_rfl (by simp only [List.length_cons]; omega)
    have hrest : Inside b (off + 1) (xs.length + 1) :=
      h.mono (by omega) (by simp only [List.length_cons]; omega)
    simp only [sameString, read_some hone, Option.bind_eq_bind, Option.bind_some]
    split
    · exact ih hrest
    · exact ⟨false, rfl⟩

end MediaModules.Lib.Memory
