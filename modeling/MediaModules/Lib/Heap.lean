import MediaModules.Lib.Memory

/-!
# A heap of allocations

Every allocation is a byte block of its own, and a place is an offset from the start of one of them.
A place may also name no allocation at all; nothing can be read or written there. What is stored at
one place leaves the memory of the places apart from it as it was.
-/
namespace MediaModules.Lib

/-- The bytes of each allocation, in the order of the allocations; `none` after its release. -/
abbrev Heap := List (Option (List UInt8))

/-- A byte of an allocation. -/
structure Place where
  base : Option Nat
  off : Int
deriving DecidableEq, Repr

namespace Heap

open Memory

variable (h : Heap)

/-- The allocation a place lies in. -/
def bytesAt (p : Place) : Option (List UInt8) := p.base.bind fun id => h[id]?.join

/-- A new allocation of `n` bytes. -/
def alloc (n : Nat) : Heap := h ++ [some (List.replicate n 0)]

def release (base : Option Nat) : Heap :=
  match base with
  | some id => h.set id none
  | none => h

/-- `len` bytes, `off` behind the place. -/
def load (p : Place) (off : Int) (len : Nat) : Option (List UInt8) :=
  (h.bytesAt p).bind fun b => Memory.read b (p.off + off) len

def store (p : Place) (src : List UInt8) : Option Heap :=
  p.base.bind fun id => h[id]?.join.bind fun b =>
    (Memory.write b p.off src).map fun b' => h.set id (some b')

/-- The `size` bytes from the place on are allocated. -/
def Owned (p : Place) (size : Nat) : Prop := ∃ b, h.bytesAt p = some b ∧ Inside b p.off size

end Heap

/-- The `n` bytes from `p` on and the `m` bytes from `q` on have none in common. -/
def Place.Apart (p : Place) (n : Nat) (q : Place) (m : Nat) : Prop :=
  p.base ≠ q.base ∨ p.off + n ≤ q.off ∨ q.off + m ≤ p.off

theorem Place.Apart.symm {p q : Place} {n m : Nat} (hpq : p.Apart n q m) : q.Apart m p n := by
  rcases hpq with hbase | hleft | hright
  · exact .inl hbase.symm
  · exact .inr (.inr hleft)
  · exact .inr (.inl hright)

namespace Heap

open Memory

variable {h h' : Heap} {p q : Place} {src : List UInt8} {n m len : Nat} {off : Int}

theorem bytesAt_eq_some {b : List UInt8} :
    h.bytesAt p = some b ↔ ∃ id, p.base = some id ∧ h[id]? = some (some b) := by
  simp only [bytesAt, Option.bind_eq_some_iff, Option.join_eq_some_iff]

theorem store_eq_some : h.store p src = some h' ↔
    ∃ id b b', p.base = some id ∧ h[id]? = some (some b) ∧ Memory.write b p.off src = some b' ∧
      h' = h.set id (some b') := by
  simp only [store, Option.bind_eq_some_iff, Option.join_eq_some_iff, Option.map_eq_some_iff]
  constructor
  · rintro ⟨id, hid, b, hb, b', hb', rfl⟩
    exact ⟨id, b, b', hid, hb, hb', rfl⟩
  · rintro ⟨id, b, b', hid, hb, hb', rfl⟩
    exact ⟨id, hid, b, hb, b', hb', rfl⟩

theorem load_eq_some {bytes : List UInt8} : h.load p off len = some bytes ↔
    ∃ b, h.bytesAt p = some b ∧ Inside b (p.off + off) len ∧ slice b (p.off + off) len = bytes := by
  simp only [load, Option.bind_eq_some_iff, read_eq_some]

/-- Owned memory can be written. -/
theorem store_some (hown : h.Owned p n) (hlen : src.length ≤ n) :
    ∃ h', h.store p src = some h' := by
  obtain ⟨b, hb, hin⟩ := hown
  obtain ⟨id, hid, hget⟩ := bytesAt_eq_some.mp hb
  have hsrc : Inside b p.off src.length := hin.mono le_rfl (by omega)
  obtain ⟨b', hb'⟩ := write_some src hsrc
  exact ⟨_, store_eq_some.mpr ⟨id, b, b', hid, hget, hb', rfl⟩⟩

/-- Owned memory can be read. -/
theorem load_some (hown : h.Owned p n) (hoff : 0 ≤ off) (hend : off + len ≤ n) :
    ∃ bytes, h.load p off len = some bytes ∧ bytes.length = len := by
  obtain ⟨b, hb, hin⟩ := hown
  have hsub : Inside b (p.off + off) len := hin.mono (by omega) (by omega)
  exact ⟨_, load_eq_some.mpr ⟨b, hb, hsub, rfl⟩, slice_length hsub⟩

theorem Owned.store (hown : h.Owned q m) (hs : h.store p src = some h') : h'.Owned q m := by
  obtain ⟨id, b, b', hid, hget, hwrite, rfl⟩ := store_eq_some.mp hs
  obtain ⟨c, hc, hin⟩ := hown
  obtain ⟨idq, hidq, hgetq⟩ := bytesAt_eq_some.mp hc
  obtain ⟨hlt, -⟩ := List.getElem?_eq_some_iff.mp hget
  by_cases hsame : idq = id
  · rw [hsame, hget] at hgetq
    obtain rfl := Option.some.inj (Option.some.inj hgetq)
    refine ⟨b', bytesAt_eq_some.mpr ⟨id, hsame ▸ hidq, by rw [List.getElem?_set_self hlt]⟩, ?_⟩
    exact ⟨hin.1, by rw [(write_length hwrite).2]; exact hin.2⟩
  · refine ⟨c, bytesAt_eq_some.mpr ⟨idq, hidq, ?_⟩, hin⟩
    rw [List.getElem?_set_ne (Ne.symm hsame)]
    exact hgetq

theorem load_store (hs : h.store p src = some h') : h'.load p 0 src.length = some src := by
  obtain ⟨id, b, b', hid, hget, hwrite, rfl⟩ := store_eq_some.mp hs
  obtain ⟨hlt, -⟩ := List.getElem?_eq_some_iff.mp hget
  have hbytes : Heap.bytesAt (h.set id (some b')) p = some b' :=
    bytesAt_eq_some.mpr ⟨id, hid, by rw [List.getElem?_set_self hlt]⟩
  obtain ⟨hin, hlen⟩ := write_length hwrite
  refine load_eq_some.mpr ⟨b', hbytes, ?_, ?_⟩
  · rw [Int.add_zero]
    exact ⟨hin.1, by rw [hlen]; exact hin.2⟩
  · rw [Int.add_zero]
    exact slice_write hwrite

theorem load_store_apart (hs : h.store p src = some h') (hpq : p.Apart n q m)
    (hsrc : src.length ≤ n) (hoff : 0 ≤ off) (hend : off + len ≤ m) :
    h'.load q off len = h.load q off len := by
  obtain ⟨id, b, b', hid, hget, hwrite, rfl⟩ := store_eq_some.mp hs
  obtain ⟨hlt, -⟩ := List.getElem?_eq_some_iff.mp hget
  by_cases hsame : q.base = some id
  · have hq : h.bytesAt q = some b := bytesAt_eq_some.mpr ⟨id, hsame, hget⟩
    have hq' : Heap.bytesAt (h.set id (some b')) q = some b' :=
      bytesAt_eq_some.mpr ⟨id, hsame, by rw [List.getElem?_set_self hlt]⟩
    rw [load, load, hq, hq']
    apply read_write_apart hwrite
    rcases hpq with hbase | hleft | hright
    · exact absurd (hid.trans hsame.symm) hbase
    · exact .inl (by omega)
    · exact .inr (by omega)
  · have hq : Heap.bytesAt (h.set id (some b')) q = h.bytesAt q := by
      rw [bytesAt, bytesAt]
      cases hbase : q.base with
      | none => rfl
      | some idq =>
        have hne : id ≠ idq := fun he => hsame (by rw [hbase, he])
        rw [Option.bind_some, Option.bind_some, List.getElem?_set_ne hne]
    rw [load, load, hq]

/-- A read taken apart. -/
theorem load_split {bytes : List UInt8} {k : Nat} (hl : h.load p off (k + len) = some bytes) :
    h.load p off k = some (bytes.take k) ∧ h.load p (off + k) len = some (bytes.drop k) := by
  obtain ⟨b, hb, hin, rfl⟩ := load_eq_some.mp hl
  have hoff := hin.1
  refine ⟨load_eq_some.mpr ⟨b, hb, hin.mono le_rfl (by omega), ?_⟩,
    load_eq_some.mpr ⟨b, hb, hin.mono (by omega) (by omega), ?_⟩⟩
  · rw [slice, slice, List.take_take, Nat.min_eq_left (by omega)]
  · have hnat : (p.off + (off + k)).toNat = (p.off + off).toNat + k := by omega
    rw [slice, slice, hnat, List.drop_take, List.drop_drop]
    congr 1
    omega

/-- A new allocation keeps what is there. -/
theorem bytesAt_alloc {b : List UInt8} (hb : h.bytesAt p = some b) :
    (h.alloc n).bytesAt p = some b := by
  obtain ⟨id, hid, hget⟩ := bytesAt_eq_some.mp hb
  obtain ⟨hlt, -⟩ := List.getElem?_eq_some_iff.mp hget
  exact bytesAt_eq_some.mpr ⟨id, hid, by rw [alloc, List.getElem?_append_left hlt]; exact hget⟩

theorem Owned.alloc (hown : h.Owned p m) : (h.alloc n).Owned p m := by
  obtain ⟨b, hb, hin⟩ := hown
  exact ⟨b, bytesAt_alloc hb, hin⟩

theorem load_alloc {bytes : List UInt8} (hl : h.load p off len = some bytes) :
    (h.alloc n).load p off len = some bytes := by
  obtain ⟨b, hb, hin⟩ := load_eq_some.mp hl
  exact load_eq_some.mpr ⟨b, bytesAt_alloc hb, hin⟩

/-- An allocation of its own: no place owned before lies in it. -/
theorem Owned.fresh (hown : h.Owned p m) : p.base ≠ some h.length := by
  obtain ⟨b, hb, -⟩ := hown
  obtain ⟨id, hid, hget⟩ := bytesAt_eq_some.mp hb
  obtain ⟨hlt, -⟩ := List.getElem?_eq_some_iff.mp hget
  intro he
  have hids : id = h.length := Option.some.inj (hid.symm.trans he)
  omega

theorem bytesAt_new (off : Int) :
    (h.alloc n).bytesAt ⟨some h.length, off⟩ = some (List.replicate n 0) :=
  bytesAt_eq_some.mpr ⟨h.length, rfl, by rw [alloc, List.getElem?_concat_length]⟩

theorem owned_new (hoff : 0 ≤ off) (hend : off + len ≤ n) :
    (h.alloc n).Owned ⟨some h.length, off⟩ len :=
  ⟨_, bytesAt_new off, hoff, by rw [List.length_replicate]; exact hend⟩

theorem not_owned_release {id : Nat} (hid : p.base = some id) : ¬ (h.release (some id)).Owned p m := by
  rintro ⟨b, hb, -⟩
  obtain ⟨id', hid', hget⟩ := bytesAt_eq_some.mp hb
  have hids : id' = id := Option.some.inj (hid'.symm.trans hid)
  rw [hids, release, List.getElem?_set_self' ] at hget
  cases hc : h[id]? with
  | none => rw [hc] at hget; cases hget
  | some c => rw [hc] at hget; cases hget

theorem Owned.of_release {base : Option Nat} (hown : (h.release base).Owned p m) : h.Owned p m := by
  obtain ⟨b, hb, hin⟩ := hown
  obtain ⟨id, hid, hget⟩ := bytesAt_eq_some.mp hb
  refine ⟨b, bytesAt_eq_some.mpr ⟨id, hid, ?_⟩, hin⟩
  cases base with
  | none => exact hget
  | some id' =>
    have hne : id' ≠ id := by
      rintro rfl
      exact not_owned_release hid ⟨b, hb, hin⟩
    rwa [release, List.getElem?_set_ne hne] at hget

end Heap

end MediaModules.Lib
