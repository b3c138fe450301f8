import Mathlib.Data.List.Range
import Mathlib.Data.Nat.ModEq
import Mathlib.Tactic.Common

/-!
# Queues in a ring of memory cells

A queue kept in `n` cells of a memory, from a read position on and round the end. The rules say
what reading and writing do to the queue: a write just behind it that meets neither the end of the
ring nor the queue's first cell appends, a moved read position drops.
-/
namespace MediaModules.Lib.Ring

variable {α : Type*}

/-- The `len` cells from `pos` on, in the ring of `n` cells at `base`. -/
def content (mem : Int → α) (base : Int) (n pos len : Nat) : List α :=
  (List.range len).map fun k => mem (base + ((pos + k) % n : Nat))

/-- The memory with `xs` written from `addr` on. -/
def put (mem : Int → α) (addr : Int) (xs : List α) : Int → α := fun i =>
  if addr ≤ i then (xs[(i - addr).toNat]?).getD (mem i) else mem i

variable (mem : Int → α) (base addr : Int) (n pos len : Nat) (xs : List α)

@[simp] theorem content_length : (content mem base n pos len).length = len := by
  simp [content]

theorem content_add (m : Nat) : content mem base n pos (len + m) =
    content mem base n pos len ++ content mem base n (pos + len) m := by
  simp [content, List.range_add, Nat.add_assoc, Function.comp_def]

theorem content_mod : content mem base n (pos % n) len = content mem base n pos len := by
  simp [content, Nat.mod_add_mod]

theorem content_drop {k : Nat} (hk : k ≤ len) :
    (content mem base n pos len).drop k = content mem base n (pos + k) (len - k) := by
  obtain ⟨m, rfl⟩ := Nat.exists_eq_add_of_le hk
  rw [content_add, List.drop_left' (content_length ..), Nat.add_sub_cancel_left]

theorem put_of_lt {i : Int} (h : i < addr) : put mem addr xs i = mem i := if_neg (by omega)

theorem put_of_ge {i : Int} (h : addr + xs.length ≤ i) : put mem addr xs i = mem i := by
  have hnone : xs[(i - addr).toNat]? = none := List.getElem?_eq_none (by omega)
  simp [put, hnone]

theorem put_nil : put mem addr [] = mem := by
  funext i
  simp [put]

/-- Inside the written range the memory shows what was written. -/
theorem put_get {k : Nat} (h : k < xs.length) : put mem addr xs (addr + k) = xs[k] := by
  have hsub : (addr + k - addr).toNat = k := by omega
  simp only [put, if_pos (show addr ≤ addr + k by omega), hsub, List.getElem?_eq_getElem h,
    Option.getD_some]

/-- To write what is there changes nothing. -/
theorem put_same (h : ∀ (k : Nat) (hk : k < xs.length), mem (addr + k) = xs[k]) :
    put mem addr xs = mem := by
  funext i
  by_cases hbelow : i < addr
  · exact put_of_lt mem addr xs hbelow
  · by_cases habove : addr + xs.length ≤ i
    · exact put_of_ge mem addr xs habove
    · obtain ⟨k, rfl⟩ := Int.le.dest (Int.not_lt.mp hbelow)
      have hk : k < xs.length := by omega
      rw [put_get mem addr xs hk, h k hk]

/-- A cell shows what it showed before, or something that was written. -/
theorem put_old_or_new (i : Int) : put mem addr xs i = mem i ∨ put mem addr xs i ∈ xs := by
  by_cases hbelow : i < addr
  · exact .inl (put_of_lt mem addr xs hbelow)
  · by_cases habove : addr + xs.length ≤ i
    · exact .inl (put_of_ge mem addr xs habove)
    · obtain ⟨k, rfl⟩ := Int.le.dest (Int.not_lt.mp hbelow)
      have hk : k < xs.length := by omega
      rw [put_get mem addr xs hk]
      exact .inr (List.getElem_mem hk)

/-- Two writes, one right behind the other. -/
theorem put_append (ys : List α) :
    put (put mem addr xs) (addr + xs.length) ys = put mem addr (xs ++ ys) := by
  funext i
  by_cases h1 : addr + xs.length ≤ i
  · have hsub : (i - addr).toNat = xs.length + (i - (addr + xs.length)).toNat := by omega
    have hright : xs.length ≤ (i - addr).toNat := by omega
    simp only [put, if_pos h1, if_pos (show addr ≤ i by omega), List.getElem?_append_right hright]
    rw [show (i - addr).toNat - xs.length = (i - (addr + xs.length)).toNat by omega,
      List.getElem?_eq_none hright]
    rfl
  · by_cases h2 : addr ≤ i
    · simp only [put, if_neg h1, if_pos h2,
        List.getElem?_append_left (show (i - addr).toNat < xs.length by omega)]
    · simp only [put, if_neg h1, if_neg h2]

/-- The same, with the address of the second write computed otherwise. -/
theorem put_behind {addr' : Int} {ys : List α} (h : addr' = addr + xs.length) :
    put (put mem addr xs) addr' ys = put mem addr (xs ++ ys) := by
  rw [h, put_append]

/-- What a write that does not wrap leaves where it wrote. -/
theorem content_put_self (hfit : pos + xs.length ≤ n) :
    content (put mem (base + pos) xs) base n pos xs.length = xs := by
  apply List.ext_getElem (content_length ..)
  intro k hk _
  rw [content_length] at hk
  have hmod : (pos + k) % n = pos + k := Nat.mod_eq_of_lt (by omega)
  have haddr : base + ((pos + k : Nat) : Int) = base + pos + (k : Nat) := by push_cast; omega
  simp only [content, List.getElem_map, List.getElem_range, hmod, haddr]
  exact put_get mem (base + pos) xs hk

/-- A memory that differs only behind the queue, before its first cell, shows the same queue. -/
theorem content_of_same_outside {mem' : Int → α} {m : Nat} (hpos : pos < n) (hroom : len + m ≤ n)
    (hsame : ∀ i : Int, i < base + ((pos + len) % n : Nat) ∨ base + ((pos + len) % n : Nat) + m ≤ i →
      mem' i = mem i) :
    content mem' base n pos len = content mem base n pos len := by
  simp only [content]
  refine List.map_congr_left fun k hk => hsame _ ?_
  have hk := List.mem_range.mp hk
  by_cases hwrap : pos + len < n
  · rw [Nat.mod_eq_of_lt hwrap, Nat.mod_eq_of_lt (show pos + k < n by omega)]
    omega
  · have hlen : (pos + len) % n = pos + len - n := by
      by_cases hfull : pos + len < 2 * n
      · rw [Nat.mod_eq_sub_mod (by omega), Nat.mod_eq_of_lt (by omega)]
      · omega
    rw [hlen]
    by_cases hkw : pos + k < n
    · rw [Nat.mod_eq_of_lt hkw]
      omega
    · rw [Nat.mod_eq_sub_mod (by omega), Nat.mod_eq_of_lt (by omega)]
      omega

/-- A write behind the queue that does not reach its first cell leaves the queue. -/
theorem content_put_behind (hpos : pos < n) (hroom : len + xs.length ≤ n) :
    content (put mem (base + ((pos + len) % n : Nat)) xs) base n pos len =
      content mem base n pos len :=
  content_of_same_outside mem base n pos len hpos hroom fun _ hi =>
    hi.elim (put_of_lt mem _ xs) (put_of_ge mem _ xs)

/-- Writing behind the queue appends to it. -/
theorem content_put (hpos : pos < n) (hroom : len + xs.length ≤ n)
    (hfit : (pos + len) % n + xs.length ≤ n) :
    content (put mem (base + ((pos + len) % n : Nat)) xs) base n pos (len + xs.length) =
      content mem base n pos len ++ xs := by
  rw [content_add, content_put_behind mem base n pos len xs hpos hroom,
    ← content_mod _ _ _ (pos + len), content_put_self mem base n _ xs hfit]

/-- The cells of the ring, counted from any of them on, are different ones. -/
theorem ring_inj {pos n k l : Nat} (hk : k < n) (hl : l < n) (h : (pos + k) % n = (pos + l) % n) :
    k = l := by
  have hmod : Nat.ModEq n k l := Nat.ModEq.add_left_cancel' pos h
  rw [Nat.ModEq, Nat.mod_eq_of_lt hk, Nat.mod_eq_of_lt hl] at hmod
  exact hmod

/-- A position that was counted over the end of the ring once. -/
theorem ring_wrap {n i : Nat} (hge : n ≤ i) (hlt : i < 2 * n) : i % n = i - n := by
  rw [Nat.mod_eq_sub_mod hge, Nat.mod_eq_of_lt (by omega)]

/-- A write that goes on at the start of the ring behind its end. -/
def putRing (mem : Int → α) (base : Int) (n pos : Nat) (xs : List α) : Int → α :=
  put (put mem (base + pos) (xs.take (n - pos))) base (xs.drop (n - pos))

variable {n pos}

/-- Without a wrap it is a plain write. -/
theorem putRing_of_le (hfit : pos + xs.length ≤ n) :
    putRing mem base n pos xs = put mem (base + pos) xs := by
  rw [putRing, List.take_of_length_le (by omega), List.drop_of_length_le (by omega), put_nil]

theorem putRing_get (hpos : pos < n) (hlen : xs.length ≤ n) {k : Nat} (hk : k < xs.length) :
    putRing mem base n pos xs (base + ((pos + k) % n : Nat)) = xs[k] := by
  by_cases hwrap : pos + k < n
  · have htake : k < (xs.take (n - pos)).length := by
      rw [List.length_take]
      omega
    have haddr : base + ((pos + k : Nat) : Int) = base + pos + k := by omega
    have hbehind : base + ((xs.drop (n - pos)).length : Int) ≤ base + pos + k := by
      rw [List.length_drop]
      omega
    rw [putRing, Nat.mod_eq_of_lt hwrap, haddr, put_of_ge _ _ _ hbehind, put_get _ _ _ htake,
      List.getElem_take]
  · have hdrop : pos + k - n < (xs.drop (n - pos)).length := by
      rw [List.length_drop]
      omega
    have hindex : n - pos + (pos + k - n) = k := by omega
    rw [putRing, ring_wrap (by omega) (by omega), put_get _ _ _ hdrop, List.getElem_drop]
    simp only [hindex]

theorem putRing_other (hpos : pos < n) (hlen : xs.length ≤ n) {i : Int}
    (hi : ∀ k < xs.length, i ≠ base + ((pos + k) % n : Nat)) :
    putRing mem base n pos xs i = mem i := by
  have hfirst : i < base + pos ∨ base + pos + (xs.take (n - pos)).length ≤ i := by
    by_contra hin
    rw [List.length_take] at hin
    apply hi (i - (base + pos)).toNat (by omega)
    rw [Nat.mod_eq_of_lt (by omega)]
    omega
  have hrest : i < base ∨ base + (xs.drop (n - pos)).length ≤ i := by
    by_contra hin
    rw [List.length_drop] at hin
    apply hi (n - pos + (i - base).toNat) (by omega)
    rw [ring_wrap (by omega) (by omega)]
    omega
  calc putRing mem base n pos xs i
      = put mem (base + pos) (xs.take (n - pos)) i :=
        hrest.elim (put_of_lt _ base _) (put_of_ge _ base _)
    _ = mem i := hfirst.elim (put_of_lt mem _ _) (put_of_ge mem _ _)

end MediaModules.Lib.Ring
