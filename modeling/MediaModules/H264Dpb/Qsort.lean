import MediaModules.Lib.Rearrange
import Mathlib.Algebra.Order.Ring.Int

/-!
# The `qsort` of `h264_dpb.c`

The file carries its own quicksort: a selection sort for at most eight elements, else a
partition around the median of three with a stack of pending sub-arrays. Pointers into the
array are indices. Below the code stands what each of its loops does to an array whose
elements are ordered by an integer key.
-/
namespace MediaModules.H264Dpb.Qsort

open MediaModules.Lib.Rearrange

variable {α : Type*}

section Code

variable [Inhabited α] (comp : α → α → Int)

/-- The index of the largest element of `[lo, lo + n]`: the inner loop of `shortsort`. -/
def maxIndex (a : List α) (lo : Nat) : Nat → Nat
  | 0 => lo
  | n + 1 =>
    let max := maxIndex a lo n
    if comp (item a (lo + (n + 1))) (item a max) > 0 then lo + (n + 1) else max

/-- `shortsort` of `[lo, lo + n]`. -/
def shortsort (a : List α) (lo : Nat) : Nat → List α
  | 0 => a
  | n + 1 => shortsort (swap a (maxIndex comp a lo (n + 1)) (lo + (n + 1))) lo n

/-- Sort the first, middle and last elements into order. -/
def medianOfThree (a : List α) (lo mid hi : Nat) : List α :=
  let a := if comp (item a lo) (item a mid) > 0 then swap a lo mid else a
  let a := if comp (item a lo) (item a hi) > 0 then swap a lo hi else a
  if comp (item a mid) (item a hi) > 0 then swap a mid hi else a

/-- The travelling pointers of the partition step. -/
structure Guys (α : Type*) where
  a : List α
  mid : Nat
  loguy : Nat
  higuy : Nat

/-- Move `loguy` up to the next element greater than the partition element. -/
def moveLoguy (a : List α) (mid hi loguy : Nat) : Nat :=
  let loguy :=
    if mid > loguy then
      advance (fun i => !decide (comp (item a i) (item a mid) ≤ 0)) (mid - (loguy + 1)) (loguy + 1)
    else loguy
  if mid ≤ loguy then
    advance (fun i => !decide (comp (item a i) (item a mid) ≤ 0)) (hi + 1 - (loguy + 1)) (loguy + 1)
  else loguy

/-- Move `higuy` down to the next element not greater than the partition element. -/
def moveHiguy (a : List α) (mid higuy : Nat) : Nat :=
  retreat (fun i => !decide (comp (item a i) (item a mid) > 0)) (higuy - 1 - mid) (higuy - 1)

/-- The partition loop. `loguy` increases with every turn. -/
def partition (hi : Nat) : Nat → Guys α → Guys α
  | 0, g => g
  | fuel + 1, g =>
    let loguy := moveLoguy comp g.a g.mid hi g.loguy
    let higuy := moveHiguy comp g.a g.mid g.higuy
    if higuy < loguy then
      { g with loguy := loguy, higuy := higuy }
    else
      partition hi fuel
        { a := swap g.a loguy higuy
          mid := if g.mid = higuy then loguy else g.mid
          loguy := loguy
          higuy := higuy }

/-- Step `higuy` down over the elements equal to the partition element. -/
def skipEqual (a : List α) (mid lo higuy : Nat) : Nat :=
  let higuy := higuy + 1
  let higuy :=
    if mid < higuy then
      retreat (fun i => !decide (comp (item a i) (item a mid) = 0)) (higuy - 1 - mid) (higuy - 1)
    else higuy
  if mid ≥ higuy then
    retreat (fun i => !decide (comp (item a i) (item a mid) = 0)) (higuy - 1 - lo) (higuy - 1)
  else higuy

/-- One pass from the label `recurse` on: the array, and the sub-arrays still to sort with the
one to continue with in front. -/
def pass (a : List α) (lo hi : Nat) (stack : List (Nat × Nat)) :
    List α × List (Nat × Nat) :=
  let size := hi - lo + 1
  if size ≤ 8 then
    (shortsort comp a lo (hi - lo), stack)
  else
    let mid := lo + size / 2
    let g := partition comp hi size
      { a := medianOfThree comp a lo mid hi, mid := mid, loguy := lo, higuy := hi }
    let higuy := skipEqual comp g.a g.mid lo g.higuy
    if higuy - lo ≥ hi - g.loguy then
      let stack := if lo < higuy then (lo, higuy) :: stack else stack
      (g.a, if g.loguy < hi then (g.loguy, hi) :: stack else stack)
    else
      let stack := if g.loguy < hi then (g.loguy, hi) :: stack else stack
      (g.a, if lo < higuy then (lo, higuy) :: stack else stack)

/-- Sort the pending sub-arrays, the first one next. -/
def loop : Nat → List α → List (Nat × Nat) → List α
  | 0, a, _ => a
  | _ + 1, a, [] => a
  | fuel + 1, a, (lo, hi) :: stack =>
    let r := pass comp a lo hi stack
    loop fuel r.1 r.2

/-- `qsort`. Every pass leaves less work, measured by twice the sizes less the number of
sub-arrays, so that twice the size is fuel enough. -/
def qsort (xs : List α) : List α :=
  if xs.length < 2 then xs else loop comp (2 * xs.length) xs [(0, xs.length - 1)]

end Code

/-! ## Sorting by a key -/

/-- The comparison function orders by the key. -/
structure Orders (comp : α → α → Int) (key : α → Int) : Prop where
  pos : ∀ x y, 0 < comp x y ↔ key y < key x
  zero : ∀ x y, comp x y = 0 ↔ key x = key y

section Sorting

variable [Inhabited α] {comp : α → α → Int} {key : α → Int}

/-- The elements of `[lo, hi]` are in order. -/
def SortedOn (key : α → Int) (a : List α) (lo hi : Nat) : Prop :=
  ∀ i j, lo ≤ i → i ≤ j → j ≤ hi → key (item a i) ≤ key (item a j)

theorem maxIndex_spec (hc : Orders comp key) (a : List α) (lo n : Nat) :
    lo ≤ maxIndex comp a lo n ∧ maxIndex comp a lo n ≤ lo + n ∧
      ∀ k, lo ≤ k → k ≤ lo + n → key (item a k) ≤ key (item a (maxIndex comp a lo n)) := by
  induction n with
  | zero =>
    refine ⟨Nat.le_refl lo, Nat.le_refl lo, fun k h1 h2 => ?_⟩
    have hk : k = lo := by omega
    subst hk
    exact Int.le_refl _
  | succ n ih =>
    obtain ⟨h1, h2, h3⟩ := ih
    by_cases hgt : 0 < comp (item a (lo + (n + 1))) (item a (maxIndex comp a lo n))
    · have hr : maxIndex comp a lo (n + 1) = lo + (n + 1) := if_pos hgt
      have hlt := (hc.pos _ _).mp hgt
      rw [hr]
      refine ⟨by omega, by omega, fun k hk1 hk2 => ?_⟩
      by_cases hk : k = lo + (n + 1)
      · subst hk
        exact Int.le_refl _
      · have hle := h3 k hk1 (by omega)
        omega
    · have hr : maxIndex comp a lo (n + 1) = maxIndex comp a lo n := if_neg hgt
      rw [hr]
      refine ⟨h1, by omega, fun k hk1 hk2 => ?_⟩
      by_cases hk : k = lo + (n + 1)
      · have hle : ¬ key (item a (maxIndex comp a lo n)) < key (item a (lo + (n + 1))) :=
          fun h => hgt ((hc.pos _ _).mpr h)
        rw [hk]
        omega
      · exact h3 k hk1 (by omega)

/-- `shortsort` sorts: after each turn the largest element of the rest stands behind it. -/
theorem shortsort_spec (hc : Orders comp key) (a : List α) (lo n : Nat)
    (hn : lo + n < a.length) :
    Within lo (lo + n) a (shortsort comp a lo n) ∧
      SortedOn key (shortsort comp a lo n) lo (lo + n) := by
  induction n generalizing a with
  | zero =>
    refine ⟨within_refl lo lo a, fun i j h1 h2 h3 => ?_⟩
    have hij : i = j := by omega
    subst hij
    exact Int.le_refl _
  | succ n ih =>
    obtain ⟨hm1, hm2, hm3⟩ := maxIndex_spec hc a lo (n + 1)
    generalize hmax : maxIndex comp a lo (n + 1) = m at hm1 hm2 hm3
    have hswap : Within lo (lo + (n + 1)) a (swap a m (lo + (n + 1))) :=
      swap_within a hn hm1 hm2 (by omega) (Nat.le_refl _)
    obtain ⟨hw, hs⟩ := ih (swap a m (lo + (n + 1))) (by rw [length_swap]; omega)
    have hr : shortsort comp a lo (n + 1) = shortsort comp (swap a m (lo + (n + 1))) lo n := by
      rw [← hmax]
      rfl
    rw [hr]
    have hlast : item (shortsort comp (swap a m (lo + (n + 1))) lo n) (lo + (n + 1)) = item a m := by
      rw [hw.outside (Or.inr (by omega)), item_swap_right a (by omega) hn]
    refine ⟨hswap.trans (hw.mono (Nat.le_refl lo) (by omega)), fun i j h1 h2 h3 => ?_⟩
    by_cases hj : j = lo + (n + 1)
    · by_cases hi : i = lo + (n + 1)
      · exact Int.le_of_eq (by rw [hi, hj])
      · obtain ⟨k, hk1, hk2, hk⟩ := hw.inside h1 (by omega : i ≤ lo + n)
        obtain ⟨k', hk1', hk2', hk'⟩ := hswap.inside hk1 (by omega : k ≤ lo + (n + 1))
        rw [hj, hlast, hk, hk']
        exact hm3 k' hk1' hk2'
    · exact hs i j h1 h2 (by omega)

theorem moveLoguy_spec (hc : Orders comp key) (a : List α) {mid hi loguy : Nat}
    (hmid : mid ≤ hi) (hlo : loguy < hi) :
    loguy < moveLoguy comp a mid hi loguy ∧ moveLoguy comp a mid hi loguy ≤ hi + 1 ∧
      (∀ k, loguy < k → k < moveLoguy comp a mid hi loguy → key (item a k) ≤ key (item a mid)) ∧
      (moveLoguy comp a mid hi loguy = hi + 1 ∨
        key (item a mid) < key (item a (moveLoguy comp a mid hi loguy))) := by
  have hstop : ∀ k, (!decide (comp (item a k) (item a mid) ≤ 0)) = true ↔
      key (item a mid) < key (item a k) := by
    intro k
    rw [← hc.pos]
    simp
  have hgo : ∀ k, (!decide (comp (item a k) (item a mid) ≤ 0)) = false ↔
      key (item a k) ≤ key (item a mid) := by
    intro k
    rw [← Bool.not_eq_true, hstop k]
    omega
  unfold moveLoguy
  by_cases hlt : mid > loguy
  · obtain ⟨h1, h2, h3, h4⟩ := advance_spec
      (fun i => !decide (comp (item a i) (item a mid) ≤ 0)) (mid - (loguy + 1)) (loguy + 1)
    generalize hj : advance (fun i => !decide (comp (item a i) (item a mid) ≤ 0))
      (mid - (loguy + 1)) (loguy + 1) = j at h1 h2 h3 h4
    simp only [if_pos hlt]
    by_cases hle : mid ≤ j
    · -- the partition element itself is passed without a comparison
      have hjm : j = mid := by omega
      subst hjm
      obtain ⟨g1, g2, g3, g4⟩ := advance_spec
        (fun i => !decide (comp (item a i) (item a j) ≤ 0)) (hi + 1 - (j + 1)) (j + 1)
      rw [if_pos hle]
      refine ⟨by omega, by omega, fun k hk1 hk2 => ?_, ?_⟩
      · by_cases hkj : k < j
        · exact (hgo k).mp (h3 k (by omega) hkj)
        · by_cases hkj' : k = j
          · exact Int.le_of_eq (by rw [hkj'])
          · exact (hgo k).mp (g3 k (by omega) hk2)
      · rcases g4 with g4 | g4
        · exact Or.inl (by omega)
        · exact Or.inr ((hstop _).mp g4)
    · rw [if_neg hle]
      refine ⟨by omega, by omega, fun k hk1 hk2 => (hgo k).mp (h3 k (by omega) hk2), Or.inr ?_⟩
      rcases h4 with h4 | h4
      · omega
      · exact (hstop j).mp h4
  · obtain ⟨g1, g2, g3, g4⟩ := advance_spec
      (fun i => !decide (comp (item a i) (item a mid) ≤ 0)) (hi + 1 - (loguy + 1)) (loguy + 1)
    have hle : mid ≤ loguy := by omega
    simp only [if_neg hlt, if_pos hle]
    refine ⟨by omega, by omega, fun k hk1 hk2 => (hgo k).mp (g3 k (by omega) hk2), ?_⟩
    rcases g4 with g4 | g4
    · exact Or.inl (by omega)
    · exact Or.inr ((hstop _).mp g4)

theorem moveHiguy_spec (hc : Orders comp key) (a : List α) {mid higuy : Nat} (hmid : mid < higuy) :
    mid ≤ moveHiguy comp a mid higuy ∧ moveHiguy comp a mid higuy < higuy ∧
      (∀ k, moveHiguy comp a mid higuy < k → k < higuy → key (item a mid) < key (item a k)) ∧
      key (item a (moveHiguy comp a mid higuy)) ≤ key (item a mid) := by
  obtain ⟨h1, h2, h3, h4⟩ := retreat_spec
    (fun i => !decide (comp (item a i) (item a mid) > 0)) (higuy - 1 - mid) (higuy - 1) (by omega)
  change higuy - 1 - (higuy - 1 - mid) ≤ moveHiguy comp a mid higuy at h1
  change moveHiguy comp a mid higuy ≤ higuy - 1 at h2
  refine ⟨by omega, by omega, fun k hk1 hk2 => ?_, ?_⟩
  · have hgo := h3 k hk1 (by omega)
    exact (hc.pos _ _).mp (by simpa using hgo)
  · rcases h4 with h4 | h4
    · have hm : moveHiguy comp a mid higuy = mid := by
        show retreat _ _ _ = mid
        omega
      exact Int.le_of_eq (by rw [hm])
    · have hle : ¬ 0 < comp (item a (moveHiguy comp a mid higuy)) (item a mid) := by
        show ¬ 0 < comp (item a (retreat _ _ _)) (item a mid)
        simpa using h4
      rw [hc.pos] at hle
      omega

/-- What holds at the top of the partition loop. -/
structure AtTop (key : α → Int) (lo hi : Nat) (g : Guys α) : Prop where
  lo_le : lo ≤ g.loguy
  lo_mid : lo < g.mid
  loguy_hi : g.loguy < hi
  mid_higuy : g.mid < g.higuy
  higuy_hi : g.higuy ≤ hi
  hi_length : hi < g.a.length
  below : ∀ k, lo ≤ k → k ≤ g.loguy → key (item g.a k) ≤ key (item g.a g.mid)
  above : ∀ k, g.higuy ≤ k → k < hi → key (item g.a g.mid) < key (item g.a k)
  last : key (item g.a g.mid) ≤ key (item g.a hi)

/-- What holds when the partition loop is left. -/
structure Parted (key : α → Int) (lo hi : Nat) (g : Guys α) : Prop where
  lo_mid : lo < g.mid
  mid_higuy : g.mid ≤ g.higuy
  higuy_hi : g.higuy < hi
  crossed : g.higuy < g.loguy
  loguy_hi : g.loguy ≤ hi + 1
  below : ∀ k, lo ≤ k → k < g.loguy → key (item g.a k) ≤ key (item g.a g.mid)
  above : ∀ k, g.higuy < k → k < hi → key (item g.a g.mid) < key (item g.a k)
  last : key (item g.a g.mid) ≤ key (item g.a hi)

theorem partition_spec (hc : Orders comp key) {lo hi : Nat} (fuel : Nat) (g : Guys α)
    (htop : AtTop key lo hi g) (hfuel : hi < g.loguy + fuel) :
    Within lo hi g.a (partition comp hi fuel g).a ∧ Parted key lo hi (partition comp hi fuel g) := by
  induction fuel generalizing g with
  | zero =>
    have h := htop.loguy_hi
    omega
  | succ fuel ih =>
    obtain ⟨hlo, hlm, hlh, hmh, hhh, hlen, hbelow, habove, hlast⟩ := htop
    obtain ⟨l1, l2, l3, l4⟩ := moveLoguy_spec hc g.a (by omega : g.mid ≤ hi) hlh
    obtain ⟨r1, r2, r3, r4⟩ := moveHiguy_spec hc g.a hmh
    unfold partition
    generalize moveLoguy comp g.a g.mid hi g.loguy = l at l1 l2 l3 l4
    generalize moveHiguy comp g.a g.mid g.higuy = r at r1 r2 r3 r4
    have hbelow' : ∀ k, lo ≤ k → k < l → key (item g.a k) ≤ key (item g.a g.mid) := by
      intro k h1 h2
      by_cases hk : k ≤ g.loguy
      · exact hbelow k h1 hk
      · exact l3 k (by omega) h2
    have habove' : ∀ k, r < k → k < hi → key (item g.a g.mid) < key (item g.a k) := by
      intro k h1 h2
      by_cases hk : k < g.higuy
      · exact r3 k h1 hk
      · exact habove k (by omega) h2
    by_cases hcross : r < l
    · simp only [if_pos hcross]
      have hr : r < hi := by omega
      exact ⟨within_refl lo hi g.a, hlm, r1, hr, hcross, l2, hbelow', habove', hlast⟩
    · have hgt : key (item g.a g.mid) < key (item g.a l) := by
        rcases l4 with l4 | l4
        · omega
        · exact l4
      have hlm' : l ≠ g.mid := by
        intro h
        rw [h] at hgt
        omega
      have hlr : l ≠ r := by
        intro h
        rw [h] at hgt
        omega
      have hl : l < g.a.length := by omega
      have hr : r < g.a.length := by omega
      have hw : Within lo hi g.a (swap g.a l r) :=
        swap_within g.a hlen (by omega) (by omega) (by omega) (by omega)
      -- the partition element is followed when it was moved
      have hpivot : item (swap g.a l r) (if g.mid = r then l else g.mid) = item g.a g.mid := by
        by_cases hm : g.mid = r
        · rw [if_pos hm, item_swap_left g.a hl hr, hm]
        · rw [if_neg hm, item_swap_other g.a hl hr (Ne.symm hlm') hm]
      simp only [if_neg hcross]
      have hnext : AtTop key lo hi
          { a := swap g.a l r, mid := if g.mid = r then l else g.mid, loguy := l, higuy := r } := by
        refine ⟨by dsimp only; omega, ?_, by dsimp only; omega, ?_, by dsimp only; omega, ?_, ?_, ?_, ?_⟩
        · dsimp only
          split <;> omega
        · dsimp only
          split <;> omega
        · show hi < (swap g.a l r).length
          rw [length_swap]
          exact hlen
        · intro k h1 h2
          dsimp only at h2 ⊢
          rw [hpivot]
          by_cases hk : k = l
          · rw [hk, item_swap_left g.a hl hr]
            exact r4
          · rw [item_swap_other g.a hl hr hk (by omega)]
            exact hbelow' k h1 (by omega)
        · intro k h1 h2
          dsimp only at h1 ⊢
          rw [hpivot]
          by_cases hk : k = r
          · rw [hk, item_swap_right g.a hl hr]
            exact hgt
          · rw [item_swap_other g.a hl hr (by omega) hk]
            exact habove' k (by omega) h2
        · dsimp only
          rw [hpivot, item_swap_other g.a hl hr (by omega) (by omega)]
          exact hlast
      obtain ⟨h1, h2⟩ := ih _ hnext (by dsimp only; omega)
      exact ⟨hw.trans h1, h2⟩

theorem skipEqual_spec (hc : Orders comp key) (a : List α) {mid lo higuy : Nat} (hlo : lo < mid)
    (hmid : mid ≤ higuy) :
    lo ≤ skipEqual comp a mid lo higuy ∧ skipEqual comp a mid lo higuy ≤ higuy ∧
      ∀ k, skipEqual comp a mid lo higuy < k → k ≤ higuy → key (item a k) = key (item a mid) := by
  have hgo : ∀ k, (!decide (comp (item a k) (item a mid) = 0)) = false ↔
      key (item a k) = key (item a mid) := by
    intro k
    rw [← hc.zero]
    simp
  unfold skipEqual
  obtain ⟨h1, h2, h3, h4⟩ := retreat_spec
    (fun i => !decide (comp (item a i) (item a mid) = 0)) (higuy + 1 - 1 - mid) (higuy + 1 - 1)
    (by omega)
  generalize hj : retreat (fun i => !decide (comp (item a i) (item a mid) = 0))
    (higuy + 1 - 1 - mid) (higuy + 1 - 1) = j at h1 h2 h3 h4
  have hmid' : mid < higuy + 1 := by omega
  simp only [if_pos hmid', hj]
  by_cases hjm : mid ≥ j
  · have hje : j = mid := by omega
    subst hje
    obtain ⟨g1, g2, g3, g4⟩ := retreat_spec
      (fun i => !decide (comp (item a i) (item a j) = 0)) (j - 1 - lo) (j - 1) (by omega)
    rw [if_pos hjm]
    refine ⟨by omega, by omega, fun k hk1 hk2 => ?_⟩
    by_cases hkj : j < k
    · exact (hgo k).mp (h3 k hkj (by omega))
    · by_cases hkj' : k = j
      · rw [hkj']
      · exact (hgo k).mp (g3 k hk1 (by omega))
  · rw [if_neg hjm]
    exact ⟨by omega, by omega, fun k hk1 hk2 => (hgo k).mp (h3 k hk1 (by omega))⟩

theorem medianOfThree_spec (hc : Orders comp key) (a : List α) {lo mid hi : Nat} (h1 : lo < mid)
    (h2 : mid < hi) (hlen : hi < a.length) :
    Within lo hi a (medianOfThree comp a lo mid hi) ∧
      key (item (medianOfThree comp a lo mid hi) lo) ≤
        key (item (medianOfThree comp a lo mid hi) mid) ∧
      key (item (medianOfThree comp a lo mid hi) mid) ≤
        key (item (medianOfThree comp a lo mid hi) hi) := by
  -- each of the three steps swaps two of the three elements or keeps them in order
  have hstep : ∀ (b : List α) (i j : Nat), b.length = a.length → lo ≤ i → i ≤ hi → lo ≤ j → j ≤ hi →
      i ≠ j →
      ∃ c, (if comp (item b i) (item b j) > 0 then swap b i j else b) = c ∧ c.length = a.length ∧
        Within lo hi b c ∧
        ((item c i = item b i ∧ item c j = item b j ∧ key (item b i) ≤ key (item b j)) ∨
          (item c i = item b j ∧ item c j = item b i ∧ key (item b j) < key (item b i))) ∧
        ∀ k, k ≠ i → k ≠ j → item c k = item b k := by
    intro b i j hb hi1 hi2 hj1 hj2 hij
    refine ⟨_, rfl, ?_⟩
    by_cases hgt : 0 < comp (item b i) (item b j)
    · rw [if_pos hgt]
      exact ⟨by rw [length_swap, hb], swap_within b (by omega) hi1 hi2 hj1 hj2,
        Or.inr ⟨item_swap_left b (by omega) (by omega), item_swap_right b (by omega) (by omega),
          (hc.pos _ _).mp hgt⟩,
        fun k hk1 hk2 => item_swap_other b (by omega) (by omega) hk1 hk2⟩
    · rw [if_neg hgt]
      have hle : ¬ key (item b j) < key (item b i) := fun h => hgt ((hc.pos _ _).mpr h)
      exact ⟨hb, within_refl lo hi b, Or.inl ⟨rfl, rfl, by omega⟩, fun _ _ _ => rfl⟩
  obtain ⟨b, hb, hbl, hbw, hbo, hbr⟩ :=
    hstep a lo mid rfl (by omega) (by omega) (by omega) (by omega) (by omega)
  obtain ⟨c, hcc, hcl, hcw, hco, hcr⟩ :=
    hstep b lo hi hbl (by omega) (by omega) (by omega) (by omega) (by omega)
  obtain ⟨d, hd, hdl, hdw, hdo, hdr⟩ :=
    hstep c mid hi hcl (by omega) (by omega) (by omega) (by omega) (by omega)
  have hres : medianOfThree comp a lo mid hi = d := by
    unfold medianOfThree
    simp only [hb, hcc, hd]
  have ebhi := hbr hi (by omega) (by omega)
  have ecmid := hcr mid (by omega) (by omega)
  have edlo := hdr lo (by omega) (by omega)
  rw [hres]
  refine ⟨hbw.trans (hcw.trans hdw), ?_, ?_⟩
  · rcases hbo with ⟨b1, b2, b3⟩ | ⟨b1, b2, b3⟩ <;> rcases hco with ⟨c1, c2, c3⟩ | ⟨c1, c2, c3⟩ <;>
      rcases hdo with ⟨d1, d2, d3⟩ | ⟨d1, d2, d3⟩ <;>
      simp only [edlo, ecmid, ebhi, b1, b2, c1, c2, d1, d2] at * <;> omega
  · rcases hdo with ⟨d1, d2, d3⟩ | ⟨d1, d2, d3⟩ <;> rw [d1, d2] <;> omega

end Sorting

end MediaModules.H264Dpb.Qsort
