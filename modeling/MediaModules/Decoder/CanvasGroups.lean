import MediaModules.Decoder.Canvas
import MediaModules.Lib.Words
import Mathlib.Data.Int.ConditionallyCompleteOrder
import Mathlib.Data.Nat.Digits.Lemmas
import Mathlib.Order.CompletePartialOrder
import Mathlib.Order.Interval.Set.Basic
import Mathlib.Tactic.IntervalCases
import Mathlib.Tactic.MkIffOfInductiveProp

/-!
# Groups of canvases

`get_canvas`. An index stands for a group of `base` canvases in a row. The groups are laid out over the
first range and, where this ends, over the second one.
-/
namespace MediaModules.Canvas

open MediaModules.Lib.Words

/-- `get_canvas` up to the choice of `start`. `index` and `base` are `unsigned`. -/
def getCanvasStart (c : CanvasRange) (index base : Int) : Option Int :=
  let canvasIndex := s32 (u32 (index * base))
  if base > 4 ∨ base = 0 then none
  else if u32 (s32 (c.startIndex + canvasIndex) + base - 1) ≤ c.max1 then
    some (s32 (c.startIndex + u32 (base * index)))
  else
    let canvasIndex := s32 (canvasIndex - u32 (c.max1 - c.startIndex + 1) / base * base)
    -- the comparison is signed, the division is not
    if canvasIndex ≤ c.max2 then some (s32 (u32 canvasIndex / base)) else none

/-- The canvases of a group, one byte each. -/
def packCanvas (base start : Int) : BitVec 32 :=
  let s := BitVec.ofInt 32 start
  if base = 1 then s
  else if base = 2 then (s + 1#32) <<< 16 ||| (s + 1#32) <<< 8 ||| s
  else if base = 3 then (s + 2#32) <<< 16 ||| (s + 1#32) <<< 8 ||| s
  else if base = 4 then (s + 3) <<< 24 ||| (s + 2#32) <<< 16 ||| (s + 1#32) <<< 8 ||| s
  else 0

/-- `get_canvas`, -1 if it fails. -/
def getCanvas (c : CanvasRange) (index base : Int) : Int :=
  match getCanvasStart c index base with
  | some start => (packCanvas base start).toInt
  | none => -1

namespace CanvasRange

variable (c : CanvasRange) (base x : Int)

/-- The canvases that the indices stand for. -/
def canvases : Set Int := Set.Icc (c.startIndex : Int) c.max1 ∪ Set.Icc 0 c.max2

/-- The canvases of the whole groups in the first range. -/
def whole : Int := (c.max1 - c.startIndex + 1) / base * base

theorem whole_nonneg {base : Int} (hb : 0 < base) : 0 ≤ c.whole base := by
  have h := c.start_le
  exact Int.mul_nonneg (Int.ediv_nonneg (by omega) (Int.le_of_lt hb)) (Int.le_of_lt hb)

theorem whole_le {base : Int} (hb : 0 < base) : c.whole base ≤ c.max1 - c.startIndex + 1 :=
  Int.ediv_mul_le _ (Int.ne_of_gt hb)

theorem lt_whole {base : Int} (hb : 0 < base) : c.max1 - c.startIndex + 1 < c.whole base + base := by
  have h := Int.lt_ediv_add_one_mul_self (c.max1 - c.startIndex + 1 : Int) hb
  rwa [Int.add_mul, Int.one_mul] at h

/-! The product of index and base, a word, decides where the group lies. -/

def InFirst : Prop := x + base ≤ c.max1 - c.startIndex + 1

def InSecond : Prop := c.whole base ≤ x ∧ x ≤ c.whole base + c.max2

/-- The sum of the word and the start of the first range wraps into the second range. -/
def Around : Prop :=
  2 ^ 32 ≤ c.startIndex + x ∧ (c.startIndex + x + base ≤ 2 ^ 32 + c.max2 + 1 ∨
    c.max2 + 1 = c.startIndex ∧ c.startIndex + x + base ≤ 2 ^ 32 + c.max1 + 1)

/-- There is no canvas left. -/
def Refused : Prop := c.whole base + c.max2 < x ∧ x < c.whole base + 2 ^ 31

instance : Decidable (c.InFirst base x) := inferInstanceAs (Decidable (_ ≤ _))

instance : Decidable (c.InSecond base x) := inferInstanceAs (Decidable (_ ∧ _))

end CanvasRange

/-- The group that starts at a canvas. -/
def group (base start : Int) : Set Int := Set.Ico start (start + base)

variable {c : CanvasRange} {base index s x : Int}

/-- The code in terms of the word. -/
theorem getCanvasStart_eq (hb : 1 ≤ base ∧ base ≤ 4) (hmax : c.max1 ≤ 0xff)
    (hx : x = u32 (index * base)) : getCanvasStart c index base =
      if c.startIndex + x + base - 1 ≤ c.max1 then some (c.startIndex + x)
      else if 2 ^ 32 ≤ c.startIndex + x + base - 1 ∧ c.startIndex + x + base - 1 - 2 ^ 32 ≤ c.max1 then
        some (c.startIndex + x - 2 ^ 32)
      else if c.whole base ≤ x ∧ x ≤ c.whole base + c.max2 then some ((x - c.whole base) / base)
      else if c.whole base + c.max2 < x ∧ x < c.whole base + 2 ^ 31 then none
      else some (s32 (u32 (x - c.whole base) / base)) := by
  have hle := c.rdma_le
  have hlt := c.max2_lt
  have hst := c.start_le
  have hcomm : base * index = index * base := Int.mul_comm _ _
  have hx0 : 0 ≤ x ∧ x < 4294967296 := by
    simp only [u32] at hx
    omega
  have hsize : u32 (c.max1 - c.startIndex + 1) / base * base = c.whole base := by
    rw [u32_of_range (by omega) (by omega), CanvasRange.whole]
  have hwhole := c.whole_nonneg (by omega : 0 < base)
  have hwhole' := c.whole_le (by omega : 0 < base)
  simp only [getCanvasStart, hcomm, ← hx, hsize]
  rw [if_neg (by omega)]
  generalize c.whole base = w at *
  have hsum : u32 (s32 (c.startIndex + s32 x) + base - 1) ≤ c.max1 ↔
      c.startIndex + x + base - 1 ≤ c.max1 ∨
        2 ^ 32 ≤ c.startIndex + x + base - 1 ∧ c.startIndex + x + base - 1 - 2 ^ 32 ≤ c.max1 := by
    simp only [u32, s32]
    omega
  have hcast : s32 (s32 x - w) = s32 (x - w) := by
    simp only [s32]
    omega
  have hfit : s32 (x - w) ≤ c.max2 ↔ x ≤ w + c.max2 ∨ w + 2 ^ 31 ≤ x := by
    simp only [s32]
    omega
  rw [hcast, u32_s32]
  by_cases h1 : c.startIndex + x + base - 1 ≤ c.max1
  · rw [if_pos (hsum.mpr (.inl h1)), if_pos h1, s32_of_range (by omega) (by omega)]
  rw [if_neg h1]
  by_cases h2 : 2 ^ 32 ≤ c.startIndex + x + base - 1 ∧
      c.startIndex + x + base - 1 - 2 ^ 32 ≤ c.max1
  · rw [if_pos (hsum.mpr (.inr h2)), if_pos h2]
    have hback : s32 (c.startIndex + x) = c.startIndex + x - 2 ^ 32 := by
      simp only [s32]
      omega
    rw [hback]
  rw [if_neg h2, if_neg fun h => (hsum.mp h).elim h1 h2]
  by_cases h3 : w ≤ x ∧ x ≤ w + c.max2
  · have hq : 0 ≤ (x - w) / base ∧ (x - w) / base ≤ x - w :=
      ⟨Int.ediv_nonneg (by omega) (by omega), Int.ediv_le_self _ (by omega)⟩
    rw [if_pos h3, if_pos (hfit.mpr (.inl h3.2)), u32_of_range (by omega) (by omega),
      s32_of_range (by omega) (by omega)]
  rw [if_neg h3]
  by_cases h4 : w + c.max2 < x ∧ x < w + 2 ^ 31
  · rw [if_pos h4, if_neg (by rw [hfit]; omega)]
  · rw [if_neg h4, if_pos (hfit.mpr (by omega))]

/-! ## The canvases of a group -/

theorem mem_group {k : Int} : k ∈ group base s ↔ s ≤ k ∧ k < s + base := Set.mem_Ico

theorem mem_canvases {k : Int} :
    k ∈ c.canvases ↔ (c.startIndex ≤ k ∧ k ≤ c.max1) ∨ (0 ≤ k ∧ k ≤ c.max2) := by
  simp only [CanvasRange.canvases, Set.mem_union, Set.mem_Icc]

theorem group_disjoint_iff {t : Int} :
    Disjoint (group base s) (group base t) ↔ s + base ≤ t ∨ t + base ≤ s := by
  rw [Set.disjoint_left]
  constructor
  · intro h
    by_contra hclose
    exact h (mem_group.mpr (by omega : s ≤ max s t ∧ max s t < s + base)) (mem_group.mpr (by omega))
  · intro h k hs ht
    rw [mem_group] at hs ht
    omega

theorem group_subset_of_first (h0 : 0 ≤ x) (h : c.InFirst base x) :
    group base (c.startIndex + x) ⊆ c.canvases := by
  intro k hk
  rw [mem_group] at hk
  rw [CanvasRange.InFirst] at h
  exact mem_canvases.mpr (.inl (by omega))

/-- The last group of the second range ends in it, the range has more than 20 canvases. -/
theorem second_bounds (hb : 1 ≤ base ∧ base ≤ 4) (h : c.InSecond base x) :
    0 ≤ (x - c.whole base) / base ∧ (x - c.whole base) / base + base ≤ c.max2 + 1 := by
  have hle := c.rdma_le
  obtain ⟨hlow, hhigh⟩ := h
  have hq := Int.ediv_nonneg (by omega : 0 ≤ x - c.whole base) (by omega : 0 ≤ base)
  have hmul := Int.ediv_mul_le (x - c.whole base) (by omega : base ≠ 0)
  refine ⟨hq, ?_⟩
  obtain ⟨hb1, hb4⟩ := hb
  interval_cases base <;> omega

theorem group_subset_of_second (hb : 1 ≤ base ∧ base ≤ 4) (h : c.InSecond base x) :
    group base ((x - c.whole base) / base) ⊆ c.canvases := by
  intro k hk
  rw [mem_group] at hk
  have hq := second_bounds hb h
  exact mem_canvases.mpr (.inr (by omega))

theorem group_subset_of_around (h : c.Around base x) :
    group base (c.startIndex + x - 2 ^ 32) ⊆ c.canvases := by
  intro k hk
  rw [mem_group] at hk
  obtain ⟨hwrap, hfit⟩ := h
  rw [mem_canvases]
  omega

theorem group_not_subset_of_wrap (hb : 0 < base) (hx : x < 2 ^ 32)
    (hwrap : c.startIndex + x + base - 1 - 2 ^ 32 ≤ c.max1) (h : ¬ c.Around base x) :
    ¬ group base (c.startIndex + x - 2 ^ 32) ⊆ c.canvases := by
  intro hsub
  have hlt := c.max2_lt
  have hst := c.start_le
  rw [CanvasRange.Around] at h
  have hfirst := mem_canvases.mp
    (hsub (mem_group.mpr (by omega : c.startIndex + x - 2 ^ 32 ≤ c.startIndex + x - 2 ^ 32 ∧ _)))
  have hnext : ¬ (c.max2 + 1 : Int) ∈ group base (c.startIndex + x - 2 ^ 32) := fun hmem => by
    have hin := mem_canvases.mp (hsub hmem)
    omega
  rw [mem_group] at hnext
  omega

/-- What the signed comparison lets through is no canvas. -/
theorem group_not_subset_of_negative (hb : 1 ≤ base ∧ base ≤ 4) (hmax : c.max1 ≤ 0xff)
    {d : Int} (hd : (-256 < d ∧ d < 0) ∨ (2 ^ 31 ≤ d ∧ d < 2 ^ 32)) :
    ¬ group base (s32 (u32 d / base)) ⊆ c.canvases := by
  intro hsub
  have hlt := c.max2_lt
  have hst := c.start_le
  have hin := mem_canvases.mp (hsub (mem_group.mpr
    (by omega : s32 (u32 d / base) ≤ s32 (u32 d / base) ∧ _)))
  obtain ⟨hb1, hb4⟩ := hb
  simp only [s32, u32] at hin
  interval_cases base <;> omega

/-! ## Two groups -/

/-- Neither of two groups reaches the start of the other one. -/
def Far (base s t : Int) : Prop := s + base ≤ t ∨ t + base ≤ s

/-- The canvases of the word lie in the ranges. -/
def CanvasRange.Lands (c : CanvasRange) (base x : Int) : Prop :=
  c.InFirst base x ∨ c.InSecond base x ∨ c.Around base x

/-- The groups of two words have no canvas in common. -/
@[mk_iff]
structure CanvasRange.Apart (c : CanvasRange) (base x y : Int) : Prop where
  first : c.InFirst base x → c.InFirst base y → Far base x y
  second : c.InSecond base x → c.InSecond base y →
    Far base ((x - c.whole base) / base) ((y - c.whole base) / base)
  around : c.Around base x → c.Around base y → Far base x y
  first_around : c.InFirst base x → c.Around base y → y + base ≤ x + 2 ^ 32
  around_first : c.Around base x → c.InFirst base y → x + base ≤ y + 2 ^ 32
  second_around : c.InSecond base x → c.Around base y →
    Far base ((x - c.whole base) / base) (c.startIndex + y - 2 ^ 32)
  around_second : c.Around base x → c.InSecond base y →
    Far base (c.startIndex + x - 2 ^ 32) ((y - c.whole base) / base)

/-- Where both indices have a group, the groups are disjoint and lie in the ranges. -/
def GroupsSound (c : CanvasRange) (base i j : Int) : Prop :=
  ∀ s t, getCanvasStart c i base = some s → getCanvasStart c j base = some t →
    Disjoint (group base s) (group base t) ∧ group base s ⊆ c.canvases ∧ group base t ⊆ c.canvases

/-- Where the group of an index starts: in one of the ranges, nowhere, or astray. -/
theorem getCanvasStart_cases (hb : 1 ≤ base ∧ base ≤ 4) (hmax : c.max1 ≤ 0xff)
    (hx : x = u32 (index * base)) :
    (c.InFirst base x ∧ getCanvasStart c index base = some (c.startIndex + x)) ∨
    (c.InSecond base x ∧ getCanvasStart c index base = some ((x - c.whole base) / base)) ∨
    (c.Around base x ∧ getCanvasStart c index base = some (c.startIndex + x - 2 ^ 32)) ∨
    (c.Refused base x ∧ getCanvasStart c index base = none) ∨
    (¬ c.Lands base x ∧ ¬ c.Refused base x ∧
      ∃ s, getCanvasStart c index base = some s ∧ ¬ group base s ⊆ c.canvases) := by
  have hle := c.rdma_le
  have hlt := c.max2_lt
  have hst := c.start_le
  have h0 := c.whole_nonneg (by omega : 0 < base)
  have h1 := c.whole_le (by omega : 0 < base)
  have h2 := c.lt_whole (by omega : 0 < base)
  have hx0 : 0 ≤ x ∧ x < 2 ^ 32 := by
    simp only [u32] at hx
    omega
  have hfirst : c.InFirst base x ↔ c.startIndex + x + base - 1 ≤ c.max1 := by
    rw [CanvasRange.InFirst]
    omega
  have haround (h : c.Around base x) : 2 ^ 32 ≤ c.startIndex + x + base - 1 ∧
      c.startIndex + x + base - 1 - 2 ^ 32 ≤ c.max1 := by
    rw [CanvasRange.Around] at h
    omega
  rw [getCanvasStart_eq hb hmax hx]
  by_cases hsum : c.startIndex + x + base - 1 ≤ c.max1
  · exact .inl ⟨hfirst.mpr hsum, if_pos hsum⟩
  rw [if_neg hsum]
  by_cases hwrap : 2 ^ 32 ≤ c.startIndex + x + base - 1 ∧
      c.startIndex + x + base - 1 - 2 ^ 32 ≤ c.max1
  · rw [if_pos hwrap]
    by_cases hin : c.Around base x
    · exact .inr (.inr (.inl ⟨hin, rfl⟩))
    · have hsecond : ¬ c.InSecond base x := fun h => by
        rw [CanvasRange.InSecond] at h
        omega
      have hrefused : ¬ c.Refused base x := fun h => by
        rw [CanvasRange.Refused] at h
        omega
      exact .inr (.inr (.inr (.inr ⟨by simp only [CanvasRange.Lands, hfirst, hsum, hsecond, hin,
        or_self, not_false_iff], hrefused, _, rfl,
        group_not_subset_of_wrap (by omega) hx0.2 hwrap.2 hin⟩)))
  rw [if_neg hwrap]
  by_cases hsecond : c.InSecond base x
  · exact .inr (.inl ⟨hsecond, if_pos hsecond⟩)
  rw [if_neg (show ¬ (_ ∧ _) from hsecond)]
  by_cases hrefused : c.Refused base x
  · exact .inr (.inr (.inr (.inl ⟨hrefused, if_pos hrefused⟩)))
  · rw [if_neg (show ¬ (_ ∧ _) from hrefused)]
    have hnot : ¬ c.Lands base x := by
      rintro (h | h | h)
      · exact hsum (hfirst.mp h)
      · exact hsecond h
      · exact hwrap (haround h)
    rw [CanvasRange.InSecond] at hsecond
    refine .inr (.inr (.inr (.inr ⟨hnot, hrefused, _, rfl, ?_⟩)))
    rw [CanvasRange.Refused] at hrefused
    exact group_not_subset_of_negative hb hmax (by omega)

/-! A word lies in one place only. -/

theorem not_second_of_first (hb : 0 < base) (h : c.InFirst base x) : ¬ c.InSecond base x := fun h' => by
  have hw := c.lt_whole hb
  rw [CanvasRange.InFirst] at h
  rw [CanvasRange.InSecond] at h'
  omega

theorem not_around_of_first (hmax : c.max1 ≤ 0xff) (hb : 0 < base) (h : c.InFirst base x) :
    ¬ c.Around base x := fun h' => by
  rw [CanvasRange.InFirst] at h
  rw [CanvasRange.Around] at h'
  omega

theorem not_around_of_second (hmax : c.max1 ≤ 0xff) (hb : 0 < base) (h : c.InSecond base x) :
    ¬ c.Around base x := fun h' => by
  have hw := c.whole_le hb
  have hlt := c.max2_lt
  have hst := c.start_le
  rw [CanvasRange.InSecond] at h
  rw [CanvasRange.Around] at h'
  omega

theorem first_only (hmax : c.max1 ≤ 0xff) (hb : 0 < base) (h : c.InFirst base x) :
    ¬ c.InSecond base x ∧ ¬ c.Around base x :=
  ⟨not_second_of_first hb h, not_around_of_first hmax hb h⟩

theorem second_only (hmax : c.max1 ≤ 0xff) (hb : 0 < base) (h : c.InSecond base x) :
    ¬ c.InFirst base x ∧ ¬ c.Around base x :=
  ⟨fun h' => not_second_of_first hb h' h, not_around_of_second hmax hb h⟩

theorem around_only (hmax : c.max1 ≤ 0xff) (hb : 0 < base) (h : c.Around base x) :
    ¬ c.InFirst base x ∧ ¬ c.InSecond base x :=
  ⟨fun h' => not_around_of_first hmax hb h' h, fun h' => not_around_of_second hmax hb h' h⟩

/-- The group of a word that lands starts here. -/
def StartsAt (c : CanvasRange) (base x s : Int) : Prop :=
  (c.InFirst base x ∧ s = c.startIndex + x) ∨
    (c.InSecond base x ∧ s = (x - c.whole base) / base) ∨
    (c.Around base x ∧ s = c.startIndex + x - 2 ^ 32)

theorem disjoint_iff_apart {y s t : Int} (hb : 1 ≤ base ∧ base ≤ 4) (hmax : c.max1 ≤ 0xff)
    (hx : 0 ≤ x ∧ x < 2 ^ 32) (hy : 0 ≤ y ∧ y < 2 ^ 32)
    (hs : StartsAt c base x s) (ht : StartsAt c base y t) :
    Disjoint (group base s) (group base t) ↔ c.Apart base x y := by
  have hpos : 0 < base := by omega
  have hlt := c.max2_lt
  rw [group_disjoint_iff, CanvasRange.apart_iff]
  obtain ⟨hsx, rfl⟩ | ⟨hsx, rfl⟩ | ⟨hsx, rfl⟩ := hs
  · obtain ⟨hx2, hx3⟩ := first_only hmax hpos hsx
    obtain ⟨hty, rfl⟩ | ⟨hty, rfl⟩ | ⟨hty, rfl⟩ := ht
    · obtain ⟨hy2, hy3⟩ := first_only hmax hpos hty
      simp only [hsx, hx2, hx3, hty, hy2, hy3, Far, true_implies, false_implies, and_true]
      omega
    · obtain ⟨hy1, hy3⟩ := second_only hmax hpos hty
      have hq := second_bounds hb hty
      simp only [hsx, hx2, hx3, hty, hy1, hy3, true_implies, false_implies, and_true, iff_true]
      omega
    · obtain ⟨hy1, hy2⟩ := around_only hmax hpos hty
      simp only [hsx, hx2, hx3, hty, hy1, hy2, true_implies, false_implies, and_true, true_and]
      omega
  · obtain ⟨hx1, hx3⟩ := second_only hmax hpos hsx
    obtain ⟨hty, rfl⟩ | ⟨hty, rfl⟩ | ⟨hty, rfl⟩ := ht
    · obtain ⟨hy2, hy3⟩ := first_only hmax hpos hty
      have hq := second_bounds hb hsx
      simp only [hsx, hx1, hx3, hty, hy2, hy3, true_implies, false_implies, and_true, iff_true]
      omega
    · obtain ⟨hy1, hy3⟩ := second_only hmax hpos hty
      simp only [hsx, hx1, hx3, hty, hy1, hy3, Far, true_implies, false_implies, and_true, true_and]
    · obtain ⟨hy1, hy2⟩ := around_only hmax hpos hty
      simp only [hsx, hx1, hx3, hty, hy1, hy2, Far, true_implies, false_implies, and_true, true_and]
  · obtain ⟨hx1, hx2⟩ := around_only hmax hpos hsx
    obtain ⟨hty, rfl⟩ | ⟨hty, rfl⟩ | ⟨hty, rfl⟩ := ht
    · obtain ⟨hy2, hy3⟩ := first_only hmax hpos hty
      simp only [hsx, hx1, hx2, hty, hy2, hy3, true_implies, false_implies, and_true, true_and]
      omega
    · obtain ⟨hy1, hy3⟩ := second_only hmax hpos hty
      simp only [hsx, hx1, hx2, hty, hy1, hy3, Far, true_implies, false_implies, true_and]
    · obtain ⟨hy1, hy2⟩ := around_only hmax hpos hty
      simp only [hsx, hx1, hx2, hty, hy1, hy2, Far, true_implies, false_implies, and_true, true_and]
      omega

theorem StartsAt.lands (h : StartsAt c base x s) : c.Lands base x :=
  h.imp And.left (Or.imp And.left And.left)

theorem StartsAt.subset (hb : 1 ≤ base ∧ base ≤ 4) (hx : 0 ≤ x) (h : StartsAt c base x s) :
    group base s ⊆ c.canvases := by
  obtain ⟨hin, rfl⟩ | ⟨hin, rfl⟩ | ⟨hin, rfl⟩ := h
  · exact group_subset_of_first hx hin
  · exact group_subset_of_second hb hin
  · exact group_subset_of_around hin

theorem StartsAt.not_refused (hb : 1 ≤ base ∧ base ≤ 4) (hmax : c.max1 ≤ 0xff)
    (h : StartsAt c base x s) : ¬ c.Refused base x := fun h' => by
  have hle := c.rdma_le
  have hlt := c.max2_lt
  have hst := c.start_le
  have h1 := c.whole_le (by omega : 0 < base)
  have h2 := c.lt_whole (by omega : 0 < base)
  rw [CanvasRange.Refused] at h'
  obtain ⟨hin, -⟩ | ⟨hin, -⟩ | ⟨hin, -⟩ := h
  · rw [CanvasRange.InFirst] at hin
    omega
  · rw [CanvasRange.InSecond] at hin
    omega
  · rw [CanvasRange.Around] at hin
    omega

/-- `getCanvasStart_cases` with the places where a word lands in one. -/
theorem getCanvasStart_lands (hb : 1 ≤ base ∧ base ≤ 4) (hmax : c.max1 ≤ 0xff)
    (hx : x = u32 (index * base)) :
    (c.Refused base x ∧ getCanvasStart c index base = none) ∨
    (¬ c.Refused base x ∧ ∃ s, getCanvasStart c index base = some s ∧
      (StartsAt c base x s ∨ ¬ c.Lands base x ∧ ¬ group base s ⊆ c.canvases)) := by
  rcases getCanvasStart_cases hb hmax hx with ⟨hin, h⟩ | ⟨hin, h⟩ | ⟨hin, h⟩ | h | ⟨hnot, hr, s, h, hs⟩
  · have hat : StartsAt c base x _ := .inl ⟨hin, rfl⟩
    exact .inr ⟨hat.not_refused hb hmax, _, h, .inl hat⟩
  · have hat : StartsAt c base x _ := .inr (.inl ⟨hin, rfl⟩)
    exact .inr ⟨hat.not_refused hb hmax, _, h, .inl hat⟩
  · have hat : StartsAt c base x _ := .inr (.inr ⟨hin, rfl⟩)
    exact .inr ⟨hat.not_refused hb hmax, _, h, .inl hat⟩
  · exact .inl h
  · exact .inr ⟨hr, s, h, .inr ⟨hnot, hs⟩⟩

/-- Two indices have sound groups exactly when one of them is refused, or both land in the ranges and
apart. -/
theorem groupsSound_iff {i j : Int} (hb : 1 ≤ base ∧ base ≤ 4) (hmax : c.max1 ≤ 0xff) :
    GroupsSound c base i j ↔
      c.Refused base (u32 (i * base)) ∨ c.Refused base (u32 (j * base)) ∨
        (c.Lands base (u32 (i * base)) ∧ c.Lands base (u32 (j * base)) ∧
          c.Apart base (u32 (i * base)) (u32 (j * base))) := by
  have hword (p : Int) : 0 ≤ u32 p ∧ u32 p < 2 ^ 32 := by
    simp only [u32]
    omega
  obtain ⟨hri, hi⟩ | ⟨hri, s, hi, hs⟩ := getCanvasStart_lands hb hmax (Eq.refl (u32 (i * base)))
  · exact ⟨fun _ => .inl hri, fun _ s t hs => by rw [hi] at hs; cases hs⟩
  obtain ⟨hrj, hj⟩ | ⟨hrj, t, hj, ht⟩ := getCanvasStart_lands hb hmax (Eq.refl (u32 (j * base)))
  · exact ⟨fun _ => .inr (.inl hrj), fun _ s t _ ht => by rw [hj] at ht; cases ht⟩
  constructor
  · intro h
    obtain ⟨hdisj, hsub, hsub'⟩ := h s t hi hj
    have hs := hs.resolve_right fun h => h.2 hsub
    have ht := ht.resolve_right fun h => h.2 hsub'
    exact .inr (.inr ⟨hs.lands, ht.lands,
      (disjoint_iff_apart hb hmax (hword _) (hword _) hs ht).mp hdisj⟩)
  · rintro (h | h | ⟨hli, hlj, hapart⟩) s' t' hi' hj'
    · exact absurd h hri
    · exact absurd h hrj
    · obtain rfl : s = s' := Option.some.inj (hi.symm.trans hi')
      obtain rfl : t = t' := Option.some.inj (hj.symm.trans hj')
      have hs := hs.resolve_right fun h => h.1 hli
      have ht := ht.resolve_right fun h => h.1 hlj
      exact ⟨(disjoint_iff_apart hb hmax (hword _) (hword _) hs ht).mpr hapart,
        hs.subset hb (hword _).1, ht.subset hb (hword _).1⟩

/-- A table with 72 canvases in the first range and 38 in the second one. -/
def sampleRange : CanvasRange where
  max2 := 0x25
  startIndex := 0x78
  max1 := 0xbf
  rdma_le := by decide
  max2_lt := by decide
  start_le := by decide

/-- The first group and the first one of the second range. -/
theorem groupsSound_iff_both_ranges : GroupsSound sampleRange 2 0 36 := by
  have hfirst : sampleRange.InFirst 2 (u32 (0 * 2)) := by decide +kernel
  have hsecond : sampleRange.InSecond 2 (u32 (36 * 2)) := by decide +kernel
  have hbase : (1 : Int) ≤ 2 ∧ (2 : Int) ≤ 4 := by decide
  have hmax : sampleRange.max1 ≤ 0xff := by decide
  refine (groupsSound_iff hbase hmax).mpr (.inr (.inr ⟨.inl hfirst, .inr (.inl hsecond), ?_⟩))
  obtain ⟨hx2, hx3⟩ := first_only hmax (by decide) hfirst
  have hy3 := not_around_of_second hmax (by decide) hsecond
  exact ⟨fun _ h => absurd hsecond (not_second_of_first (by decide) h), fun h => absurd h hx2,
    fun h => absurd h hx3, fun _ h => absurd h hy3, fun h => absurd h hx3, fun _ h => absurd h hy3,
    fun h => absurd h hx3⟩

/-- The second group of the second range starts inside the first one. -/
theorem second_range_overlaps :
    getCanvas sampleRange 36 2 = 0x010100 ∧ getCanvas sampleRange 37 2 = 0x020201 ∧
      ¬ GroupsSound sampleRange 2 36 37 := by
  refine ⟨by decide +kernel, by decide +kernel, fun h => ?_⟩
  have hi : getCanvasStart sampleRange 36 2 = some 0 := by decide +kernel
  have hj : getCanvasStart sampleRange 37 2 = some 1 := by decide +kernel
  have hfar := group_disjoint_iff.mp (h 0 1 hi hj).1
  omega

/-! ## The bytes of the result -/

/-- There are few groups of byte-sized canvases. -/
theorem packCanvas_bytes : ∀ b : Fin 4, ∀ n : Fin 256, n.val + b.val < 256 → ∀ k : Fin 4, k ≤ b →
    (packCanvas (b.val + 1) n.val).toNat / 256 ^ k.val % 256 = n.val + k.val := by
  decide +kernel

/-- A group is read back byte by byte. -/
theorem packCanvas_byte (hb : 1 ≤ base ∧ base ≤ 4) (h0 : 0 ≤ s) (hs : s + base ≤ 256) {k : Nat}
    (hk : k < base) : (((packCanvas base s).toNat / 256 ^ k % 256 : Nat) : Int) = s + k := by
  obtain ⟨n, rfl⟩ := Int.eq_ofNat_of_zero_le h0
  obtain ⟨b, rfl⟩ : ∃ b : Nat, base = b + 1 := ⟨(base - 1).toNat, by omega⟩
  have hbyte := packCanvas_bytes ⟨b, by omega⟩ ⟨n, by omega⟩ (by simp only; omega) ⟨k, by omega⟩
    (by simp only [Fin.mk_le_mk]; omega)
  simp only at hbyte
  rw [hbyte]
  exact Int.natCast_add n k

/-- Where a group lies in the ranges, `getCanvas` returns its canvases. -/
theorem getCanvas_byte (hb : 1 ≤ base ∧ base ≤ 4) (hmax : c.max1 ≤ 0xff)
    (hs : getCanvasStart c index base = some s) (hsub : group base s ⊆ c.canvases) {k : Nat}
    (hk : k < base) :
    (((BitVec.ofInt 32 (getCanvas c index base)).toNat / 256 ^ k % 256 : Nat) : Int) = s + k := by
  have hlt := c.max2_lt
  have hst := c.start_le
  have hfirst := mem_canvases.mp (hsub (mem_group.mpr (by omega : s ≤ s ∧ s < s + base)))
  have hlast := mem_canvases.mp
    (hsub (mem_group.mpr (by omega : s ≤ s + base - 1 ∧ s + base - 1 < s + base)))
  rw [getCanvas, hs, BitVec.ofInt_toInt]
  exact packCanvas_byte hb (by omega) (by omega) hk

end MediaModules.Canvas
