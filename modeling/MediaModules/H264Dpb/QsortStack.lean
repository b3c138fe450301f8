import MediaModules.H264Dpb.Qsort

/-!
# The stack of `qsort`

What is left to sort is the stack of pending sub-arrays: two elements out of order always lie
in one of them. Every pass keeps that and leaves less work.
-/
namespace MediaModules.H264Dpb.Qsort

open MediaModules.Lib.Rearrange

variable {α : Type*} [Inhabited α] {comp : α → α → Int} {key : α → Int}

/-- The work a sub-array still takes. -/
def work (stack : List (Nat × Nat)) : Nat := (stack.map fun r => 2 * (r.2 - r.1) + 1).sum

/-- The sub-arrays left to sort: they lie in the array, apart from each other, and two elements
out of order lie in one of them. -/
structure Pending (key : α → Int) (a : List α) (stack : List (Nat × Nat)) : Prop where
  bounds : ∀ r ∈ stack, r.1 < r.2 ∧ r.2 < a.length
  apart : stack.Pairwise fun r t => r.2 < t.1 ∨ t.2 < r.1
  ordered : ∀ i j, i ≤ j → j < a.length →
    key (item a i) ≤ key (item a j) ∨ ∃ r ∈ stack, r.1 ≤ i ∧ j ≤ r.2

theorem Pending.perm {a : List α} {stack stack' : List (Nat × Nat)} (h : Pending key a stack)
    (hp : stack'.Perm stack) : Pending key a stack' := by
  refine ⟨fun r hr => h.bounds r (hp.mem_iff.mp hr), ?_, fun i j hij hj => ?_⟩
  · exact (hp.pairwise_iff (by intro r t hrt; exact hrt.symm)).mpr h.apart
  · rcases h.ordered i j hij hj with ho | ⟨r, hr, hri⟩
    · exact Or.inl ho
    · exact Or.inr ⟨r, hp.mem_iff.mpr hr, hri⟩

theorem work_perm {stack stack' : List (Nat × Nat)} (hp : stack'.Perm stack) :
    work stack' = work stack := (hp.map _).sum_nat

/-- The parts `[lo, h]` and `[l, hi]` of a sub-array, as far as they need sorting. -/
def parts (lo h l hi : Nat) : List (Nat × Nat) :=
  (if lo < h then [(lo, h)] else []) ++ (if l < hi then [(l, hi)] else [])

theorem mem_parts {lo h l hi : Nat} {r : Nat × Nat} :
    r ∈ parts lo h l hi ↔ (lo < h ∧ r = (lo, h)) ∨ (l < hi ∧ r = (l, hi)) := by
  unfold parts
  rw [List.mem_append]
  apply or_congr <;> split <;> simp [*]

/-- A sub-array is rearranged so that two elements of it out of order lie in one of its parts:
the rest of the array takes no notice. -/
theorem Pending.split {a b : List α} {lo hi : Nat} {stack front : List (Nat × Nat)}
    (h : Pending key a ((lo, hi) :: stack)) (hw : Within lo hi a b)
    (hin : ∀ r ∈ front, lo ≤ r.1 ∧ r.1 < r.2 ∧ r.2 ≤ hi)
    (hapart : front.Pairwise fun r t => r.2 < t.1 ∨ t.2 < r.1)
    (hord : ∀ i j, lo ≤ i → i ≤ j → j ≤ hi →
      key (item b i) ≤ key (item b j) ∨ ∃ r ∈ front, r.1 ≤ i ∧ j ≤ r.2) :
    Pending key b (front ++ stack) := by
  have hhi : hi < a.length := (h.bounds _ List.mem_cons_self).2
  have hfar := (List.pairwise_cons.mp h.apart).1
  -- a pair with only one end in `[lo, hi]` cannot lie in another pending sub-array
  have hother : ∀ i j, i ≤ j → j < a.length → (¬ (lo ≤ i ∧ j ≤ hi)) →
      key (item a i) ≤ key (item a j) ∨ ∃ r ∈ stack, r.1 ≤ i ∧ j ≤ r.2 := by
    intro i j hij hj hn
    rcases h.ordered i j hij hj with ho | ⟨r, hr, h1, h2⟩
    · exact Or.inl ho
    · rcases List.mem_cons.mp hr with rfl | hr
      · exact absurd ⟨h1, h2⟩ hn
      · exact Or.inr ⟨r, hr, h1, h2⟩
  refine ⟨fun r hr => ?_, ?_, fun i j hij hj => ?_⟩
  · rcases List.mem_append.mp hr with hr | hr
    · obtain ⟨h1, h2, h3⟩ := hin r hr
      exact ⟨h2, by rw [hw.length_eq]; omega⟩
    · obtain ⟨h1, h2⟩ := h.bounds r (List.mem_cons_of_mem _ hr)
      exact ⟨h1, by rw [hw.length_eq]; exact h2⟩
  · refine List.pairwise_append.mpr ⟨hapart, (List.pairwise_cons.mp h.apart).2, fun r hr t ht => ?_⟩
    obtain ⟨h1, h2, h3⟩ := hin r hr
    rcases hfar t ht with hd | hd
    · exact Or.inl (Nat.lt_of_le_of_lt h3 hd)
    · exact Or.inr (Nat.lt_of_lt_of_le hd h1)
  · rw [hw.length_eq] at hj
    by_cases hi1 : lo ≤ i ∧ i ≤ hi
    · by_cases hj1 : j ≤ hi
      · rcases hord i j hi1.1 hij hj1 with ho | ⟨r, hr, hri⟩
        · exact Or.inl ho
        · exact Or.inr ⟨r, List.mem_append_left _ hr, hri⟩
      · obtain ⟨m, hm1, hm2, hm⟩ := hw.inside hi1.1 hi1.2
        rw [hm, hw.outside (Or.inr (by omega))]
        rcases hother m j (by omega) hj (by omega) with ho | ⟨r, hr, h1, h2⟩
        · exact Or.inl ho
        · have hd := hfar r hr
          dsimp only at hd
          omega
    · by_cases hj1 : lo ≤ j ∧ j ≤ hi
      · obtain ⟨m, hm1, hm2, hm⟩ := hw.inside hj1.1 hj1.2
        rw [hm, hw.outside (by omega)]
        rcases hother i m (by omega) (by omega) (by omega) with ho | ⟨r, hr, h1, h2⟩
        · exact Or.inl ho
        · have hd := hfar r hr
          dsimp only at hd
          omega
      · rw [hw.outside (by omega), hw.outside (by omega)]
        rcases hother i j hij hj (by omega) with ho | ⟨r, hr, hri⟩
        · exact Or.inl ho
        · exact Or.inr ⟨r, List.mem_append_right _ hr, hri⟩

/-- What one pass does to its sub-array. -/
structure Passed (key : α → Int) (a : List α) (lo hi : Nat) (stack : List (Nat × Nat))
    (r : List α × List (Nat × Nat)) (front : List (Nat × Nat)) : Prop where
  within : Within lo hi a r.1
  stack_perm : r.2.Perm (front ++ stack)
  inside : ∀ t ∈ front, lo ≤ t.1 ∧ t.1 < t.2 ∧ t.2 ≤ hi
  apart : front.Pairwise fun t u => t.2 < u.1 ∨ u.2 < t.1
  ordered : ∀ i j, lo ≤ i → i ≤ j → j ≤ hi →
    key (item r.1 i) ≤ key (item r.1 j) ∨ ∃ t ∈ front, t.1 ≤ i ∧ j ≤ t.2
  work_lt : work front < 2 * (hi - lo) + 1

theorem pass_short (hc : Orders comp key) {a : List α} {lo hi : Nat} {stack : List (Nat × Nat)}
    (hlo : lo < hi) (hhi : hi < a.length) (hsize : hi - lo + 1 ≤ 8) :
    Passed key a lo hi stack (pass comp a lo hi stack) [] := by
  have hr : pass comp a lo hi stack = (shortsort comp a lo (hi - lo), stack) := if_pos hsize
  have he : lo + (hi - lo) = hi := by omega
  obtain ⟨hw, hs⟩ := shortsort_spec hc a lo (hi - lo) (by omega)
  rw [he] at hw hs
  rw [hr]
  exact ⟨hw, List.Perm.refl _, by simp, List.Pairwise.nil, fun i j h1 h2 h3 => Or.inl (hs i j h1 h2 h3),
    by show 0 < _; omega⟩

theorem pass_long (hc : Orders comp key) {a : List α} {lo hi : Nat} {stack : List (Nat × Nat)}
    (hhi : hi < a.length) (hsize : ¬ hi - lo + 1 ≤ 8) :
    ∃ front, Passed key a lo hi stack (pass comp a lo hi stack) front := by
  have hmid1 : lo < lo + (hi - lo + 1) / 2 := by omega
  have hmid2 : lo + (hi - lo + 1) / 2 < hi := by omega
  obtain ⟨m1, m2, m3⟩ := medianOfThree_spec hc a hmid1 hmid2 hhi
  have htop : AtTop key lo hi
      { a := medianOfThree comp a lo (lo + (hi - lo + 1) / 2) hi, mid := lo + (hi - lo + 1) / 2,
        loguy := lo, higuy := hi } := by
    refine ⟨Nat.le_refl lo, by dsimp only; omega, by dsimp only; omega, by dsimp only; omega,
      Nat.le_refl hi, by rw [m1.length_eq]; exact hhi, fun k h1 h2 => ?_, fun k h1 h2 => ?_, m3⟩
    · have hk : k = lo := Nat.le_antisymm h2 h1
      rw [hk]
      exact m2
    · exact absurd h2 (Nat.not_lt.mpr h1)
  obtain ⟨pw, pp⟩ := partition_spec hc (hi - lo + 1) _ htop (by dsimp only; omega)
  generalize hg : partition comp hi (hi - lo + 1)
    { a := medianOfThree comp a lo (lo + (hi - lo + 1) / 2) hi, mid := lo + (hi - lo + 1) / 2,
      loguy := lo, higuy := hi } = g at pw pp
  obtain ⟨q1, q2, q3, q4, q5, q6, q7, q8⟩ := pp
  obtain ⟨e1, e2, e3⟩ := skipEqual_spec hc g.a q1 q2
  generalize hh : skipEqual comp g.a g.mid lo g.higuy = h at e1 e2 e3
  -- the three parts of the array after the partition
  have hlow : ∀ k, lo ≤ k → k < g.loguy → key (item g.a k) ≤ key (item g.a g.mid) := q6
  have hmidpart : ∀ k, h < k → k < g.loguy → k ≤ hi → key (item g.a g.mid) ≤ key (item g.a k) := by
    intro k h1 h2 h3
    by_cases hk : k ≤ g.higuy
    · exact Int.le_of_eq (e3 k h1 hk).symm
    · by_cases hk' : k = hi
      · rw [hk']
        exact q8
      · exact Int.le_of_lt (q7 k (by omega) (by omega))
  have hhigh : ∀ k, g.loguy ≤ k → k ≤ hi → key (item g.a g.mid) ≤ key (item g.a k) := by
    intro k h1 h2
    by_cases hk' : k = hi
    · rw [hk']
      exact q8
    · exact Int.le_of_lt (q7 k (by omega) (by omega))
  have hres : (pass comp a lo hi stack).1 = g.a ∧
      (pass comp a lo hi stack).2.Perm (parts lo h g.loguy hi ++ stack) := by
    unfold pass
    simp only [if_neg hsize, hg, hh]
    unfold parts
    by_cases hbig : h - lo ≥ hi - g.loguy
    · rw [if_pos hbig]
      refine ⟨rfl, ?_⟩
      by_cases h1 : lo < h <;> by_cases h2 : g.loguy < hi <;> simp [h1, h2]
      exact List.Perm.swap _ _ _
    · rw [if_neg hbig]
      refine ⟨rfl, ?_⟩
      by_cases h1 : lo < h <;> by_cases h2 : g.loguy < hi <;> simp [h1, h2]
  refine ⟨parts lo h g.loguy hi, ?_, hres.2, ?_, ?_, ?_, ?_⟩
  · rw [hres.1]
    exact m1.trans pw
  · intro t ht
    rcases mem_parts.mp ht with ⟨h1, rfl⟩ | ⟨h1, rfl⟩
    · exact ⟨Nat.le_refl lo, h1, by omega⟩
    · exact ⟨by dsimp only; omega, h1, Nat.le_refl hi⟩
  · unfold parts
    by_cases h1 : lo < h <;> by_cases h2 : g.loguy < hi <;> simp [h1, h2]
    omega
  · rw [hres.1]
    intro i j h1 h2 h3
    by_cases hih : i ≤ h
    · by_cases hjh : j ≤ h
      · by_cases hij : i = j
        · rw [hij]
          exact Or.inl (Int.le_refl _)
        · exact Or.inr ⟨(lo, h), mem_parts.mpr (Or.inl ⟨by omega, rfl⟩), h1, hjh⟩
      · refine Or.inl (Int.le_trans (hlow i h1 (by omega)) ?_)
        by_cases hjl : j < g.loguy
        · exact hmidpart j (by omega) hjl h3
        · exact hhigh j (by omega) h3
    · by_cases hil : i < g.loguy
      · refine Or.inl (Int.le_trans (hlow i h1 hil) ?_)
        by_cases hjl : j < g.loguy
        · exact hmidpart j (by omega) hjl h3
        · exact hhigh j (by omega) h3
      · by_cases hij : i = j
        · rw [hij]
          exact Or.inl (Int.le_refl _)
        · exact Or.inr ⟨(g.loguy, hi), mem_parts.mpr (Or.inr ⟨by omega, rfl⟩), by dsimp only; omega, h3⟩
  · unfold parts work
    by_cases h1 : lo < h <;> by_cases h2 : g.loguy < hi <;> simp [h1, h2] <;> omega

/-- A pass rearranges the array, keeps the pending sub-arrays in order and leaves less work. -/
theorem pass_pending (hc : Orders comp key) {a : List α} {lo hi : Nat} {stack : List (Nat × Nat)}
    (h : Pending key a ((lo, hi) :: stack)) :
    (pass comp a lo hi stack).1.Perm a ∧
      Pending key (pass comp a lo hi stack).1 (pass comp a lo hi stack).2 ∧
      work (pass comp a lo hi stack).2 < work ((lo, hi) :: stack) := by
  obtain ⟨hlt, hhi⟩ := h.bounds _ List.mem_cons_self
  have hpass : ∃ front, Passed key a lo hi stack (pass comp a lo hi stack) front := by
    by_cases hsize : hi - lo + 1 ≤ 8
    · exact ⟨[], pass_short hc hlt hhi hsize⟩
    · exact pass_long hc hhi hsize
  obtain ⟨front, hf⟩ := hpass
  refine ⟨hf.within.toPerm hhi, (h.split hf.within hf.inside hf.apart hf.ordered).perm hf.stack_perm, ?_⟩
  have hlt := hf.work_lt
  rw [work_perm hf.stack_perm]
  simp only [work, List.map_append, List.sum_append, List.map_cons, List.sum_cons] at hlt ⊢
  omega

theorem loop_spec (hc : Orders comp key) (fuel : Nat) (a : List α) (stack : List (Nat × Nat))
    (h : Pending key a stack) (hfuel : work stack ≤ fuel) :
    (loop comp fuel a stack).Perm a ∧ Pending key (loop comp fuel a stack) [] := by
  induction fuel generalizing a stack with
  | zero =>
    cases stack with
    | nil => exact ⟨List.Perm.refl a, h⟩
    | cons r stack =>
      simp only [work, List.map_cons, List.sum_cons] at hfuel
      omega
  | succ fuel ih =>
    cases stack with
    | nil => exact ⟨List.Perm.refl a, h⟩
    | cons r stack =>
      obtain ⟨lo, hi⟩ := r
      obtain ⟨h1, h2, h3⟩ := pass_pending hc h
      obtain ⟨h4, h5⟩ := ih _ _ h2 (by omega)
      exact ⟨h4.trans h1, h5⟩

/-- `qsort` permutes the array and puts it in order. -/
theorem qsort_spec (hc : Orders comp key) (xs : List α) :
    (qsort comp xs).Perm xs ∧ (qsort comp xs).Pairwise fun x y => key x ≤ key y := by
  unfold qsort
  by_cases hlen : xs.length < 2
  · rw [if_pos hlen]
    refine ⟨List.Perm.refl xs, ?_⟩
    match xs, hlen with
    | [], _ => exact List.Pairwise.nil
    | [x], _ => exact List.pairwise_singleton _ x
  · rw [if_neg hlen]
    have hstart : Pending key xs [(0, xs.length - 1)] := by
      refine ⟨fun r hr => ?_, List.pairwise_singleton _ _, fun i j h1 h2 => ?_⟩
      · rw [List.mem_singleton.mp hr]
        dsimp only
        omega
      · exact Or.inr ⟨_, List.mem_singleton_self _, Nat.zero_le i, by dsimp only; omega⟩
    have hwork : work [(0, xs.length - 1)] ≤ 2 * xs.length := by
      show 2 * (xs.length - 1 - 0) + 1 + 0 ≤ _
      omega
    obtain ⟨hp, hs⟩ := loop_spec hc (2 * xs.length) xs _ hstart hwork
    refine ⟨hp, List.pairwise_iff_getElem.mpr fun i j hi hj hij => ?_⟩
    rcases hs.ordered i j (by omega) hj with ho | ⟨r, hr, _⟩
    · simpa [item, hi, hj] using ho
    · exact absurd hr (by simp)

end MediaModules.H264Dpb.Qsort
