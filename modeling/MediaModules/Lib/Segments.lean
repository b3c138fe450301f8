import Mathlib.Algebra.Order.BigOperators.Group.List
import Mathlib.Algebra.Order.Ring.Int
import Mathlib.Data.List.SplitBy
import Mathlib.Tactic.Common

/-!
# Descending numbers in segments

A list is broken where two neighbours are not related. In a list of descending numbers a segment goes
from its first number down to its last one; what the segments cover above a number leaves the gaps
between them out.
-/
namespace MediaModules.Lib.Segments

section Splitting

variable {α : Type*} {r : α → α → Bool} {a b : α} {l : List α}

/-- A break behind the first of the list. -/
theorem splitBy_cons_of_false (h : r a b = false) :
    (a :: b :: l).splitBy r = [a] :: (b :: l).splitBy r := by
  have hsplit := List.splitBy_append_cons (r := r) (l := [a]) (a := b) l fun x hx => by
    obtain rfl : a = x := by simpa using hx
    exact h
  exact hsplit

/-- The first segment of a list starts with its first element. -/
theorem splitBy_cons (r : α → α → Bool) (b : α) (l : List α) :
    ∃ s ss, (b :: l).splitBy r = (b :: s) :: ss := by
  have hflat := List.flatten_splitBy r (b :: l)
  cases hsplit : (b :: l).splitBy r with
  | nil => exact absurd (List.splitBy_eq_nil.mp hsplit) (List.cons_ne_nil b l)
  | cons first ss =>
    have hne : first ≠ [] :=
      List.ne_nil_of_mem_splitBy (hsplit ▸ List.mem_cons_self : first ∈ (b :: l).splitBy r)
    obtain ⟨c, s, rfl⟩ := List.exists_cons_of_ne_nil hne
    rw [hsplit, List.flatten_cons, List.cons_append] at hflat
    obtain rfl : c = b := (List.cons.inj hflat).1
    exact ⟨s, ss, rfl⟩

/-- No break: the first of the list joins the first segment of the others. -/
theorem splitBy_cons_of_true (h : r a b = true) :
    ∃ s ss, (b :: l).splitBy r = (b :: s) :: ss ∧
      (a :: b :: l).splitBy r = (a :: b :: s) :: ss := by
  obtain ⟨s, ss, hsplit⟩ := splitBy_cons r b l
  obtain ⟨hflat, hnil, hchain, hbreak⟩ := List.splitBy_eq_iff.mp hsplit
  refine ⟨s, ss, hsplit, List.splitBy_eq_iff.mpr ⟨?_, ?_, ?_, ?_⟩⟩
  · rw [hflat]
    rfl
  · intro hmem
    exact hnil (List.mem_cons_of_mem _ ((List.mem_cons.mp hmem).resolve_left (by simp)))
  · intro m hm
    rcases List.mem_cons.mp hm with rfl | hm
    · exact List.isChain_cons_cons.mpr ⟨h, hchain _ List.mem_cons_self⟩
    · exact hchain m (List.mem_cons_of_mem _ hm)
  · obtain ⟨hfirst, hrest⟩ := List.isChain_cons.mp hbreak
    refine List.isChain_cons.mpr ⟨fun m hm => ?_, hrest⟩
    obtain ⟨ha, hb, hr⟩ := hfirst m hm
    refine ⟨List.cons_ne_nil _ _, hb, ?_⟩
    rw [List.getLast_cons ha]
    exact hr

end Splitting

/-- The first number of a segment. -/
def highest (s : List Int) : Int := s.headD 0

/-- The last number of a segment. -/
def lowest (s : List Int) : Int := s.getLastD 0

/-- The number is not outside the segment. -/
def Covered (p : Int) (s : List Int) : Prop := lowest s ≤ p ∧ p ≤ highest s

instance (p : Int) (s : List Int) : Decidable (Covered p s) := inferInstanceAs (Decidable (_ ∧ _))

def width (s : List Int) : Int := highest s - lowest s

/-- The part of the first segment with the number in it that is not above it. -/
def below (p : Int) (ss : List (List Int)) : Int :=
  match ss.find? fun s => Covered p s with
  | none => 0
  | some s => p - lowest s

/-- The part of a segment above a number, all of it when the number is outside. -/
def above (p : Int) (s : List Int) : Int := if Covered p s then highest s - p else width s

section Descending

variable {p : Int} {s : List Int} {ss : List (List Int)}

theorem lowest_mem (hs : s ≠ []) : lowest s ∈ s := by
  rw [lowest, List.getLastD_eq_getLast?, List.getLast?_eq_getLast_of_ne_nil hs]
  exact List.getLast_mem hs

theorem highest_mem (hs : s ≠ []) : highest s ∈ s := by
  obtain ⟨a, l, rfl⟩ := List.exists_cons_of_ne_nil hs
  exact List.mem_cons_self

/-- A descending segment goes from its first number down to its last one. -/
theorem mem_bounds (h : s.Pairwise (· > ·)) {x : Int} (hx : x ∈ s) :
    lowest s ≤ x ∧ x ≤ highest s := by
  induction s with
  | nil => exact absurd hx List.not_mem_nil
  | cons a l ih =>
    obtain ⟨ha, hl⟩ := List.pairwise_cons.mp h
    cases l with
    | nil =>
      obtain rfl := List.mem_singleton.mp hx
      exact ⟨le_refl _, le_refl _⟩
    | cons b l =>
      have hlow : lowest (a :: b :: l) = lowest (b :: l) := rfl
      have hhigh : highest (a :: b :: l) = a := rfl
      rw [hlow, hhigh]
      rcases List.mem_cons.mp hx with rfl | hx
      · have hmem := lowest_mem (List.cons_ne_nil b l)
        exact ⟨Int.le_of_lt (ha _ hmem), le_refl _⟩
      · exact ⟨(ih hl hx).1, Int.le_of_lt (ha x hx)⟩

theorem width_nonneg (h : s.Pairwise (· > ·)) : 0 ≤ width s := by
  cases s with
  | nil => exact le_refl _
  | cons a l =>
    have hbounds := mem_bounds h List.mem_cons_self
    rw [width]
    omega

theorem width_eq_zero_iff (h : s.Pairwise (· > ·)) (hs : s ≠ []) : width s = 0 ↔ s.length = 1 := by
  obtain ⟨a, l, rfl⟩ := List.exists_cons_of_ne_nil hs
  cases l with
  | nil => exact iff_of_true (Int.sub_self a) rfl
  | cons b l =>
    refine iff_of_false ?_ (by simp)
    obtain ⟨ha, -⟩ := List.pairwise_cons.mp h
    have hlast := ha _ (lowest_mem (List.cons_ne_nil b l))
    have hwidth : width (a :: b :: l) = a - lowest (b :: l) := rfl
    omega

theorem above_nonneg (h : s.Pairwise (· > ·)) : 0 ≤ above p s := by
  have hwidth := width_nonneg h
  rw [above]
  split
  · next hin => exact Int.sub_nonneg.mpr hin.2
  · exact hwidth

/-- Nothing of a segment is above the number: it is the highest one, or outside a segment that has only
one. -/
theorem above_eq_zero_iff (h : s.Pairwise (· > ·)) (hs : s ≠ []) :
    above p s = 0 ↔ if Covered p s then p = highest s else s.length = 1 := by
  rw [above]
  split
  · omega
  · exact width_eq_zero_iff h hs

theorem sum_above_nonneg (h : ∀ s ∈ ss, s.Pairwise (· > ·)) : 0 ≤ (ss.map (above p)).sum := by
  refine List.sum_nonneg fun x hx => ?_
  obtain ⟨s, hs, rfl⟩ := List.mem_map.mp hx
  exact above_nonneg (h s hs)

theorem sum_above_eq_zero_iff (h : ∀ s ∈ ss, s.Pairwise (· > ·)) :
    (ss.map (above p)).sum = 0 ↔ ∀ s ∈ ss, above p s = 0 := by
  induction ss with
  | nil => simp
  | cons s ss ih =>
    obtain ⟨hs, hrest⟩ := List.forall_mem_cons.mp h
    have hfirst := above_nonneg (p := p) hs
    have hsum := sum_above_nonneg (p := p) hrest
    have hiff := ih hrest
    rw [List.map_cons, List.sum_cons, List.forall_mem_cons, ← hiff]
    omega

/-- No number is in two of the segments, so what the segments cover without the part of the one with the
number is what each has above it. -/
theorem covered_sub_below (h : ∀ s ∈ ss, s ≠ [])
    (hlower : ss.Pairwise fun s s' => ∀ a ∈ s, ∀ b ∈ s', a > b) :
    (ss.map width).sum - below p ss = (ss.map (above p)).sum := by
  induction ss with
  | nil => rfl
  | cons s ss ih =>
    obtain ⟨hfirst, hrest⟩ := List.pairwise_cons.mp hlower
    obtain ⟨hs, hne⟩ := List.forall_mem_cons.mp h
    have htail := ih hne hrest
    rw [List.map_cons, List.map_cons, List.sum_cons, List.sum_cons]
    by_cases hin : Covered p s
    · have hout : ∀ s' ∈ ss, ¬ Covered p s' := fun s' hs' hin' => by
        have hgap := hfirst s' hs' _ (lowest_mem hs) _ (highest_mem (hne s' hs'))
        have hlow := hin.1
        have hhigh := hin'.2
        omega
      have hzero : below p ss = 0 := by
        rw [below, List.find?_eq_none.mpr fun s' hs' => by simpa using hout s' hs']
      have hbelow : below p (s :: ss) = p - lowest s := by
        rw [below, List.find?_cons_of_pos (by simpa using hin)]
      have habove : above p s = highest s - p := if_pos hin
      rw [hbelow, habove, width]
      omega
    · have hbelow : below p (s :: ss) = below p ss := by
        rw [below, below, List.find?_cons_of_neg (by simpa using hin)]
      have habove : above p s = width s := if_neg hin
      rw [hbelow, habove]
      omega

end Descending

end MediaModules.Lib.Segments
