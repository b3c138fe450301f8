import MediaModules.H264Dpb.RefLists
import Mathlib.Data.List.Nodup
import Mathlib.Data.List.Perm.Subperm

/-!
# What the initial reference picture lists are

The initialisation process for reference picture lists in its own terms: which pictures are
eligible, in which order they stand, and how fields alternate. The lists of the code agree with
it exactly when no picture slips in, or out, by a flag the code does not look at.
-/
namespace MediaModules.H264Dpb

open MediaModules.H264Dpb.Qsort

/-- The other parity. -/
def PictureStructure.opposite : PictureStructure → PictureStructure
  | .topField => .bottomField
  | .bottomField => .topField
  | .frame => .frame

/-- Two lists in turn, the first one first, until one runs out. -/
def alternate : List Nat → List Nat → List Nat
  | [], ys => ys
  | xs, [] => xs
  | x :: xs, y :: ys => x :: y :: alternate xs ys

/-- Exchange the first two entries. -/
def swapFirstTwo : List Nat → List Nat
  | a :: b :: rest => b :: a :: rest
  | short => short

/-- Marked as a short-term reference. -/
def StorablePicture.shortTerm (p : StorablePicture) : Bool := p.usedForReference && !p.isLongTerm

/-- Marked as a long-term reference. -/
def StorablePicture.longTerm (p : StorablePicture) : Bool := p.usedForReference && p.isLongTerm

namespace Dpb

variable (s : Dpb)

section Spec

/-- The frame, or complementary field pair, of a store if it is complete and so marked. -/
def eligibleFrame (marked : StorablePicture → Bool) (i : Nat) : Option Nat :=
  (s.stores i).frame.filter fun p => (s.stores i).isUsed = .both && marked (s.pics p)

/-- The field of the parity of a store, if the store has it and it is so marked. -/
def eligibleField (marked : StorablePicture → Bool) (parity : PictureStructure) (i : Nat) :
    Option Nat :=
  match parity with
  | .topField =>
    (s.stores i).topField.filter fun p => (s.stores i).isUsed.top && marked (s.pics p)
  | .bottomField =>
    (s.stores i).bottomField.filter fun p => (s.stores i).isUsed.bottom && marked (s.pics p)
  | .frame => none

/-- A store with a field so marked. -/
def holdsField (marked : StorablePicture → Bool) (i : Nat) : Bool :=
  (s.eligibleField marked .topField i).isSome || (s.eligibleField marked .bottomField i).isSome

/-- The fields of the stores in alternating parity. -/
def alternatingFields (marked : StorablePicture → Bool) (stores : List Nat) : List Nat :=
  alternate (stores.filterMap (s.eligibleField marked s.mSlice.picStructure))
    (stores.filterMap (s.eligibleField marked s.mSlice.picStructure.opposite))

/-- The long-term part of the list of a frame slice. -/
structure LongTermFrames (list : List Nat) : Prop where
  eligible : list.Perm (s.fsLtref.filterMap (s.eligibleFrame StorablePicture.longTerm))
  order : list.Pairwise fun p q => (s.pics p).longTermPicNum ≤ (s.pics q).longTermPicNum

/-- The stores behind the long-term part of the list of a field slice. -/
structure LongTermStores (stores : List Nat) : Prop where
  eligible : stores.Perm (s.fsLtref.filter (s.holdsField StorablePicture.longTerm))
  order : stores.Pairwise fun i j => (s.stores i).longTermFrameIdx ≤ (s.stores j).longTermFrameIdx

/-- The list of a P slice of a frame. -/
def FrameListP (list0 : List Nat) : Prop :=
  ∃ short long : List Nat, list0 = short ++ long ∧
    short.Perm (s.fsRef.filterMap (s.eligibleFrame StorablePicture.shortTerm)) ∧
    (short.Pairwise fun p q => (s.pics q).picNum ≤ (s.pics p).picNum) ∧ s.LongTermFrames long

/-- The list of a P slice of a field. -/
def FieldListP (list0 : List Nat) : Prop :=
  ∃ short long : List Nat,
    list0 = s.alternatingFields StorablePicture.shortTerm short ++
      s.alternatingFields StorablePicture.longTerm long ∧
    short.Perm (s.fsRef.filter (s.holdsField StorablePicture.shortTerm)) ∧
    (short.Pairwise fun i j => (s.stores j).frameNumWrap ≤ (s.stores i).frameNumWrap) ∧
    s.LongTermStores long

/-- Entries up to the current POC from the nearest one downwards, and those above it from the
nearest one upwards. -/
structure AroundPoc (poc : Nat → Int) (current : Int) (all before behind : List Nat) : Prop where
  before_eligible : before.Perm (all.filter fun x => poc x ≤ current)
  before_order : before.Pairwise fun x y => poc y ≤ poc x
  behind_eligible : behind.Perm (all.filter fun x => current < poc x)
  behind_order : behind.Pairwise fun x y => poc x ≤ poc y

/-- The second list, its first two entries exchanged when it would be the first list again. -/
def secondList (list0 list1 : List Nat) : List Nat :=
  if list1.length > 1 ∧ list1 = list0 then swapFirstTwo list1 else list1

/-- The lists of a B slice of a frame. -/
def FrameListsB (lists : List Nat × List Nat) : Prop :=
  ∃ before behind long : List Nat,
    AroundPoc (fun p => (s.pics p).poc) s.mSlice.framepoc
      (s.fsRef.filterMap (s.eligibleFrame StorablePicture.shortTerm)) before behind ∧
    s.LongTermFrames long ∧ lists.1 = before ++ behind ++ long ∧
    lists.2 = secondList lists.1 (behind ++ before ++ long)

/-- The lists of a B slice of a field. -/
def FieldListsB (lists : List Nat × List Nat) : Prop :=
  ∃ before behind long : List Nat,
    AroundPoc (fun i => (s.stores i).poc) s.mSlice.thisPOC
      (s.fsRef.filter (s.holdsField StorablePicture.shortTerm)) before behind ∧
    s.LongTermStores long ∧
    lists.1 = s.alternatingFields StorablePicture.shortTerm (before ++ behind) ++
      s.alternatingFields StorablePicture.longTerm long ∧
    lists.2 = secondList lists.1 (s.alternatingFields StorablePicture.shortTerm (behind ++ before) ++
      s.alternatingFields StorablePicture.longTerm long)

/-- The initial lists of a slice: the right entries in the right order, and none twice. -/
def InitialLists (t : SliceType) (lists : List Nat × List Nat) : Prop :=
  (match s.mSlice.picStructure, t with
    | .frame, .pSlice => s.FrameListP lists.1 ∧ lists.2 = []
    | _, .pSlice => s.FieldListP lists.1 ∧ lists.2 = []
    | .frame, .bSlice => s.FrameListsB lists
    | _, .bSlice => s.FieldListsB lists
    | _, .other => lists = ([], [])) ∧
  lists.1.Nodup ∧ lists.2.Nodup

end Spec

/-- The reference frame stores form sets, and no picture is part of two of them. -/
structure RefSet : Prop where
  ref_nodup : s.fsRef.Nodup
  ltref_nodup : s.fsLtref.Nodup
  ref_lt : ∀ i ∈ s.fsRef, i < DPB_SIZE_MAX
  ltref_lt : ∀ i ∈ s.fsLtref, i < DPB_SIZE_MAX
  frame_inj : ∀ i ∈ s.fsRef ++ s.fsLtref, ∀ j ∈ s.fsRef ++ s.fsLtref, ∀ p,
    (s.stores i).frame = some p → (s.stores j).frame = some p → i = j
  top_inj : ∀ i ∈ s.fsRef ++ s.fsLtref, ∀ j ∈ s.fsRef ++ s.fsLtref, ∀ p,
    (s.stores i).topField = some p → (s.stores j).topField = some p → i = j
  bottom_inj : ∀ i ∈ s.fsRef ++ s.fsLtref, ∀ j ∈ s.fsRef ++ s.fsLtref, ∀ p,
    (s.stores i).bottomField = some p → (s.stores j).bottomField = some p → i = j
  top_ne_bottom : ∀ i ∈ s.fsRef ++ s.fsLtref, ∀ j ∈ s.fsRef ++ s.fsLtref, ∀ p,
    (s.stores i).topField = some p → (s.stores j).bottomField ≠ some p

/-- No picture slips into the lists, or out of them, by a flag the code does not look at: in a
frame slice no long-term frame that is not used for reference, in a P slice of a field no
short-term field of a store without a reference mark. -/
def NoStray (t : SliceType) : Prop :=
  match s.mSlice.picStructure, t with
  | .frame, .pSlice | .frame, .bSlice =>
    ∀ i ∈ s.fsLtref, ∀ p, (s.stores i).frame = some p → (s.stores i).isUsed = .both →
      (s.pics p).isLongTerm = true → (s.pics p).usedForReference = true
  | .topField, .pSlice | .bottomField, .pSlice =>
    ∀ i ∈ s.fsRef, s.holdsField StorablePicture.shortTerm i = true →
      (s.stores i).isReference ≠ .empty
  | _, _ => True

end Dpb

/-! ## The alternation -/

theorem alternate_nil_right (xs : List Nat) : alternate xs [] = xs := by
  cases xs <;> rfl

/-- One turn of the alternation. -/
theorem alternate_step (xs ys : List Nat) :
    alternate xs ys = xs.head?.toList ++ ys.head?.toList ++ alternate xs.tail ys.tail := by
  cases xs with
  | nil =>
    cases ys with
    | nil => rfl
    | cons y ys =>
      show y :: ys = y :: alternate [] ys
      rfl
  | cons x xs =>
    cases ys with
    | nil =>
      show x :: xs = x :: alternate xs []
      rw [alternate_nil_right]
    | cons y ys => rfl

theorem alternate_perm (xs ys : List Nat) : (alternate xs ys).Perm (xs ++ ys) := by
  induction xs generalizing ys with
  | nil => exact List.Perm.refl ys
  | cons x xs ih =>
    cases ys with
    | nil =>
      rw [alternate_nil_right, List.append_nil]
    | cons y ys =>
      show (x :: y :: alternate xs ys).Perm (x :: (xs ++ y :: ys))
      exact ((ih ys).cons y |>.trans List.perm_middle.symm).cons x

theorem nextField_spec (field : Nat → Option Nat) (idx : List Nat) :
    (nextField field idx).1 = (idx.filterMap field).head? ∧
      (nextField field idx).2.filterMap field = (idx.filterMap field).tail ∧
      (nextField field idx).2.length ≤ idx.length - 1 := by
  induction idx with
  | nil => exact ⟨rfl, rfl, Nat.le_refl 0⟩
  | cons i rest ih =>
    cases hf : field i with
    | some p =>
      have hn : nextField field (i :: rest) = (some p, rest) := by simp [nextField, hf]
      rw [hn]
      simp [hf]
    | none =>
      have hn : nextField field (i :: rest) = nextField field rest := by simp [nextField, hf]
      obtain ⟨h1, h2, h3⟩ := ih
      rw [hn, h1, h2]
      refine ⟨by simp [hf], by simp [hf], ?_⟩
      simp only [List.length_cons]
      omega

/-- The loop alternates the fields of the two parities. -/
theorem genFields_eq (first second : Nat → Option Nat) (fuel : Nat) (idx1 idx2 list : List Nat)
    (h1 : idx1.length < fuel) (h2 : idx2.length < fuel) :
    genFields first second fuel idx1 idx2 list =
      list ++ alternate (idx1.filterMap first) (idx2.filterMap second) := by
  induction fuel generalizing idx1 idx2 list with
  | zero => exact absurd h1 (Nat.not_lt_zero _)
  | succ fuel ih =>
    by_cases hnil : idx1 = [] ∧ idx2 = []
    · obtain ⟨rfl, rfl⟩ := hnil
      simp [genFields, alternate]
    · obtain ⟨a1, a2, a3⟩ := nextField_spec first idx1
      obtain ⟨b1, b2, b3⟩ := nextField_spec second idx2
      have hlen : idx1.length ≠ 0 ∨ idx2.length ≠ 0 := by
        rw [← not_and_or, List.length_eq_zero_iff, List.length_eq_zero_iff]
        exact hnil
      have hgo : genFields first second (fuel + 1) idx1 idx2 list =
          genFields first second fuel (nextField first idx1).2 (nextField second idx2).2
            (list ++ (nextField first idx1).1.toList ++ (nextField second idx2).1.toList) :=
        if_neg hnil
      rw [hgo, ih _ _ _ (by omega) (by omega), a1, b1, a2, b2,
        alternate_step (idx1.filterMap first) (idx2.filterMap second)]
      simp only [List.append_assoc]

/-! ## The comparison functions -/

theorem compareAsc_orders {α : Type*} (key : α → Int) :
    Orders (fun x y => Dpb.compareAsc (key x) (key y)) key := by
  constructor
  · intro x y
    unfold Dpb.compareAsc
    split
    · omega
    · split <;> omega
  · intro x y
    unfold Dpb.compareAsc
    split
    · omega
    · split <;> omega

theorem compareDesc_orders {α : Type*} (key : α → Int) :
    Orders (fun x y => Dpb.compareDesc (key x) (key y)) fun x => -key x := by
  constructor
  · intro x y
    unfold Dpb.compareDesc
    split
    · omega
    · split <;> omega
  · intro x y
    unfold Dpb.compareDesc
    split
    · omega
    · split <;> omega

theorem qsort_asc (key : Nat → Int) (xs : List Nat) :
    (qsort (fun x y => Dpb.compareAsc (key x) (key y)) xs).Perm xs ∧
      (qsort (fun x y => Dpb.compareAsc (key x) (key y)) xs).Pairwise fun x y => key x ≤ key y :=
  qsort_spec (compareAsc_orders key) xs

theorem qsort_desc (key : Nat → Int) (xs : List Nat) :
    (qsort (fun x y => Dpb.compareDesc (key x) (key y)) xs).Perm xs ∧
      (qsort (fun x y => Dpb.compareDesc (key x) (key y)) xs).Pairwise fun x y => key y ≤ key x := by
  obtain ⟨h1, h2⟩ := qsort_spec (compareDesc_orders key) xs
  exact ⟨h1, h2.imp fun h => by omega⟩

end MediaModules.H264Dpb
