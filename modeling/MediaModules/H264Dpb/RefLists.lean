import MediaModules.H264Dpb.Types
import MediaModules.H264Dpb.QsortStack

/-!
# The initial reference picture lists

`init_lists_p_slice` and `init_lists_b_slice`, up to the point where the lists are cut to the
number of active entries, and the cut itself.
-/
namespace MediaModules.H264Dpb

namespace Dpb

variable (s : Dpb)

/-- `is_short_ref`. -/
def isShortRef (p : Option Nat) : Bool :=
  p.isSome && (s.pic p).usedForReference && !(s.pic p).isLongTerm

/-- `is_long_ref`. -/
def isLongRef (p : Option Nat) : Bool :=
  p.isSome && (s.pic p).usedForReference && (s.pic p).isLongTerm

section Comparators

/-- A three-way comparison of two numbers, ascending. -/
def compareAsc (x y : Int) : Int := if x < y then -1 else if x > y then 1 else 0

/-- A three-way comparison of two numbers, descending. -/
def compareDesc (x y : Int) : Int := if x < y then 1 else if x > y then -1 else 0

def comparePicByPicNumDesc (p q : Nat) : Int := compareDesc (s.pics p).picNum (s.pics q).picNum

def comparePicByLtPicNumAsc (p q : Nat) : Int :=
  compareAsc (s.pics p).longTermPicNum (s.pics q).longTermPicNum

def compareFsByFrameNumDesc (i j : Nat) : Int :=
  compareDesc (s.stores i).frameNumWrap (s.stores j).frameNumWrap

def compareFsByLtPicIdxAsc (i j : Nat) : Int :=
  compareAsc (s.stores i).longTermFrameIdx (s.stores j).longTermFrameIdx

def comparePicByPocAsc (p q : Nat) : Int := compareAsc (s.pics p).poc (s.pics q).poc

def comparePicByPocDesc (p q : Nat) : Int := compareDesc (s.pics p).poc (s.pics q).poc

def compareFsByPocAsc (i j : Nat) : Int := compareAsc (s.stores i).poc (s.stores j).poc

def compareFsByPocDesc (i j : Nat) : Int := compareDesc (s.stores i).poc (s.stores j).poc

end Comparators

/-- The top field of a frame store if the store has it and it passes the test. -/
def topRef (isRef : Option Nat → Bool) (i : Nat) : Option Nat :=
  if (s.stores i).isUsed.top && isRef (s.stores i).topField then (s.stores i).topField else none

/-- The bottom field of a frame store if the store has it and it passes the test. -/
def bottomRef (isRef : Option Nat → Bool) (i : Nat) : Option Nat :=
  if (s.stores i).isUsed.bottom && isRef (s.stores i).bottomField then (s.stores i).bottomField
  else none

end Dpb

/-- One of the inner loops of `gen_pic_list_from_frame_list`: go on to the next store that has
the field, and behind it. -/
def nextField (field : Nat → Option Nat) : List Nat → Option Nat × List Nat
  | [] => (none, [])
  | i :: rest =>
    match field i with
    | some p => (some p, rest)
    | none => nextField field rest

/-- The loop of `gen_pic_list_from_frame_list`: a field of the first parity, then one of the
second, each from where its parity has come to in the list of stores. -/
def genFields (first second : Nat → Option Nat) : Nat → List Nat → List Nat → List Nat → List Nat
  | 0, _, _, list => list
  | fuel + 1, idx1, idx2, list =>
    if idx1 = [] ∧ idx2 = [] then list
    else
      let r1 := nextField first idx1
      let r2 := nextField second idx2
      genFields first second fuel r1.2 r2.2 (list ++ r1.1.toList ++ r2.1.toList)

namespace Dpb

variable (s : Dpb)

/-- `gen_pic_list_from_frame_list`. Every turn of the loop takes a store from each part that has
one left. -/
def genPicListFromFrameList (currStructure : PictureStructure) (fsList list : List Nat)
    (longTerm : Bool) : List Nat :=
  let isRef := if longTerm then s.isLongRef else s.isShortRef
  match currStructure with
  | .topField =>
    genFields (s.topRef isRef) (s.bottomRef isRef) (fsList.length + 1) fsList fsList list
  | .bottomField =>
    genFields (s.bottomRef isRef) (s.topRef isRef) (fsList.length + 1) fsList fsList list
  | .frame => list

/-- `CHECK_VALID` of a list size. -/
def checkValid (size : Nat) : Nat := if size > MAX_LIST_SIZE then 0 else size

/-- The frame of a store that is a short-term reference frame. -/
def shortFrame (i : Nat) : Option Nat :=
  if (s.stores i).isUsed = .both ∧ (s.pic (s.stores i).frame).usedForReference ∧
      ¬ (s.pic (s.stores i).frame).isLongTerm then
    (s.stores i).frame
  else none

/-- The frame of a store in the long-term loop of a frame slice, which asks for nothing but
`is_long_term`. -/
def longFrame (i : Nat) : Option Nat :=
  if (s.stores i).isUsed = .both ∧ (s.pic (s.stores i).frame).isLongTerm then (s.stores i).frame
  else none

/-- Append the long-term frames to a list and sort it from the given size on. -/
def appendLongFrames (list : List Nat) (size : Nat) : List Nat :=
  let list := list ++ s.fsLtref.filterMap s.longFrame
  let list := list.take size ++ Qsort.qsort s.comparePicByLtPicNumAsc (list.drop size)
  list.take (checkValid list.length)

/-- `init_lists_p_slice` up to the cut: the first list. The second is empty. -/
def initListsPSlice : List Nat :=
  match s.mSlice.picStructure with
  | .frame =>
    let list0 := Qsort.qsort s.comparePicByPicNumDesc (s.fsRef.filterMap s.shortFrame)
    s.appendLongFrames list0 (checkValid list0.length)
  | structure' =>
    let fsList0 := Qsort.qsort s.compareFsByFrameNumDesc
      (s.fsRef.filter fun i => (s.stores i).isReference ≠ .empty)
    let list0 := s.genPicListFromFrameList structure' fsList0 [] false
    let fsListlt := Qsort.qsort s.compareFsByLtPicIdxAsc s.fsLtref
    s.genPicListFromFrameList structure' fsListlt list0 true

/-- The short-term frames of a B slice up to the current POC, and those above it. -/
def shortFramesUpTo : List Nat :=
  (s.fsRef.filterMap s.shortFrame).filter fun p => s.mSlice.framepoc ≥ (s.pics p).poc

def shortFramesAbove : List Nat :=
  (s.fsRef.filterMap s.shortFrame).filter fun p => s.mSlice.framepoc < (s.pics p).poc

/-- Exchange the first two entries of the second list when the two lists are identical. -/
def swapIdentical (list0 list1 : List Nat) : List Nat :=
  if list0.length = list1.length ∧ list0.length > 1 ∧ list0 = list1 then
    match list1 with
    | a :: b :: rest => b :: a :: rest
    | short => short
  else list1

/-- `init_lists_b_slice` up to the cut. -/
def initListsBSlice : List Nat × List Nat :=
  match s.mSlice.picStructure with
  | .frame =>
    let before := Qsort.qsort s.comparePicByPocDesc s.shortFramesUpTo
    let behind := Qsort.qsort s.comparePicByPocAsc s.shortFramesAbove
    let size := checkValid (before ++ behind).length
    let list0 := s.appendLongFrames (before ++ behind) size
    let list1 := s.appendLongFrames (behind ++ before) size
    (list0, swapIdentical list0 list1)
  | structure' =>
    let before := Qsort.qsort s.compareFsByPocDesc
      (s.fsRef.filter fun i => (s.stores i).isUsed ≠ .empty ∧ s.mSlice.thisPOC ≥ (s.stores i).poc)
    let behind := Qsort.qsort s.compareFsByPocAsc
      (s.fsRef.filter fun i => (s.stores i).isUsed ≠ .empty ∧ s.mSlice.thisPOC < (s.stores i).poc)
    let list0 := s.genPicListFromFrameList structure' (before ++ behind) [] false
    let list1 := s.genPicListFromFrameList structure' (behind ++ before) [] false
    let fsListlt := Qsort.qsort s.compareFsByLtPicIdxAsc s.fsLtref
    let list0 := s.genPicListFromFrameList structure' fsListlt list0 true
    let list1 := s.genPicListFromFrameList structure' fsListlt list1 true
    (list0, swapIdentical list0 list1)

/-- The initial lists of a slice before the cut. -/
def initLists : SliceType → List Nat × List Nat
  | .pSlice => (s.initListsPSlice, [])
  | .bSlice => s.initListsBSlice
  | .other => ([], [])

/-- Cut a list to the number of active entries. (Behind them the source repeats the
no-reference picture.) -/
def cutList (list : List Nat) (active : Nat) : List Nat :=
  list.take (checkValid (min list.length active))

/-- The three `init_lists_*_slice` functions. -/
def initListsSlice : Dpb :=
  let lists := s.initLists s.mSlice.sliceType
  { s with
    mSlice := { s.mSlice with
      listX0 := cutList lists.1 s.mSlice.numRefIdxActive0
      listX1 := cutList lists.2 s.mSlice.numRefIdxActive1 } }

end Dpb

end MediaModules.H264Dpb
