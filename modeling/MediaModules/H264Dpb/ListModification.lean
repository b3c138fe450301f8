import MediaModules.H264Dpb.ListReordering
import MediaModules.H264Dpb.Types
import MediaModules.Lib.InPlace
import Mathlib.Data.Int.ModEq

/-!
# Modifying a reference picture list

`reorder_ref_pic_list` works in the array of a list. For each command the entries behind the next
index move up, the named picture is written there, and the entries it was found in are taken out
again. Lists of pictures say the same without an array: the picture is put at its place, and out of
what is behind it.
-/
namespace MediaModules.H264Dpb

open Lib.InPlace

/-! ## The source -/

namespace Dpb

section Source
variable (s : Dpb)

/-- The pictures `get_short_term_pic` looks at in a store. With a marked top field missing it goes
on to the next store. -/
def shortTermPics (i : Nat) : List Nat :=
  let fs := s.stores i
  if s.mSlice.picStructure = .frame then
    if fs.isReference = .both then fs.frame.toList else []
  else if fs.isReference.top ∧ fs.topField = none then []
  else
    (if fs.isReference.top then fs.topField.toList else []) ++
      (if fs.isReference.bottom then fs.bottomField.toList else [])

/-- The pictures `get_long_term_pic` looks at in a store. -/
def longTermPics (i : Nat) : List Nat :=
  let fs := s.stores i
  if s.mSlice.picStructure = .frame then
    if fs.isReference = .both then fs.frame.toList else []
  else
    (if fs.isReference.top then fs.topField.toList else []) ++
      (if fs.isReference.bottom then fs.bottomField.toList else [])

def getShortTermPic (picNum : Int) : Option Nat :=
  ((s.fsRef.flatMap s.shortTermPics).find? fun p =>
    !(s.pics p).isLongTerm && (s.pics p).picNum == picNum).or s.mVideo.noReferencePicture

def getLongTermPic (longTermPicNum : Int) : Option Nat :=
  (s.fsLtref.flatMap s.longTermPics).find? fun p =>
    (s.pics p).isLongTerm && (s.pics p).longTermPicNum == longTermPicNum

/-- What `reorder_short_term` and `reorder_long_term` do with the picture they found. Both loops
go to the entry behind the list. -/
def reorderPic (picLX : Option Nat) (keep : Nat → Bool) (numRefIdxActive refIdxLX : Nat)
    (refPicListX : List (Option Nat)) : Option (List (Option Nat)) := do
  let a ← (shiftUp refIdxLX numRefIdxActive refPicListX).bind (write · refIdxLX picLX)
  compact (fun p => p.any keep) (numRefIdxActive - refIdxLX) (refIdxLX + 1) (refIdxLX + 1) a

def reorderShortTerm (numRefIdxActive : Nat) (picNumLX : Int) :
    Nat → List (Option Nat) → Option (List (Option Nat)) :=
  reorderPic (s.getShortTermPic picNumLX)
    (fun p => (s.pics p).isLongTerm || (s.pics p).picNum != picNumLX) numRefIdxActive

def reorderLongTerm (numRefIdxActive : Nat) (longTermPicNum : Int) :
    Nat → List (Option Nat) → Option (List (Option Nat)) :=
  reorderPic (s.getLongTermPic longTermPicNum)
    (fun p => !(s.pics p).isLongTerm || (s.pics p).longTermPicNum != longTermPicNum) numRefIdxActive

def maxPicNum : Int :=
  if s.mSlice.picStructure = .frame then s.mVideo.maxFrameNum else 2 * s.mVideo.maxFrameNum

def currPicNum : Int :=
  if s.mSlice.picStructure = .frame then s.mSlice.frameNum else 2 * s.mSlice.frameNum + 1

/-- `picNumLXNoWrap` of a command with an absolute difference. -/
def picNumLXNoWrap (idc absDiffPicNumMinus1 picNumLXPred : Int) : Int :=
  if idc = 0 then
    if picNumLXPred - (absDiffPicNumMinus1 + 1) < 0 then
      picNumLXPred - (absDiffPicNumMinus1 + 1) + s.maxPicNum
    else picNumLXPred - (absDiffPicNumMinus1 + 1)
  else if picNumLXPred + (absDiffPicNumMinus1 + 1) ≥ s.maxPicNum then
    picNumLXPred + (absDiffPicNumMinus1 + 1) - s.maxPicNum
  else picNumLXPred + (absDiffPicNumMinus1 + 1)

def picNumLX (picNumLXNoWrap : Int) : Int :=
  if picNumLXNoWrap > s.currPicNum then picNumLXNoWrap - s.maxPicNum else picNumLXNoWrap

/-- The loop of `reorder_ref_pic_list` over the entries of the command arrays. -/
def reorderCommands (numRefIdxActive : Nat) (r : ReorderFields) :
    List (Fin 33) → Nat → Int → List (Option Nat) → Option (List (Option Nat))
  | [], _, _, listX => some listX
  | i :: rest, refIdxLX, picNumLXPred, listX =>
    let idc := r.modificationOfPicNumsIdc[i]
    if idc = 3 then some listX
    else if idc > 3 then some listX
    else if idc < 2 then
      let noWrap := s.picNumLXNoWrap idc r.absDiffPicNumMinus1[i] picNumLXPred
      (s.reorderShortTerm numRefIdxActive (s.picNumLX noWrap) refIdxLX listX).bind
        (reorderCommands numRefIdxActive r rest (refIdxLX + 1) noWrap)
    else
      (s.reorderLongTerm numRefIdxActive r.longTermPicIdx[i] refIdxLX listX).bind
        (reorderCommands numRefIdxActive r rest (refIdxLX + 1) picNumLXPred)

/-- `reorder_ref_pic_list` for one list: `listX` and `listXsize` afterwards. -/
def reorderRefPicList (numRefIdxActive : Nat) (r : ReorderFields) (listX : List (Option Nat)) :
    Option (List (Option Nat) × Nat) :=
  (s.reorderCommands numRefIdxActive r (List.finRange 33) 0 s.currPicNum listX).map fun listX =>
    (listX, numRefIdxActive)

end Source

end Dpb

/-! ## The clause -/

/-- A modification command. -/
inductive Modification
  | subtract (absDiffPicNumMinus1 : Int)
  | add (absDiffPicNumMinus1 : Int)
  | longTerm (longTermPicNum : Int)
deriving DecidableEq, Repr

/-- A picture by its number. -/
inductive PicRef
  | short (picNum : Int)
  | long (longTermPicNum : Int)
deriving DecidableEq, Repr

/-- The command at a place of the arrays, if it is one. -/
def ReorderFields.commandAt (r : ReorderFields) (i : Fin 33) : Option Modification :=
  if r.modificationOfPicNumsIdc[i] ≥ 3 then none
  else if r.modificationOfPicNumsIdc[i] = 2 then some (.longTerm r.longTermPicIdx[i])
  else if r.modificationOfPicNumsIdc[i] = 0 then some (.subtract r.absDiffPicNumMinus1[i])
  else some (.add r.absDiffPicNumMinus1[i])

/-- The commands up to the first entry that is none. -/
def ReorderFields.commands (r : ReorderFields) : List (Fin 33) → List Modification
  | [] => []
  | i :: rest =>
    match r.commandAt i with
    | some c => c :: r.commands rest
    | none => []

namespace PicRef

/-- The numbers the commands name, without any reduction. -/
def sums : Int → List Modification → List PicRef
  | _, [] => []
  | pred, .subtract d :: cs => short (pred - (d + 1)) :: sums (pred - (d + 1)) cs
  | pred, .add d :: cs => short (pred + (d + 1)) :: sums (pred + (d + 1)) cs
  | pred, .longTerm n :: cs => long n :: sums pred cs

/-- The number of a picture, from its number modulo `maxPicNum`. -/
def ofNoWrap (maxPicNum currPicNum noWrap : Int) : PicRef :=
  short (if noWrap > currPicNum then noWrap - maxPicNum else noWrap)

/-- The numbers the commands name, each predicted from the one before: a difference that leaves the
numbers from 0 to `maxPicNum` is wrapped. -/
def named (maxPicNum currPicNum : Int) : Int → List Modification → List PicRef
  | _, [] => []
  | pred, .subtract d :: cs =>
    let noWrap := pred - (d + 1) + if pred - (d + 1) < 0 then maxPicNum else 0
    ofNoWrap maxPicNum currPicNum noWrap :: named maxPicNum currPicNum noWrap cs
  | pred, .add d :: cs =>
    let noWrap := pred + (d + 1) - if pred + (d + 1) ≥ maxPicNum then maxPicNum else 0
    ofNoWrap maxPicNum currPicNum noWrap :: named maxPicNum currPicNum noWrap cs
  | pred, .longTerm n :: cs => long n :: named maxPicNum currPicNum pred cs

/-- The pictures named by the commands of a slice. -/
def ofSlice (s : Dpb) (cs : List Modification) : List PicRef :=
  named s.maxPicNum s.currPicNum s.currPicNum cs

/-- The same picture, with picture numbers modulo `maxPicNum`. -/
def SameModulo (maxPicNum : Int) : PicRef → PicRef → Prop
  | short m, short n => m ≡ n [ZMOD maxPicNum]
  | long m, long n => m = n
  | _, _ => False

/-- A picture number that does not lie ahead of the current one, nor a whole round behind it. -/
def InRound (maxPicNum currPicNum : Int) : PicRef → Prop
  | short n => currPicNum - maxPicNum < n ∧ n ≤ currPicNum
  | long _ => True

end PicRef

/-- The differences a command may have. -/
def Modification.InRange (maxPicNum : Int) : Modification → Prop
  | subtract d => 0 ≤ d ∧ d < maxPicNum
  | add d => 0 ≤ d ∧ d < maxPicNum
  | longTerm _ => True

/-- The list after pictures are put at one index after the other. -/
def modified : Nat → List Nat → List Nat → List Nat
  | _, list, [] => list
  | refIdx, list, q :: qs => modified (refIdx + 1) (place refIdx q list) qs

namespace Dpb

section Spec
variable (s : Dpb)

/-- A picture of a store that the slice can refer to: its frame, or one of its fields. -/
def MarkedIn (i p : Nat) : Prop :=
  let fs := s.stores i
  if s.mSlice.picStructure = .frame then fs.isReference = .both ∧ fs.frame = some p
  else (fs.isReference.top ∧ fs.topField = some p) ∨ (fs.isReference.bottom ∧ fs.bottomField = some p)

/-- No marked top field is missing in the store. -/
def TopPresent (i : Nat) : Prop :=
  s.mSlice.picStructure ≠ .frame → (s.stores i).isReference.top → (s.stores i).topField ≠ none

/-- A picture marked as reference that has the number. -/
def Carries : PicRef → Nat → Prop
  | .short n, p => (∃ i ∈ s.fsRef, s.MarkedIn i p ∧ s.TopPresent i) ∧
      (s.pics p).isLongTerm = false ∧ (s.pics p).picNum = n
  | .long n, p => (∃ i ∈ s.fsLtref, s.MarkedIn i p) ∧
      (s.pics p).isLongTerm = true ∧ (s.pics p).longTermPicNum = n

/-- The number names the picture: it and no other reference picture has it. -/
structure Names (ref : PicRef) (q : Nat) : Prop where
  carries : s.Carries ref q
  unique : ∀ p, s.Carries ref p → p = q

/-- A list of reference pictures at the start of an array. -/
structure Entries (numRefIdxActive : Nat) (listX : List (Option Nat)) (list : List Nat) : Prop where
  size : listX.length = 2 * MAX_LIST_SIZE
  entries : listX.take numRefIdxActive = list.map some
  length : list.length = numRefIdxActive
  marked : ∀ p ∈ list, ∃ ref, s.Carries ref p

/-- The list of a slice before the modification: no picture stands twice in it. -/
structure Lists (numRefIdxActive : Nat) (listX : List (Option Nat)) (list : List Nat) : Prop
    extends s.Entries numRefIdxActive listX list where
  nodup : list.Nodup

end Spec

variable {s : Dpb} {n refIdx : Nat} {list : List Nat}

/-! ## One command -/

/-- The array during the loop: behind the next index no picture stands twice. -/
structure Working (s : Dpb) (n refIdx : Nat) (listX : List (Option Nat)) (list : List Nat) : Prop
    extends s.Entries n listX list where
  nodup : (list.drop refIdx).Nodup

theorem mem_shortTermPics {i p : Nat} :
    p ∈ s.shortTermPics i ↔ s.MarkedIn i p ∧ s.TopPresent i := by
  unfold shortTermPics MarkedIn TopPresent
  by_cases hframe : s.mSlice.picStructure = .frame
  · simp [hframe]
  · simp only [if_neg hframe]
    by_cases htop : (s.stores i).isReference.top = true
    · cases hfield : (s.stores i).topField with
      | none => simp [htop, hframe]
      | some q => simp [htop, @eq_comm _ p q]
    · simp [htop]

theorem mem_longTermPics {i p : Nat} : p ∈ s.longTermPics i ↔ s.MarkedIn i p := by
  unfold longTermPics MarkedIn
  by_cases hframe : s.mSlice.picStructure = .frame
  · simp [hframe]
  · simp [hframe]

/-- A search finds what is there once. -/
theorem find?_only {l : List Nat} {test : Nat → Bool} {q : Nat} (hq : q ∈ l) (htest : test q = true)
    (honly : ∀ p ∈ l, test p = true → p = q) : l.find? test = some q := by
  cases hfind : l.find? test with
  | none => exact absurd htest (List.find?_eq_none.mp hfind q hq)
  | some p => rw [honly p (List.mem_of_find?_eq_some hfind) (List.find?_some hfind)]

theorem getShortTermPic_named {m : Int} {q : Nat} (h : s.Names (.short m) q) :
    s.getShortTermPic m = some q := by
  have hfind : ((s.fsRef.flatMap s.shortTermPics).find? fun p =>
      !(s.pics p).isLongTerm && (s.pics p).picNum == m) = some q := by
    obtain ⟨⟨i, hi, hmarked⟩, hshort, hnum⟩ := h.carries
    apply find?_only
    · exact List.mem_flatMap.mpr ⟨i, hi, mem_shortTermPics.mpr hmarked⟩
    · simp [hshort, hnum]
    · intro p hp htest
      obtain ⟨j, hj, hmem⟩ := List.mem_flatMap.mp hp
      obtain ⟨hshort, hnum⟩ : (s.pics p).isLongTerm = false ∧ (s.pics p).picNum = m := by
        simpa using htest
      exact h.unique p ⟨⟨j, hj, mem_shortTermPics.mp hmem⟩, hshort, hnum⟩
  rw [getShortTermPic, hfind, Option.some_or]

theorem getLongTermPic_named {m : Int} {q : Nat} (h : s.Names (.long m) q) :
    s.getLongTermPic m = some q := by
  obtain ⟨⟨i, hi, hmarked⟩, hlong, hnum⟩ := h.carries
  apply find?_only
  · exact List.mem_flatMap.mpr ⟨i, hi, mem_longTermPics.mpr hmarked⟩
  · simp [hlong, hnum]
  · intro p hp htest
    obtain ⟨j, hj, hmem⟩ := List.mem_flatMap.mp hp
    obtain ⟨hlong, hnum⟩ : (s.pics p).isLongTerm = true ∧ (s.pics p).longTermPicNum = m := by
      simpa using htest
    exact h.unique p ⟨⟨j, hj, mem_longTermPics.mp hmem⟩, hlong, hnum⟩

/-- Behind the end of the list a picture is written and nothing else moves. -/
theorem reorderPic_behind (pic : Option Nat) (keep : Nat → Bool) {a : List (Option Nat)}
    (hn : n ≤ refIdx) (hsize : refIdx < a.length) :
    reorderPic pic keep n refIdx a = some (a.set refIdx pic) := by
  rw [reorderPic, shiftUp_of_le hn, Option.bind_some, Lib.InPlace.write_some _ hsize, Option.bind_eq_bind,
    Option.bind_some, Nat.sub_eq_zero_of_le hn, compact]

/-- Inside the list the picture is inserted and the entries that are not kept are taken out. -/
theorem reorderPic_inside (pic : Option Nat) (keep : Nat → Bool) (front seg rest : List (Option Nat))
    (x : Option Nat) :
    ∃ tail, reorderPic pic keep (front.length + seg.length) front.length
        (front ++ (seg ++ x :: rest)) = some (front ++ pic :: (seg.filter (·.any keep) ++ tail)) ∧
      (seg.filter (·.any keep)).length + tail.length = seg.length + rest.length := by
  have hfilter := List.length_filter_le (fun p : Option Nat => p.any keep) seg
  refine ⟨seg.drop (seg.filter (·.any keep)).length ++ rest, ?_, ?_⟩
  · have hcompact := compact_eq (fun p : Option Nat => p.any keep) seg rest (front ++ [pic]) []
    simp only [List.length_append, List.length_singleton, List.length_nil, Nat.add_zero,
      List.nil_append, List.append_assoc, List.singleton_append] at hcompact
    rw [reorderPic, shiftUp_write, Option.bind_eq_bind, Option.bind_some, Nat.add_sub_cancel_left]
    exact hcompact
  · rw [List.length_append, List.length_drop]
    omega

/-- The array of a list: what is in front of an index, what is behind it, and at least one entry
more. -/
theorem Entries.split {a : List (Option Nat)} (h : s.Entries n a list) (hn : n ≤ 32) (refIdx : Nat) :
    ∃ x rest, a = (list.take refIdx).map some ++ ((list.drop refIdx).map some ++ x :: rest) ∧
      a.length = n + (rest.length + 1) := by
  have hsize : a.length = 66 := h.size
  obtain ⟨x, rest, hrest⟩ : ∃ x rest, a.drop n = x :: rest :=
    List.exists_cons_of_ne_nil (by simp; omega)
  refine ⟨x, rest, ?_, ?_⟩
  · rw [← List.append_assoc, ← List.map_append, List.take_append_drop, ← h.entries, ← hrest,
      List.take_append_drop]
  · rw [← List.take_append_drop n a, hrest, h.entries, List.length_append, List.length_map, h.length,
      List.length_cons]

/-- One command puts the picture it names at the next index. -/
theorem reorderPic_places {q : Nat} {keep : Nat → Bool} {a : List (Option Nat)}
    (hkeep : ∀ p ∈ list, keep p = (p != q)) (hq : ∃ ref, s.Carries ref q) (hn : n ≤ 32)
    (hidx : refIdx ≤ 32) (h : s.Working n refIdx a list) :
    ∃ a', reorderPic (some q) keep n refIdx a = some a' ∧
      s.Working n (refIdx + 1) a' (place refIdx q list) := by
  have hlen := h.length
  have hsize : a.length = 66 := h.size
  have hmarked : ∀ p ∈ place refIdx q list, ∃ ref, s.Carries ref p := by
    intro p hp
    rcases mem_place hp with rfl | hp
    · exact hq
    · exact h.marked p hp
  rcases Nat.lt_or_ge refIdx n with hin | hout
  · obtain ⟨x, rest, ha, htotal⟩ := h.split hn refIdx
    obtain ⟨tail, hrun, htail⟩ := reorderPic_inside (some q) keep ((list.take refIdx).map some)
      ((list.drop refIdx).map some) rest x
    rw [List.length_map, List.length_map, List.length_take, List.length_drop, hlen,
      Nat.min_eq_left (Nat.le_of_lt hin), Nat.add_sub_of_le (Nat.le_of_lt hin), ← ha] at hrun
    have hfilter : ((list.drop refIdx).map some).filter (·.any keep) =
        ((list.drop refIdx).filter (· != q)).map some := by
      rw [List.filter_map]
      exact congrArg (List.map some) (List.filter_congr fun p hp => hkeep p (List.mem_of_mem_drop hp))
    have hfilter_len := length_filter_ne q h.nodup
    rw [List.length_drop, hlen] at hfilter_len
    rw [List.length_map, List.length_drop, hlen] at htail
    refine ⟨_, hrun, ⟨?_, ?_, ?_, hmarked⟩, place_nodup q h.nodup⟩
    · rw [List.length_append, List.length_cons, List.length_append, htail, List.length_map,
        List.length_take, hlen, ← h.size, htotal]
      omega
    · rw [hfilter, ← List.cons_append, ← List.map_cons, ← List.append_assoc, ← List.map_append,
        List.take_append_of_le_length, ← List.map_take, place, hlen]
      rw [List.length_map, List.length_append, List.length_cons, List.length_take, hlen]
      omega
    · rw [length_place q h.nodup, hlen]
  · have hplace : place refIdx q list = list := place_of_le q (by omega)
    refine ⟨_, reorderPic_behind _ _ hout (by omega), ⟨?_, ?_, ?_, hmarked⟩, place_nodup q h.nodup⟩
    · rw [List.length_set, hsize]
      rfl
    · rw [hplace, ← h.entries, List.take_set,
        List.set_eq_of_length_le (by rw [List.length_take]; omega)]
    · rw [hplace, hlen]

theorem kept_short {m : Int} {p q : Nat} (h : s.Names (.short m) q) (hp : ∃ ref, s.Carries ref p) :
    ((s.pics p).isLongTerm || (s.pics p).picNum != m) = (p != q) := by
  by_cases hpq : p = q
  · subst hpq
    simp [h.carries.2.1, h.carries.2.2]
  · have hother : (s.pics p).isLongTerm = true ∨ (s.pics p).picNum ≠ m := by
      obtain ⟨k | k, hk⟩ := hp
      · exact .inr fun hnum => hpq (h.unique p ⟨hk.1, hk.2.1, hnum⟩)
      · exact .inl hk.2.1
    rw [bne_iff_ne.mpr hpq]
    simpa using hother

theorem kept_long {m : Int} {p q : Nat} (h : s.Names (.long m) q) (hp : ∃ ref, s.Carries ref p) :
    (!(s.pics p).isLongTerm || (s.pics p).longTermPicNum != m) = (p != q) := by
  by_cases hpq : p = q
  · subst hpq
    simp [h.carries.2.1, h.carries.2.2]
  · have hother : (s.pics p).isLongTerm = false ∨ (s.pics p).longTermPicNum ≠ m := by
      obtain ⟨k | k, hk⟩ := hp
      · exact .inl hk.2.1
      · exact .inr fun hnum => hpq (h.unique p ⟨hk.1, hk.2.1, hnum⟩)
    rw [bne_iff_ne.mpr hpq]
    simpa using hother

theorem reorderShortTerm_places {m : Int} {q : Nat} {a : List (Option Nat)}
    (hq : s.Names (.short m) q) (hn : n ≤ 32) (hidx : refIdx ≤ 32) (h : s.Working n refIdx a list) :
    ∃ a', s.reorderShortTerm n m refIdx a = some a' ∧
      s.Working n (refIdx + 1) a' (place refIdx q list) := by
  rw [reorderShortTerm, getShortTermPic_named hq]
  exact reorderPic_places (fun p hp => kept_short hq (h.marked p hp)) ⟨_, hq.carries⟩ hn hidx h

theorem reorderLongTerm_places {m : Int} {q : Nat} {a : List (Option Nat)}
    (hq : s.Names (.long m) q) (hn : n ≤ 32) (hidx : refIdx ≤ 32) (h : s.Working n refIdx a list) :
    ∃ a', s.reorderLongTerm n m refIdx a = some a' ∧
      s.Working n (refIdx + 1) a' (place refIdx q list) := by
  rw [reorderLongTerm, getLongTermPic_named hq]
  exact reorderPic_places (fun p hp => kept_long hq (h.marked p hp)) ⟨_, hq.carries⟩ hn hidx h

/-! ## The numbers -/

/-- The prediction of the loop is the one of the clause. -/
theorem named_difference (d pred idc : Int) (cs : List Modification) :
    PicRef.named s.maxPicNum s.currPicNum pred ((if idc = 0 then .subtract d else .add d) :: cs) =
      .short (s.picNumLX (s.picNumLXNoWrap idc d pred)) ::
        PicRef.named s.maxPicNum s.currPicNum (s.picNumLXNoWrap idc d pred) cs := by
  have hwrap : s.picNumLXNoWrap idc d pred =
      if idc = 0 then pred - (d + 1) + if pred - (d + 1) < 0 then s.maxPicNum else 0
      else pred + (d + 1) - if pred + (d + 1) ≥ s.maxPicNum then s.maxPicNum else 0 := by
    unfold picNumLXNoWrap
    split_ifs
    · rfl
    · rw [Int.add_zero]
    · rfl
    · rw [Int.sub_zero]
  rw [hwrap]
  by_cases hidc : idc = 0
  · rw [if_pos hidc, if_pos hidc]
    rfl
  · rw [if_neg hidc, if_neg hidc]
    rfl

end Dpb

namespace PicRef

variable {max curr pred sum m : Int} {cs : List Modification}

theorem ofNoWrap_sameModulo (curr : Int) (h : m ≡ sum [ZMOD max]) :
    SameModulo max (ofNoWrap max curr m) (short sum) := by
  show (if m > curr then m - max else m) ≡ sum [ZMOD max]
  split
  · exact Int.sub_modulus_modEq_iff.mpr h
  · exact h

/-- Each number is the sum of the differences, modulo `maxPicNum`. -/
theorem named_sameModulo (h : pred ≡ sum [ZMOD max]) (cs : List Modification) :
    List.Forall₂ (SameModulo max) (named max curr pred cs) (sums sum cs) := by
  induction cs generalizing pred sum with
  | nil => exact .nil
  | cons c cs ih =>
    cases c with
    | subtract d =>
      have hnext : pred - (d + 1) + (if pred - (d + 1) < 0 then max else 0) ≡
          sum - (d + 1) [ZMOD max] := by
        split
        · exact Int.add_modulus_modEq_iff.mpr (h.sub_right _)
        · rw [Int.add_zero]
          exact h.sub_right _
      exact .cons (ofNoWrap_sameModulo curr hnext) (ih hnext)
    | add d =>
      have hnext : pred + (d + 1) - (if pred + (d + 1) ≥ max then max else 0) ≡
          sum + (d + 1) [ZMOD max] := by
        split
        · exact Int.sub_modulus_modEq_iff.mpr (h.add_right _)
        · rw [Int.sub_zero]
          exact h.add_right _
      exact .cons (ofNoWrap_sameModulo curr hnext) (ih hnext)
    | longTerm k => exact .cons rfl (ih h)

theorem ofNoWrap_inRound (hcurr : 0 ≤ curr ∧ curr < max) (hm : 0 ≤ m ∧ m < max) :
    InRound max curr (ofNoWrap max curr m) := by
  show curr - max < (if m > curr then m - max else m) ∧ (if m > curr then m - max else m) ≤ curr
  split
  · omega
  · omega

/-- Differences in range lead to numbers in the round that ends with the current one. -/
theorem named_inRound (hcurr : 0 ≤ curr ∧ curr < max) (hpred : 0 ≤ pred ∧ pred < max)
    (hrange : ∀ c ∈ cs, c.InRange max) : ∀ ref ∈ named max curr pred cs, InRound max curr ref := by
  induction cs generalizing pred with
  | nil => exact nofun
  | cons c cs ih =>
    have hrest : ∀ c ∈ cs, c.InRange max := fun c hc => hrange c (List.mem_cons_of_mem _ hc)
    have hc := hrange c List.mem_cons_self
    cases c with
    | subtract d =>
      have hd : 0 ≤ d ∧ d < max := hc
      have hnext : 0 ≤ pred - (d + 1) + (if pred - (d + 1) < 0 then max else 0) ∧
          pred - (d + 1) + (if pred - (d + 1) < 0 then max else 0) < max := by
        split
        · omega
        · omega
      exact List.forall_mem_cons.mpr ⟨ofNoWrap_inRound hcurr hnext, ih hnext hrest⟩
    | add d =>
      have hd : 0 ≤ d ∧ d < max := hc
      have hnext : 0 ≤ pred + (d + 1) - (if pred + (d + 1) ≥ max then max else 0) ∧
          pred + (d + 1) - (if pred + (d + 1) ≥ max then max else 0) < max := by
        split
        · omega
        · omega
      exact List.forall_mem_cons.mpr ⟨ofNoWrap_inRound hcurr hnext, ih hnext hrest⟩
    | longTerm k => exact List.forall_mem_cons.mpr ⟨trivial, ih hpred hrest⟩

end PicRef

/-! ## A run over the commands -/

namespace Dpb

variable {s : Dpb} {r : ReorderFields} {n refIdx : Nat} {list : List Nat}

/-- An entry of the command arrays that is a command, as the loop tells them apart. -/
theorem commandAt_some {i : Fin 33} {c : Modification} (h : r.commandAt i = some c) :
    ¬ r.modificationOfPicNumsIdc[i] = 3 ∧ ¬ r.modificationOfPicNumsIdc[i] > 3 ∧
      ((r.modificationOfPicNumsIdc[i] < 2 ∧ c =
          if r.modificationOfPicNumsIdc[i] = 0 then .subtract r.absDiffPicNumMinus1[i]
          else .add r.absDiffPicNumMinus1[i]) ∨
        (¬ r.modificationOfPicNumsIdc[i] < 2 ∧ c = .longTerm r.longTermPicIdx[i])) := by
  unfold ReorderFields.commandAt at h
  split_ifs at h with hend hlong hsub
  · obtain rfl := Option.some.inj h
    exact ⟨by omega, by omega, .inr ⟨by omega, rfl⟩⟩
  · obtain rfl := Option.some.inj h
    exact ⟨by omega, by omega, .inl ⟨by omega, (if_pos hsub).symm⟩⟩
  · obtain rfl := Option.some.inj h
    exact ⟨by omega, by omega, .inl ⟨by omega, (if_neg hsub).symm⟩⟩

theorem reorderCommands_modifies (hn : n ≤ 32) {is : List (Fin 33)} {pred : Int}
    {a : List (Option Nat)} {qs : List Nat} (hidx : refIdx + is.length ≤ 33)
    (h : s.Working n refIdx a list) (hnames : List.Forall₂ s.Names
      (PicRef.named s.maxPicNum s.currPicNum pred (r.commands is)) qs) :
    ∃ a', s.reorderCommands n r is refIdx pred a = some a' ∧
      a'.take n = (modified refIdx list qs).map some := by
  induction is generalizing refIdx pred a list qs with
  | nil =>
    cases hnames
    exact ⟨a, rfl, h.entries⟩
  | cons i is ih =>
    rw [List.length_cons] at hidx
    rw [reorderCommands]
    cases hcommand : r.commandAt i with
    | none =>
      rw [ReorderFields.commands, hcommand] at hnames
      cases hnames
      have hend : r.modificationOfPicNumsIdc[i] ≥ 3 := by
        unfold ReorderFields.commandAt at hcommand
        split_ifs at hcommand with hend
        exact hend
      by_cases hthree : r.modificationOfPicNumsIdc[i] = 3
      · exact ⟨a, if_pos hthree, h.entries⟩
      · refine ⟨a, ?_, h.entries⟩
        dsimp only
        rw [if_neg hthree, if_pos (by omega)]
    | some c =>
      rw [ReorderFields.commands, hcommand] at hnames
      dsimp only at hnames ⊢
      obtain ⟨hthree, hmore, ⟨hdiff, rfl⟩ | ⟨hlong, rfl⟩⟩ := commandAt_some hcommand
      · rw [named_difference] at hnames
        cases hnames with
        | cons hq hrest =>
          obtain ⟨b, hstep, hb⟩ := reorderShortTerm_places hq hn (by omega) h
          rw [if_neg hthree, if_neg hmore, if_pos hdiff, hstep, Option.bind_some]
          exact ih (by omega) hb hrest
      · cases hnames with
        | cons hq hrest =>
          obtain ⟨b, hstep, hb⟩ := reorderLongTerm_places hq hn (by omega) h
          rw [if_neg hthree, if_neg hmore, if_neg hlong, hstep, Option.bind_some]
          exact ih (by omega) hb hrest

/-- From a full list of distinct reference pictures, commands that name reference pictures lead to
the list with these put at one index after the other. The numbers they name are the sums of the
differences modulo `maxPicNum`, in the round that ends with the current number. -/
theorem reorderRefPicList_modifies (s : Dpb) (r : ReorderFields) (numRefIdxActive : Nat)
    (listX : List (Option Nat)) (list qs : List Nat) (hactive : numRefIdxActive ≤ 32)
    (hlist : s.Lists numRefIdxActive listX list)
    (hnames : List.Forall₂ s.Names (PicRef.ofSlice s (r.commands (List.finRange 33))) qs) :
    (∃ listX', s.reorderRefPicList numRefIdxActive r listX = some (listX', numRefIdxActive) ∧
      listX'.take numRefIdxActive = (modified 0 list qs).map some) ∧
    List.Forall₂ (PicRef.SameModulo s.maxPicNum) (PicRef.ofSlice s (r.commands (List.finRange 33)))
      (PicRef.sums s.currPicNum (r.commands (List.finRange 33))) ∧
    (0 ≤ s.currPicNum ∧ s.currPicNum < s.maxPicNum →
      (∀ c ∈ r.commands (List.finRange 33), c.InRange s.maxPicNum) →
      ∀ ref ∈ PicRef.ofSlice s (r.commands (List.finRange 33)),
        PicRef.InRound s.maxPicNum s.currPicNum ref) := by
  refine ⟨?_, PicRef.named_sameModulo rfl _, fun hcurr hrange => ?_⟩
  · have hstart : s.Working numRefIdxActive 0 listX list :=
      ⟨hlist.toEntries, hlist.nodup⟩
    obtain ⟨listX', hrun, htake⟩ := reorderCommands_modifies hactive
      (by rw [List.length_finRange]) hstart hnames
    refine ⟨listX', ?_, htake⟩
    rw [reorderRefPicList, hrun]
    rfl
  · exact PicRef.named_inRound hcurr hcurr hrange

/-- A frame slice with two short-term frames and the long-term frame 2. -/
def threeFrames : Dpb where
  pics p := { picNum := -p, isLongTerm := decide (p = 2) }
  stores i := { isReference := .both, frame := some i }
  fsRef := [0, 1]
  fsLtref := [2]
  mSlice := { frameNum := 1 }
  mVideo := { maxFrameNum := 16 }

/-- The picture of number -1, two before the current one, and the long-term picture. -/
def twoCommands : ReorderFields where
  refPicListReorderingFlag := true
  modificationOfPicNumsIdc := ((Vector.replicate 33 3).set 0 0).set 1 2
  absDiffPicNumMinus1 := Vector.replicate 33 1
  longTermPicIdx := Vector.replicate 33 0

theorem threeFrames_names :
    threeFrames.Names (.short (-1)) 1 ∧ threeFrames.Names (.long 0) 2 := by
  constructor
  · refine ⟨⟨⟨1, by decide, ⟨rfl, rfl⟩, nofun⟩, rfl, rfl⟩, fun p hp => ?_⟩
    have hnum : -(p : Int) = -1 := hp.2.2
    omega
  · exact ⟨⟨⟨2, by decide, rfl, rfl⟩, rfl, rfl⟩, fun p hp => of_decide_eq_true hp.2.1⟩

theorem reorderRefPicList_modifies_three :
    ∃ listX', threeFrames.reorderRefPicList 3 twoCommands
        ([some 0, some 1, some 2] ++ List.replicate 63 none) = some (listX', 3) ∧
      listX'.take 3 = [some 1, some 2, some 0] := by
  have hlist : threeFrames.Lists 3 ([some 0, some 1, some 2] ++ List.replicate 63 none)
      [0, 1, 2] := by
    refine ⟨⟨by simp [MAX_LIST_SIZE], rfl, rfl, fun p hp => ?_⟩, by decide⟩
    simp only [List.mem_cons, List.not_mem_nil, or_false] at hp
    obtain rfl | rfl | rfl := hp
    · exact ⟨.short 0, ⟨0, by decide, ⟨rfl, rfl⟩, nofun⟩, rfl, rfl⟩
    · exact ⟨_, threeFrames_names.1.carries⟩
    · exact ⟨_, threeFrames_names.2.carries⟩
  have hrefs : PicRef.ofSlice threeFrames (twoCommands.commands (List.finRange 33)) =
      [.short (-1), .long 0] := by decide
  have hnames : List.Forall₂ threeFrames.Names
      (PicRef.ofSlice threeFrames (twoCommands.commands (List.finRange 33))) [1, 2] := by
    rw [hrefs]
    exact .cons threeFrames_names.1 (.cons threeFrames_names.2 .nil)
  exact (reorderRefPicList_modifies threeFrames twoCommands 3 _ [0, 1, 2] [1, 2] (by decide) hlist
    hnames).1

end Dpb

end MediaModules.H264Dpb
