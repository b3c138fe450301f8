import MediaModules.H264Dpb.Output

/-!
# Reference marking

The sliding window, the memory management control operations and what an IDR picture does to
the marks.
-/
namespace MediaModules.H264Dpb

namespace Dpb

/-- `get_pic_num_x`. -/
def getPicNumX (s : Dpb) (p : Nat) (differenceOfPicNumsMinus1 : Int) : Int :=
  let currPicNum :=
    if (s.pics p).picStructure = .frame then (s.pics p).frameNum else 2 * (s.pics p).frameNum + 1
  currPicNum - (differenceOfPicNumsMinus1 + 1)

/-- Take the reference mark from the top field of a store: what a field loses in
`mm_unmark_short_term_for_reference`, its frame with it. -/
def unmarkTop (s : Dpb) (i : Nat) : Dpb :=
  let s := s.modifyPic (s.stores i).topField fun q => { q with usedForReference := false }
  let s := s.modifyStore i fun fs => { fs with isReference := { fs.isReference with top := false } }
  if (s.stores i).isUsed = .both then
    s.modifyPic (s.stores i).frame fun q => { q with usedForReference := false }
  else s

/-- The same for the bottom field. -/
def unmarkBottom (s : Dpb) (i : Nat) : Dpb :=
  let s := s.modifyPic (s.stores i).bottomField fun q => { q with usedForReference := false }
  let s := s.modifyStore i fun fs =>
    { fs with isReference := { fs.isReference with bottom := false } }
  if (s.stores i).isUsed = .both then
    s.modifyPic (s.stores i).frame fun q => { q with usedForReference := false }
  else s

/-- The top field of a store is a short-term reference of the picture number: the field tests of
`mm_unmark_short_term_for_reference`. -/
def shortTopIs (s : Dpb) (i : Nat) (picNumX : Int) : Bool :=
  (s.stores i).isReference.top && !(s.stores i).isLongTerm.top && (s.stores i).topField.isSome &&
    (s.pic (s.stores i).topField).picNum = picNumX

def shortBottomIs (s : Dpb) (i : Nat) (picNumX : Int) : Bool :=
  (s.stores i).isReference.bottom && !(s.stores i).isLongTerm.bottom &&
    (s.stores i).bottomField.isSome && (s.pic (s.stores i).bottomField).picNum = picNumX

/-- A short-term top field without its picture ends the turn of its store. -/
def shortTopMissing (s : Dpb) (i : Nat) : Bool :=
  (s.stores i).isReference.top && !(s.stores i).isLongTerm.top && (s.stores i).topField.isNone

/-- The loop of `mm_unmark_short_term_for_reference` for a frame. -/
def unmarkShortFrame (s : Dpb) (picNumX : Int) : List Nat → Dpb
  | [] => s
  | i :: rest =>
    if (s.stores i).isReference = .both ∧ (s.stores i).isLongTerm = .empty ∧
        (s.stores i).frame.isSome ∧ (s.pic (s.stores i).frame).picNum = picNumX then
      s.unmarkForReference i
    else unmarkShortFrame s picNumX rest

/-- The loop of `mm_unmark_short_term_for_reference` for a field. -/
def unmarkShortField (s : Dpb) (picNumX : Int) : List Nat → Dpb
  | [] => s
  | i :: rest =>
    if s.shortTopIs i picNumX then s.unmarkTop i
    else if !s.shortTopMissing i && s.shortBottomIs i picNumX then s.unmarkBottom i
    else unmarkShortField s picNumX rest

/-- `mm_unmark_short_term_for_reference`. -/
def mmUnmarkShortTermForReference (s : Dpb) (p : Nat) (differenceOfPicNumsMinus1 : Int) : Dpb :=
  let picNumX := s.getPicNumX p differenceOfPicNumsMinus1
  if (s.pics p).picStructure = .frame then s.unmarkShortFrame picNumX s.fsRef
  else s.unmarkShortField picNumX s.fsRef

/-- Take reference and long-term mark from the top field of a store, its frame with it. -/
def unmarkLongTop (s : Dpb) (i : Nat) : Dpb :=
  let unmark (q : StorablePicture) : StorablePicture :=
    { q with usedForReference := false, isLongTerm := false }
  let s := s.modifyPic (s.stores i).topField unmark
  let s := s.modifyStore i fun fs => { fs with
    isReference := { fs.isReference with top := false }
    isLongTerm := { fs.isLongTerm with top := false } }
  if (s.stores i).isUsed = .both then s.modifyPic (s.stores i).frame unmark else s

/-- The same for the bottom field. -/
def unmarkLongBottom (s : Dpb) (i : Nat) : Dpb :=
  let unmark (q : StorablePicture) : StorablePicture :=
    { q with usedForReference := false, isLongTerm := false }
  let s := s.modifyPic (s.stores i).bottomField unmark
  let s := s.modifyStore i fun fs => { fs with
    isReference := { fs.isReference with bottom := false }
    isLongTerm := { fs.isLongTerm with bottom := false } }
  if (s.stores i).isUsed = .both then s.modifyPic (s.stores i).frame unmark else s

/-- The loop of `mm_unmark_long_term_for_reference` for a frame: it goes on after a match. -/
def unmarkLongFrame (s : Dpb) (longTermPicNum : Int) (stores : List Nat) : Dpb :=
  stores.foldl (fun s i =>
    if (s.stores i).isReference = .both ∧ (s.stores i).isLongTerm = .both ∧
        (s.pic (s.stores i).frame).longTermPicNum = longTermPicNum then
      s.unmarkForLongTermReference i
    else s) s

/-- The loop of `mm_unmark_long_term_for_reference` for a field. -/
def unmarkLongField (s : Dpb) (longTermPicNum : Int) : List Nat → Dpb
  | [] => s
  | i :: rest =>
    if (s.stores i).isReference.top ∧ (s.stores i).isLongTerm.top ∧
        (s.pic (s.stores i).topField).longTermPicNum = longTermPicNum then
      s.unmarkLongTop i
    else if (s.stores i).isReference.bottom ∧ (s.stores i).isLongTerm.bottom ∧
        (s.pic (s.stores i).bottomField).longTermPicNum = longTermPicNum then
      s.unmarkLongBottom i
    else unmarkLongField s longTermPicNum rest

/-- `mm_unmark_long_term_for_reference`. -/
def mmUnmarkLongTermForReference (s : Dpb) (p : Nat) (longTermPicNum : Int) : Dpb :=
  if (s.pics p).picStructure = .frame then s.unmarkLongFrame longTermPicNum s.fsLtref
  else s.unmarkLongField longTermPicNum s.fsLtref

/-- `unmark_long_term_frame_for_reference_by_frame_idx`. -/
def unmarkLongTermFrameForReferenceByFrameIdx (s : Dpb) (longTermFrameIdx : Int) : Dpb :=
  s.fsLtref.foldl (fun s i =>
    if (s.stores i).longTermFrameIdx = longTermFrameIdx then s.unmarkForLongTermReference i
    else s) s

/-- `unmark1`. -/
def unmark1 (s : Dpb) (i : Nat) : Dpb :=
  if s.lastPicture.isSome then s.unmarkForLongTermReference i else s

/-- `unmark2`. -/
def unmark2 (s : Dpb) (currPicNum : Int) (i : Nat) : Dpb :=
  if (s.stores i).frameNum ≠ currPicNum / 2 then s.unmarkForLongTermReference i else s

/-- `unmark3_top`. -/
def unmark3Top (s : Dpb) (currPicNum : Int) (markCurrent : Bool) (i : Nat) : Dpb :=
  if (s.stores i).isLongTerm = .both then s.unmarkForLongTermReference i
  else if (s.stores i).isLongTerm = .topOnly then s.unmarkForLongTermReference i
  else if markCurrent then s.unmark1 i
  else s.unmark2 currPicNum i

/-- `unmark3_bottom`. -/
def unmark3Bottom (s : Dpb) (currPicNum : Int) (markCurrent : Bool) (i : Nat) : Dpb :=
  if (s.stores i).isLongTerm = .bottomOnly then s.unmarkForLongTermReference i
  else if markCurrent then s.unmark1 i
  else s.unmark2 currPicNum i

/-- `unmark_long_term_field_for_reference_by_frame_idx`. -/
def unmarkLongTermFieldForReferenceByFrameIdx (s : Dpb) (picStructure : PictureStructure)
    (longTermFrameIdx : Int) (markCurrent : Bool) (currPicNum : Int) : Dpb :=
  let currPicNum := if currPicNum < 0 then currPicNum + 2 * s.mVideo.maxFrameNum else currPicNum
  s.fsLtref.foldl (fun s i =>
    if (s.stores i).longTermFrameIdx = longTermFrameIdx then
      match picStructure with
      | .topField => s.unmark3Top currPicNum markCurrent i
      | .bottomField => s.unmark3Bottom currPicNum markCurrent i
      | .frame => s
    else s) s

/-- Mark a frame and its fields as long-term: a match in `mark_pic_long_term`. -/
def markFrameLongTerm (s : Dpb) (i : Nat) (longTermFrameIdx : Int) : Dpb :=
  let mark (q : StorablePicture) : StorablePicture := { q with
    longTermFrameIdx := longTermFrameIdx
    longTermPicNum := longTermFrameIdx
    isLongTerm := true }
  let s := s.modifyPic (s.stores i).frame mark
  let s := if (s.stores i).topField.isSome ∧ (s.stores i).bottomField.isSome then
      (s.modifyPic (s.stores i).topField mark).modifyPic (s.stores i).bottomField mark
    else s
  s.modifyStore i fun fs => { fs with longTermFrameIdx := longTermFrameIdx, isLongTerm := .both }

/-- Mark a field as long-term, and the frame when both fields are: a match in
`mark_pic_long_term`. `add` is one for a field of the parity of the current picture. -/
def markFieldLongTerm (s : Dpb) (i : Nat) (parity : PictureStructure) (field : Option Nat)
    (longTermFrameIdx add : Int) : Dpb :=
  let s := s.modifyPic field fun q => { q with
    longTermFrameIdx := longTermFrameIdx
    longTermPicNum := 2 * longTermFrameIdx + add
    isLongTerm := true }
  let s := s.modifyStore i fun fs => { fs with
    longTermFrameIdx := longTermFrameIdx
    isLongTerm := setBit parity fs.isLongTerm }
  if (s.stores i).isLongTerm = .both then
    s.modifyPic (s.stores i).frame fun q => { q with
      isLongTerm := true
      longTermFrameIdx := longTermFrameIdx
      longTermPicNum := longTermFrameIdx }
  else s

/-- A field of a store that is marked as reference and is the short-term field wanted. -/
def shortFieldIs (s : Dpb) (marked : Bool) (field : Option Nat) (picNumX : Int) : Bool :=
  marked && field.isSome && !(s.pic field).isLongTerm && (s.pic field).picNum = picNumX

/-- The loop of `mark_pic_long_term` for a frame. -/
def markLongFrame (s : Dpb) (longTermFrameIdx picNumX : Int) : List Nat → Dpb
  | [] => s
  | i :: rest =>
    if (s.stores i).isReference = .both ∧ (s.stores i).frame.isSome ∧
        ¬ (s.pic (s.stores i).frame).isLongTerm ∧
        (s.pic (s.stores i).frame).picNum = picNumX then
      s.markFrameLongTerm i longTermFrameIdx
    else markLongFrame s longTermFrameIdx picNumX rest

/-- The loop of `mark_pic_long_term` for a field. -/
def markLongField (s : Dpb) (longTermFrameIdx picNumX addTop addBottom : Int) : List Nat → Dpb
  | [] => s
  | i :: rest =>
    let fs := s.stores i
    if s.shortFieldIs fs.isReference.top fs.topField picNumX then
      s.markFieldLongTerm i .topField fs.topField longTermFrameIdx addTop
    else if !(fs.isReference.top && fs.topField.isNone) &&
        s.shortFieldIs fs.isReference.bottom fs.bottomField picNumX then
      s.markFieldLongTerm i .bottomField fs.bottomField longTermFrameIdx addBottom
    else markLongField s longTermFrameIdx picNumX addTop addBottom rest

/-- `mark_pic_long_term`. -/
def markPicLongTerm (s : Dpb) (p : Nat) (longTermFrameIdx picNumX : Int) : Dpb :=
  match (s.pics p).picStructure with
  | .frame => s.markLongFrame longTermFrameIdx picNumX s.fsRef
  | .topField => s.markLongField longTermFrameIdx picNumX 1 0 s.fsRef
  | .bottomField => s.markLongField longTermFrameIdx picNumX 0 1 s.fsRef

/-- The parity of the reference field of the picture number: the search in
`mm_assign_long_term_frame_idx`. -/
def findFieldStructure (s : Dpb) (picNumX : Int) : List Nat → PictureStructure
  | [] => .frame
  | i :: rest =>
    let fs := s.stores i
    if fs.isReference.top ∧ fs.topField.isSome ∧ (s.pic fs.topField).picNum = picNumX then .topField
    else if ¬ (fs.isReference.top ∧ fs.topField.isNone) ∧ fs.isReference.bottom ∧
        fs.bottomField.isSome ∧ (s.pic fs.bottomField).picNum = picNumX then .bottomField
    else findFieldStructure s picNumX rest

/-- `mm_assign_long_term_frame_idx`. -/
def mmAssignLongTermFrameIdx (s : Dpb) (p : Nat)
    (differenceOfPicNumsMinus1 longTermFrameIdx : Int) : Dpb :=
  let picNumX := s.getPicNumX p differenceOfPicNumsMinus1
  let s := if (s.pics p).picStructure = .frame then
      s.unmarkLongTermFrameForReferenceByFrameIdx longTermFrameIdx
    else
      s.unmarkLongTermFieldForReferenceByFrameIdx (s.findFieldStructure picNumX s.fsRef)
        longTermFrameIdx false picNumX
  s.markPicLongTerm p longTermFrameIdx picNumX

/-- `mm_update_max_long_term_frame_idx`. -/
def mmUpdateMaxLongTermFrameIdx (s : Dpb) (maxLongTermFrameIdxPlus1 : Int) : Dpb :=
  let s := { s with maxLongTermPicIdx := maxLongTermFrameIdxPlus1 - 1 }
  s.fsLtref.foldl (fun s i =>
    if (s.stores i).longTermFrameIdx > s.maxLongTermPicIdx then s.unmarkForLongTermReference i
    else s) s

/-- `mm_unmark_all_long_term_for_reference`. -/
def mmUnmarkAllLongTermForReference (s : Dpb) : Dpb := s.mmUpdateMaxLongTermFrameIdx 0

/-- `mm_unmark_all_short_term_for_reference`. -/
def mmUnmarkAllShortTermForReference (s : Dpb) : Dpb :=
  (s.fsRef.foldl unmarkForReference s).updateRefList

/-- `mm_mark_current_picture_long_term`. -/
def mmMarkCurrentPictureLongTerm (s : Dpb) (p : Nat) (longTermFrameIdx : Int) : Dpb :=
  let s := if (s.pics p).picStructure = .frame then
      s.unmarkLongTermFrameForReferenceByFrameIdx longTermFrameIdx
    else
      s.unmarkLongTermFieldForReferenceByFrameIdx (s.pics p).picStructure longTermFrameIdx true 0
  s.modifyPic (some p) fun q => { q with isLongTerm := true, longTermFrameIdx := longTermFrameIdx }

/-- One turn of the loop of `adaptive_memory_management`. -/
def memoryManagementControl (s : Dpb) (p : Nat) (m : DecRefPicMarking) : Dpb :=
  match m.memoryManagementControlOperation with
  | 1 => (s.mmUnmarkShortTermForReference p m.differenceOfPicNumsMinus1).updateRefList
  | 2 => (s.mmUnmarkLongTermForReference p m.longTermPicNum).updateLtrefList
  | 3 => (s.mmAssignLongTermFrameIdx p m.differenceOfPicNumsMinus1
      m.longTermFrameIdx).updateRefList.updateLtrefList
  | 4 => (s.mmUpdateMaxLongTermFrameIdx m.maxLongTermFrameIdxPlus1).updateLtrefList
  | 5 =>
    let s := s.mmUnmarkAllShortTermForReference.mmUnmarkAllLongTermForReference
    { s with mVideo := { s.mVideo with lastHasMmco5 := true } }
  | 6 => s.mmMarkCurrentPictureLongTerm p m.longTermFrameIdx
  | _ => s

/-- A picture with operation 5 counts as one of frame number and POC 0. -/
def resetPicture (q : StorablePicture) : StorablePicture :=
  let q := { q with picNum := 0, frameNum := 0 }
  match q.picStructure with
  | .topField => { q with poc := 0, topPoc := 0 }
  | .bottomField => { q with poc := 0, bottomPoc := 0 }
  | .frame => { q with
      topPoc := q.topPoc - q.poc
      bottomPoc := q.bottomPoc - q.poc
      poc := min (q.topPoc - q.poc) (q.bottomPoc - q.poc) }

/-- `adaptive_memory_management`. The operations are those of the slice, to which the picture's
`dec_ref_pic_marking_buffer` points. -/
def adaptiveMemoryManagement (s : Dpb) (p : Nat) : Dpb :=
  let s := { s with mVideo := { s.mVideo with lastHasMmco5 := false } }
  let s := s.mSlice.decRefPicMarkingBuffer.foldl (fun s m => s.memoryManagementControl p m) s
  if s.mVideo.lastHasMmco5 then (s.modifyPic (some p) resetPicture).flushDpb else s

/-- One turn of the loop over `fs[0 .. used_size)` in `idr_memory_management`.
`set_frame_output_flag` gets the position in `fs`. -/
def noOutputTurn (s : Dpb) (i pos : Nat) : Dpb :=
  let s := s.unmarkForReference i
  let s := if (s.stores i).isLongTerm ≠ .empty then s.unmarkForLongTermReference i else s
  if s.waiting i then s.setFrameOutputFlag pos else s

/-- The loop: what an IDR picture with `no_output_of_prior_pics_flag` does. -/
def noOutputOfPriorPics (s : Dpb) : Dpb :=
  s.used.zipIdx.foldl (fun s r => s.noOutputTurn r.1 r.2) s

/-- `idr_memory_management`, its head: the pictures before the IDR picture. -/
def dropPriorPics (s : Dpb) (p : Nat) : Dpb :=
  if (s.pics p).noOutputOfPriorPicsFlag then s.noOutputOfPriorPics else s.flushDpb

/-- Its end: the marks of the IDR picture. -/
def markIdrPicture (s : Dpb) (p : Nat) : Dpb :=
  if (s.pics p).longTermReferenceFlag then
    { s with maxLongTermPicIdx := 0 }.modifyPic (some p)
      fun q => { q with isLongTerm := true, longTermFrameIdx := 0 }
  else
    { s with maxLongTermPicIdx := -1 }.modifyPic (some p) fun q => { q with isLongTerm := false }

/-- `idr_memory_management`. -/
def idrMemoryManagement (s : Dpb) (p : Nat) : Dpb :=
  let s := s.dropPriorPics p
  let s := { s with lastPicture := none }
  let s := { s.updateRefList.updateLtrefList with lastOutputPoc := INT_MIN }
  s.markIdrPicture p

/-- `sliding_window_memory_management`. -/
def slidingWindowMemoryManagement (s : Dpb) (p : Nat) : Dpb :=
  let slidingMargin := max 1 s.numRefFrames - s.fsLtref.length
  let s := if (s.fsRef.length : Int) = slidingMargin then
      match s.used.find? fun i =>
          (s.stores i).isReference ≠ .empty && (s.stores i).isLongTerm = .empty with
      | some i => (s.unmarkForReference i).updateRefList
      | none => s
    else s
  s.modifyPic (some p) fun q => { q with isLongTerm := false }

end Dpb

end MediaModules.H264Dpb
