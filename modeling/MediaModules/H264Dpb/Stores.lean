import MediaModules.H264Dpb.Types

/-!
# Pictures and frame stores

Taking pictures from the pool and giving them back, putting a picture into a frame store, and
taking a frame store out of the buffer.
-/
namespace MediaModules.H264Dpb

namespace Dpb

/-- The first picture of the pool that is not in use. -/
def freePic (s : Dpb) : Option Nat :=
  (List.range MAX_PIC_BUF_NUM).find? fun i => !(s.pics i).isUsed

/-- A picture as `get_new_pic` hands it out. What it does not set keeps its old value. -/
def renewPic (picStructure : PictureStructure) (frameMbsOnlyFlag : Bool) (p : StorablePicture) :
    StorablePicture :=
  { p with
    isUsed := true
    picNum := 0
    frameNum := 0
    longTermFrameIdx := 0
    longTermPicNum := 0
    usedForReference := false
    isLongTerm := false
    nonExisting := false
    isOutput := false
    preOutput := false
    dataFlag := p.dataFlag &&& ~~~(ERROR_FLAG ||| NODISP_FLAG ||| NULL_FLAG ||| NOOUTPUT_FLAG)
    picStructure := picStructure
    codedFrame := false
    topPoc := 0
    bottomPoc := 0
    poc := 0
    frameMbsOnlyFlag := frameMbsOnlyFlag }

/-- `get_new_pic`. -/
def getNewPic (s : Dpb) (picStructure : PictureStructure) : Option Nat × Dpb :=
  match s.freePic with
  | none => (none, { s with trace := .noPicture :: s.trace })
  | some p => (some p, s.modifyPic (some p) (renewPic picStructure s.mSPS.frameMbsOnlyFlag))

/-- `free_picture`. -/
def freePicture (s : Dpb) (p : Option Nat) : Dpb :=
  s.modifyPic p fun q => { q with isUsed := false }

/-- `init_dpb`, its head: what an earlier buffer leaves is given back. -/
def freeDpb (s : Dpb) : Dpb :=
  if s.initDone then
    { s.freePicture s.mVideo.noReferencePicture with
      mVideo := { s.mVideo with noReferencePicture := none } }
  else s

/-- Its middle: a buffer of `size` frame stores, none of them in use. -/
def emptyDpb (s : Dpb) (size : Nat) : Dpb :=
  { s with
    numRefFrames := s.mSPS.numRefFrames
    usedSize := 0
    lastPicture := none
    fsRef := []
    fsLtref := []
    fs := List.range size }

/-- The picture that stands in for a missing reference. -/
def makeNoReferencePicture (s : Dpb) : Dpb :=
  if s.mVideo.noReferencePicture.isNone then
    let r := s.getNewPic .frame
    { r.2.modifyPic r.1 (fun p => { p with topField := r.1, bottomField := r.1, frame := r.1 }) with
      mVideo := { s.mVideo with noReferencePicture := r.1 } }
  else s

/-- `init_dpb` of a buffer of `size` frame stores. -/
def initDpb (s : Dpb) (size : Nat) : Dpb :=
  let s := (s.freeDpb.emptyDpb size).makeNoReferencePicture
  { s with
    lastOutputPoc := INT_MIN
    initDone := true
    mVideo := { s.mVideo with lastHasMmco5 := false } }

/-- The fields of a frame get their share of what the frame knows. -/
def shareFrame (s : Dpb) (i : Nat) (frame top btm : Option Nat) : Dpb :=
  let f := s.pic frame
  let s := s.modifyPic top fun p => { p with
    dataFlag := f.dataFlag
    poc := f.topPoc
    framePoc := f.framePoc
    bottomPoc := f.bottomPoc
    topPoc := f.topPoc
    usedForReference := f.usedForReference
    isLongTerm := f.isLongTerm
    longTermFrameIdx := f.longTermFrameIdx
    codedFrame := true
    bottomField := btm
    frame := frame
    topField := top }
  let s := s.modifyPic btm fun p => { p with
    dataFlag := f.dataFlag
    poc := f.bottomPoc
    framePoc := f.framePoc
    bottomPoc := f.bottomPoc
    topPoc := f.topPoc
    usedForReference := f.usedForReference
    isLongTerm := f.isLongTerm
    longTermFrameIdx := f.longTermFrameIdx
    codedFrame := true
    topField := top
    frame := frame
    bottomField := btm }
  let s := s.modifyPic frame fun p => { p with topField := top, bottomField := btm, frame := frame }
  s.modifyStore i fun fs => { fs with longTermFrameIdx := f.longTermFrameIdx }

/-- `dpb_split_field`. -/
def dpbSplitField (s : Dpb) (i : Nat) : Dpb :=
  let frame := (s.stores i).frame
  let s := s.modifyStore i fun fs => { fs with poc := (s.pic frame).poc }
  if (s.pic frame).frameMbsOnlyFlag then
    let s := s.modifyStore i fun fs => { fs with topField := none, bottomField := none }
    s.modifyPic frame fun p => { p with topField := none, bottomField := none, frame := frame }
  else
    let top := s.getNewPic .topField
    let s := top.2.modifyStore i fun fs => { fs with topField := top.1 }
    let btm := s.getNewPic .bottomField
    let s := btm.2.modifyStore i fun fs => { fs with bottomField := btm.1 }
    if top.1.isNone ∨ btm.1.isNone then s else s.shareFrame i frame top.1 btm.1

/-- The frame of two fields gets what the fields know. -/
def joinFields (s : Dpb) (i : Nat) (frame top btm : Option Nat) : Dpb :=
  let t := s.pic top
  let b := s.pic btm
  let store := s.stores i
  let s := s.modifyPic frame fun p => { p with
    dataFlag := t.dataFlag ||| (b.dataFlag &&& 0xf0)
    poc := min t.poc b.poc
    framePoc := min t.poc b.poc
    topPoc := t.poc
    bottomPoc := b.poc
    usedForReference := t.usedForReference && b.usedForReference
    isLongTerm := t.isLongTerm && b.isLongTerm
    longTermFrameIdx :=
      if t.isLongTerm && b.isLongTerm then store.longTermFrameIdx else p.longTermFrameIdx
    topField := top
    bottomField := btm
    frame := frame
    codedFrame := false }
  let s := s.modifyPic top fun p => { p with
    framePoc := min t.poc b.poc
    bottomPoc := b.poc
    frame := frame
    topField := top
    bottomField := btm }
  let s := s.modifyPic btm fun p => { p with
    framePoc := min t.poc b.poc
    topPoc := t.poc
    frame := frame
    topField := top
    bottomField := btm }
  s.modifyStore i fun fs => { fs with poc := min t.poc b.poc }

/-- `dpb_combine_field`. Both fields are there. -/
def dpbCombineField (s : Dpb) (i : Nat) : Dpb :=
  let s := if (s.stores i).frame.isNone then
      let r := s.getNewPic .frame
      r.2.modifyStore i fun fs => { fs with frame := r.1 }
    else s
  if (s.stores i).frame.isNone then s
  else s.joinFields i (s.stores i).frame (s.stores i).topField (s.stores i).bottomField

/-- Put the bit of a parity into a field mask; a frame has both. -/
def setBit (parity : PictureStructure) (b : FieldBits) : FieldBits :=
  match parity with
  | .topField => { b with top := true }
  | .bottomField => { b with bottom := true }
  | .frame => .both

/-- Hang a picture of the parity into a frame store. -/
def hang (parity : PictureStructure) (p : Nat) (fs : FrameStore) : FrameStore :=
  match parity with
  | .frame => { fs with frame := some p, isUsed := .both }
  | .topField => { fs with topField := some p, isUsed := setBit .topField fs.isUsed }
  | .bottomField => { fs with bottomField := some p, isUsed := setBit .bottomField fs.isUsed }

/-- The reference marks a store takes over from a picture put into it. -/
def takeMarks (q : StorablePicture) (fs : FrameStore) : FrameStore :=
  if q.usedForReference then
    { fs with
      isReference := setBit q.picStructure fs.isReference
      isOrigReference := setBit q.picStructure fs.isOrigReference
      isLongTerm := if q.isLongTerm then setBit q.picStructure fs.isLongTerm else fs.isLongTerm
      longTermFrameIdx := if q.isLongTerm then q.longTermFrameIdx else fs.longTermFrameIdx }
  else fs

/-- `insert_picture_in_dpb`, its head: count the picture and pass on the data flags. -/
def countInserted (s : Dpb) (i p : Nat) (dataFlag : UInt8) : Dpb :=
  let s := { s with dpbFrameCount := s.dpbFrameCount + 1 }
  let s := s.modifyPic (some p) fun q => { q with dataFlag := dataFlag }
  s.modifyStore i fun fs => { fs with
    dpbFrameCount := s.dpbFrameCount
    dataFlag := fs.dataFlag ||| dataFlag }

/-- The first part of the `switch`: the picture goes into the store. -/
def putPicture (s : Dpb) (i p : Nat) : Dpb :=
  s.modifyStore i fun fs => takeMarks (s.pics p) (hang (s.pics p).picStructure p fs)

/-- The second part of the `switch`: the field views of a frame, or the frame view of a pair. -/
def generateViews (s : Dpb) (i p : Nat) : Dpb :=
  if (s.pics p).picStructure = .frame then s.dpbSplitField i
  else if (s.stores i).isUsed = .both then s.dpbCombineField i
  else s.modifyStore i fun fs => { fs with poc := (s.pics p).poc }

/-- `insert_picture_in_dpb`. -/
def insertPictureInDpb (s : Dpb) (i p : Nat) (dataFlag : UInt8) : Dpb :=
  let s := ((s.countInserted i p dataFlag).putPicture i p).generateViews i p
  s.modifyStore i fun fs => { fs with
    frameNum := (s.pics p).picNum
    isOutput := (s.pics p).isOutput
    preOutput := (s.pics p).preOutput }

/-- Write to the pictures of a frame store: the fields it has and, if it has both, the frame. -/
def modifyHeld (s : Dpb) (i : Nat) (f : StorablePicture → StorablePicture) : Dpb :=
  let fs := s.stores i
  let s := if fs.isUsed.top then s.modifyPic fs.topField f else s
  let s := if fs.isUsed.bottom then s.modifyPic fs.bottomField f else s
  if fs.isUsed = .both then s.modifyPic fs.frame f else s

/-- `unmark_for_reference`. -/
def unmarkForReference (s : Dpb) (i : Nat) : Dpb :=
  (s.modifyHeld i fun q => { q with usedForReference := false }).modifyStore i
    fun fs => { fs with isReference := .empty }

/-- `unmark_for_long_term_reference`. -/
def unmarkForLongTermReference (s : Dpb) (i : Nat) : Dpb :=
  (s.modifyHeld i fun q => { q with usedForReference := false, isLongTerm := false }).modifyStore i
    fun fs => { fs with isReference := .empty, isLongTerm := .empty }

/-- A store with a picture that passes the test, as `is_short_term_reference` and
`is_long_term_reference` look for it. -/
def holds (s : Dpb) (marked : StorablePicture → Bool) (i : Nat) : Bool :=
  let fs := s.stores i
  (fs.isUsed = .both && marked (s.pic fs.frame)) ||
    (fs.isUsed.top && fs.topField.isSome && marked (s.pic fs.topField)) ||
    (fs.isUsed.bottom && fs.bottomField.isSome && marked (s.pic fs.bottomField))

/-- `is_short_term_reference`. -/
def isShortTermReference (s : Dpb) (i : Nat) : Bool :=
  s.holds (fun p => p.usedForReference && !p.isLongTerm) i

/-- `is_long_term_reference`. -/
def isLongTermReference (s : Dpb) (i : Nat) : Bool :=
  s.holds (fun p => p.usedForReference && p.isLongTerm) i

/-- `is_used_for_reference`. -/
def isUsedForReference (s : Dpb) (i : Nat) : Bool :=
  (s.stores i).isReference ≠ .empty || s.holds (fun p => p.usedForReference) i

/-- `update_ref_list`. -/
def updateRefList (s : Dpb) : Dpb := { s with fsRef := s.used.filter s.isShortTermReference }

/-- `update_ltref_list`. -/
def updateLtrefList (s : Dpb) : Dpb := { s with fsLtref := s.used.filter s.isLongTermReference }

/-- Free the pictures of a store: the `switch` of `remove_frame_from_dpb`. -/
def freeStore (s : Dpb) (i : Nat) : Dpb :=
  let fs := s.stores i
  let s := if fs.isUsed = .both then s.freePicture fs.frame else s
  let s := if fs.isUsed.top then s.freePicture fs.topField else s
  let s := if fs.isUsed.bottom then s.freePicture fs.bottomField else s
  s.modifyStore i fun fs => { fs with
    frame := if fs.isUsed = .both then none else fs.frame
    topField := if fs.isUsed.top then none else fs.topField
    bottomField := if fs.isUsed.bottom then none else fs.bottomField
    dataFlag := 0
    isUsed := .empty
    isLongTerm := .empty
    isReference := .empty
    isOrigReference := .empty }

/-- `remove_frame_from_dpb`: the emptied store moves behind the used ones. -/
def removeFrameFromDpb (s : Dpb) (pos : Nat) : Dpb :=
  match s.fs[pos]? with
  | none => s
  | some i =>
    let s := s.freeStore i
    { s with
      fs := s.used.eraseIdx pos ++ i :: s.fs.drop s.usedSize
      usedSize := s.usedSize - 1
      trace := .removed i :: s.trace }

/-- The first store that is output and not used for reference. -/
def unusedPos (s : Dpb) : Option Nat :=
  s.used.findIdx? fun i => (s.stores i).isOutput && !s.isUsedForReference i

/-- `remove_unused_frame_from_dpb`. -/
def removeUnusedFrameFromDpb (s : Dpb) : Bool × Dpb :=
  match s.unusedPos with
  | some pos => (true, s.removeFrameFromDpb pos)
  | none => (false, s)

/-- `while (remove_unused_frame_from_dpb(..));`, and whether it removed anything. Every turn
leaves one used store less. -/
def removeUnusedLoop : Nat → Dpb → Bool × Dpb
  | 0, s => (false, s)
  | fuel + 1, s =>
    let r := s.removeUnusedFrameFromDpb
    if r.1 then (true, (removeUnusedLoop fuel r.2).2) else (false, r.2)

def removeAllUnused (s : Dpb) : Bool × Dpb := removeUnusedLoop (s.usedSize + 1) s

/-- `unmark_one_error_out_frame`. -/
def unmarkOneErrorOutFrame (s : Dpb) : Bool × Dpb :=
  match s.used.find? fun i => (s.stores i).isOutput &&
      (hasFlag (s.stores i).dataFlag ERROR_FLAG || hasFlag (s.stores i).dataFlag NULL_FLAG) with
  | some i => (true, s.unmarkForReference i)
  | none => (false, s)

/-- `unmark_one_out_frame`. -/
def unmarkOneOutFrame (s : Dpb) : Bool × Dpb :=
  s.used.foldl (fun r i =>
    if (r.2.stores i).isOutput then (true, r.2.unmarkForReference i) else r) (false, s)

/-- `bufmgr_h264_remove_unused_frame`. -/
def bufmgrH264RemoveUnusedFrame (s : Dpb) (forceFlag : Nat) : Dpb :=
  let r := s.removeAllUnused
  if r.1 then r.2
  else if forceFlag = 2 then
    let u := r.2.unmarkOneOutFrame
    if u.1 then u.2.updateRefList.removeUnusedFrameFromDpb.2 else u.2
  else if forceFlag = 1 then
    let u := r.2.unmarkOneErrorOutFrame
    if u.1 then u.2.updateRefList.removeUnusedFrameFromDpb.2 else u.2
  else r.2

/-- `release_picture` of a picture that is not in the buffer. -/
def releasePicture (s : Dpb) (p : Nat) : Dpb := s.freePicture (some p)

/-- `set_frame_output_flag`: the index is one of `mFrameStore`. -/
def setFrameOutputFlag (s : Dpb) (index : Nat) : Dpb :=
  s.modifyStore index fun fs => { fs with isOutput := true, preOutput := false, showFrame := false }

end Dpb

end MediaModules.H264Dpb
