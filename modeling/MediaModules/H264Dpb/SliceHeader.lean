import MediaModules.H264Dpb.Storing
import MediaModules.H264Dpb.Poc
import MediaModules.H264Dpb.RefLists

/-!
# Slice headers

`slice_prepare`, `h264_slice_header_process` and what they call.
-/
namespace MediaModules.H264Dpb

/-- What the microcode reports of a slice header and its parameter sets (`dpb_param`). -/
structure SliceParam where
  sps : SPSParameters := {}
  frameNum : Int := 0
  idrFlag : Bool := false
  nalReferenceIdc : Nat := 0
  picOrderCntLsb : Int := 0
  deltaPicOrderCntBottom : Int := 0
  deltaPicOrderCnt0 : Int := 0
  deltaPicOrderCnt1 : Int := 0
  picStructure : PictureStructure := .frame
  recoveryPoint : Bool := false
  sliceType : SliceType := .other
  numRefIdxActive0 : Nat := 0
  numRefIdxActive1 : Nat := 0
  mmcoCmd : List Nat := []

/-- The words of `mmco_cmd` as operations, and whether there is any but the closing one. -/
def parseMmco : Nat → List Nat → Bool × List DecRefPicMarking
  | 0, _ => (false, [])
  | _ + 1, [] => (false, [])
  | fuel + 1, val :: words =>
    if val = 0 ∨ words = [] then (false, [{ memoryManagementControlOperation := val }])
    else
      let diff := if val = 1 ∨ val = 3 then words.headD 0 else 0
      let words := if val = 1 ∨ val = 3 then words.tail else words
      let picNum := if val = 2 then words.headD 0 else 0
      let words := if val = 2 then words.tail else words
      let m : DecRefPicMarking :=
        { memoryManagementControlOperation := val
          differenceOfPicNumsMinus1 := diff
          longTermPicNum := picNum }
      if words = [] then (true, [m])
      else
        let idx := if val = 3 ∨ val = 6 then words.headD 0 else 0
        let words := if val = 3 ∨ val = 6 then words.tail else words
        let maxIdx := if val = 4 then words.headD 0 else 0
        let words := if val = 4 then words.tail else words
        let m := { m with longTermFrameIdx := idx, maxLongTermFrameIdxPlus1 := maxIdx }
        (true, m :: (parseMmco fuel words).2)

namespace Dpb

/-- `slice_prepare`, the slice: flags an IDR picture alone carries keep their old values in the
others, and so do the operations of a picture that is not used for reference. -/
def prepareSlice (sl : Slice) (h : SliceParam) : Slice :=
  let mmco := parseMmco h.mmcoCmd.length h.mmcoCmd
  { sl with
    frameNum := h.frameNum
    idrFlag := h.idrFlag
    nalReferenceIdc := h.nalReferenceIdc
    picOrderCntLsb := h.picOrderCntLsb
    deltaPicOrderCntBottom := h.deltaPicOrderCntBottom
    deltaPicOrderCnt0 := h.deltaPicOrderCnt0
    deltaPicOrderCnt1 := h.deltaPicOrderCnt1
    picStructure := h.picStructure
    fieldPicFlag := h.picStructure ≠ .frame
    bottomFieldFlag := h.picStructure = .bottomField
    longTermReferenceFlag :=
      if h.idrFlag then (h.mmcoCmd.headD 0).testBit 0 else sl.longTermReferenceFlag
    noOutputOfPriorPicsFlag :=
      if h.idrFlag then (h.mmcoCmd.headD 0).testBit 1 else sl.noOutputOfPriorPicsFlag
    sliceType := h.sliceType
    numRefIdxActive0 := min h.numRefIdxActive0 (MAX_LIST_SIZE - 1)
    numRefIdxActive1 := min h.numRefIdxActive1 (MAX_LIST_SIZE - 1)
    adaptiveRefPicBufferingFlag := h.nalReferenceIdc ≠ 0 && mmco.1
    decRefPicMarkingBuffer :=
      if h.nalReferenceIdc ≠ 0 then mmco.2 else sl.decRefPicMarkingBuffer }

/-- `slice_prepare`, the video parameters. -/
def prepareVideo (v : VideoParameters) (h : SliceParam) (firstPicDone : Bool) :
    VideoParameters :=
  { v with
    lastHasMmco5 := false
    lastPicBottomField := false
    maxFrameNum := 2 ^ (h.sps.log2MaxFrameNumMinus4 + 4)
    preFrameNum := if h.idrFlag || !firstPicDone then h.frameNum else v.preFrameNum
    recoveryPoint := h.recoveryPoint }

/-- `slice_prepare`. -/
def slicePrepare (s : Dpb) (h : SliceParam) : Dpb :=
  { s with
    mSPS := { h.sps with frameMbsOnlyFlag := s.mSPS.frameMbsOnlyFlag }
    mSlice := prepareSlice s.mSlice h
    mVideo := prepareVideo s.mVideo h s.firstPicDone
    longTermReferenceFlag :=
      if h.idrFlag then (h.mmcoCmd.headD 0).testBit 0 else s.longTermReferenceFlag }

/-- `init_picture`. -/
def initPicture (s : Dpb) (p : Nat) : Dpb :=
  let sl := s.mSlice
  s.modifyPic (some p) fun q => { q with
    topPoc := sl.toppoc
    bottomPoc := sl.bottompoc
    framePoc := sl.framepoc
    poc := match sl.picStructure with
      | .topField => sl.toppoc
      | .bottomField => sl.bottompoc
      | .frame => sl.framepoc
    usedForReference := sl.nalReferenceIdc ≠ 0
    idrFlag := sl.idrFlag
    noOutputOfPriorPicsFlag := sl.noOutputOfPriorPicsFlag
    longTermReferenceFlag := sl.longTermReferenceFlag
    adaptiveRefPicBufferingFlag := sl.adaptiveRefPicBufferingFlag
    picNum := sl.frameNum
    frameNum := sl.frameNum
    codedFrame := sl.picStructure = .frame }

/-- The frame number of a store relative to the current one. -/
def frameNumWrap (s : Dpb) (i : Nat) : Int :=
  if (s.stores i).frameNum > s.mSlice.frameNum then
    (s.stores i).frameNum - 2 ^ (s.mSPS.log2MaxFrameNumMinus4 + 4)
  else (s.stores i).frameNum

/-- `update_pic_num`, a turn of the short-term loop for a frame. -/
def updateFrameNum (s : Dpb) (i : Nat) : Dpb :=
  let frame := (s.stores i).frame
  if frame.isSome ∧ (s.stores i).isUsed = .both ∧ (s.pic frame).usedForReference ∧
      ¬ (s.pic frame).isLongTerm then
    let wrap := s.frameNumWrap i
    let s := s.modifyStore i fun fs => { fs with frameNumWrap := wrap }
    s.modifyPic frame fun q => { q with picNum := wrap }
  else s

/-- A turn of the long-term loop for a frame. -/
def updateLongFrameNum (s : Dpb) (i : Nat) : Dpb :=
  let frame := (s.stores i).frame
  if frame.isSome ∧ (s.stores i).isUsed = .both ∧ (s.pic frame).isLongTerm then
    s.modifyPic frame fun q => { q with longTermPicNum := q.longTermFrameIdx }
  else s

/-- A turn of the short-term loop for a field. -/
def updateFieldNum (addTop addBottom : Int) (s : Dpb) (i : Nat) : Dpb :=
  let fs := s.stores i
  if fs.isReference = .empty then s
  else
    let wrap := s.frameNumWrap i
    let s := s.modifyStore i fun fs => { fs with frameNumWrap := wrap }
    if fs.isReference.top ∧ fs.topField.isNone then s
    else
      let s := if fs.isReference.top then
          s.modifyPic fs.topField fun q => { q with picNum := 2 * wrap + addTop }
        else s
      if fs.isReference.bottom then
        s.modifyPic fs.bottomField fun q => { q with picNum := 2 * wrap + addBottom }
      else s

/-- A turn of the long-term loop for a field. -/
def updateLongFieldNum (addTop addBottom : Int) (s : Dpb) (i : Nat) : Dpb :=
  let fs := s.stores i
  if fs.isLongTerm.top ∧ fs.topField.isNone then s
  else
    let s := if fs.isLongTerm.top then
        s.modifyPic fs.topField fun q => { q with longTermPicNum := 2 * q.longTermFrameIdx + addTop }
      else s
    if fs.isLongTerm.bottom then
      s.modifyPic fs.bottomField fun q =>
        { q with longTermPicNum := 2 * q.longTermFrameIdx + addBottom }
    else s

/-- `update_pic_num`. -/
def updatePicNum (s : Dpb) : Dpb :=
  match s.mSlice.picStructure with
  | .frame =>
    let s := s.fsRef.foldl updateFrameNum s
    s.fsLtref.foldl updateLongFrameNum s
  | .topField =>
    let s := s.fsRef.foldl (updateFieldNum 1 0) s
    s.fsLtref.foldl (updateLongFieldNum 1 0) s
  | .bottomField =>
    let s := s.fsRef.foldl (updateFieldNum 0 1) s
    s.fsLtref.foldl (updateLongFieldNum 0 1) s

/-- `check_frame_store_same_pic_num`: a second field takes over the POC of the first. -/
def checkFrameStoreSamePicNum (s : Dpb) (p : Nat) : Dpb :=
  match s.pairedStore p with
  | none => s
  | some i =>
    let fs := s.stores i
    s.modifyPic (some p) fun q =>
      let q := if s.mSlice.picStructure = .topField then
          { q with bottomPoc := (s.pic fs.bottomField).poc }
        else { q with topPoc := (s.pic fs.topField).poc }
      { q with framePoc := min q.bottomPoc q.topPoc }

/-- The first slice of a picture: its POC. -/
def decodeSlicePoc (s : Dpb) : Dpb :=
  let v := if s.mSlice.nalReferenceIdc ≠ 0 then { s.mVideo with preFrameNum := s.mSlice.frameNum }
    else s.mVideo
  let r := decodePoc s.mSPS v s.mSlice
  { s with mVideo := r.1, mSlice := r.2 }

/-- A new picture becomes the current one. -/
def takePicture (s : Dpb) : Dpb :=
  let n := s.getNewPic s.mSlice.picStructure
  { n.2 with mVideo := { n.2.mVideo with decPicture := n.1 } }

/-- The part of `h264_slice_header_process` for the first slice of a picture. -/
def startPicture (s : Dpb) : Dpb :=
  let s := s.decodeSlicePoc.takePicture
  match s.mVideo.decPicture with
  | none => s
  | some p =>
    let s := (s.initPicture p).updatePicNum
    if s.mSlice.picStructure = .frame then s else s.checkFrameStoreSamePicNum p

/-- `h264_slice_header_process` up to the picture of the slice. -/
def beginSlice (s : Dpb) (h : SliceParam) : Dpb :=
  let prepared := s.slicePrepare h
  let prepared := { prepared with numRefFrames := prepared.mSPS.numRefFrames }
  if s.mVideo.decPicture.isNone then prepared.startPicture else prepared

/-- `h264_slice_header_process` on an initialised buffer: its result and the state. `bufs` says
whether the outside has memory for the picture. -/
def h264SliceHeaderProcess (s : Dpb) (h : SliceParam) (bufs : Bool) : Int × Dpb :=
  let newPic := s.mVideo.decPicture.isNone
  let s := s.beginSlice h
  if newPic ∧ (s.mVideo.decPicture.isNone ∨ !bufs) then (-1, s)
  else (if newPic then 1 else 0, s.initListsSlice)

end Dpb

end MediaModules.H264Dpb
