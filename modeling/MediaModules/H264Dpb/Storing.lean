import MediaModules.H264Dpb.Marking

/-!
# Storing a picture

`store_picture_in_dpb` and the caller's part around it.
-/
namespace MediaModules.H264Dpb

namespace Dpb

/-- The first output state moves on with an IDR picture. -/
def skipFirstOutput (s : Dpb) : Dpb :=
  if s.firstInsertFrame = .out then { s with firstInsertFrame := .skipDone } else s

/-- The head of `store_picture_in_dpb`: the flags it sets. -/
def notePicture (s : Dpb) (p : Nat) : Dpb :=
  { s with
    mVideo := { s.mVideo with
      lastHasMmco5 := false
      lastPicBottomField := (s.pics p).picStructure = PictureStructure.bottomField } }

/-- What the picture does to the marks of the others. -/
def storeMarking (s : Dpb) (p : Nat) : Dpb :=
  let s := s.notePicture p
  if (s.pics p).idrFlag then (s.idrMemoryManagement p).skipFirstOutput
  else if (s.pics p).usedForReference && (s.pics p).adaptiveRefPicBufferingFlag then
    s.adaptiveMemoryManagement p
  else s

/-- The picture is the second field of the frame whose first field lies in the store: the tests
`check_frame_store_same_pic_num` and `store_picture_in_dpb` share. -/
def isSecondField (s : Dpb) (i p : Nat) : Bool :=
  (s.stores i).frameNum = (s.pics p).picNum &&
    ((((s.pics p).picStructure = .topField && (s.stores i).isUsed = .bottomOnly) ||
      ((s.pics p).picStructure = .bottomField && (s.stores i).isUsed = .topOnly)) &&
    (((s.pics p).usedForReference && (s.stores i).isOrigReference ≠ .empty) ||
      (!(s.pics p).usedForReference && (s.stores i).isOrigReference = .empty)))

/-- The output after a second field. -/
def outputAfterPair (s : Dpb) : Dpb :=
  if s.firstInsertFrame = .idle ∨ s.config.saveBufferMode then s.outputAll false else s

/-- Store a second field. -/
def storeSecondField (s : Dpb) (i p : Nat) (dataFlag : UInt8) : Dpb :=
  let s := (s.insertPictureInDpb i p dataFlag).updateRefList.updateLtrefList
  { s with lastPicture := none }.outputAfterPair

/-- A field that stays alone and has an error is to be displayed alone. -/
def showLoneField (s : Dpb) (p : Nat) : Dpb :=
  match s.lastPicture with
  | none => s
  | some i =>
    if (s.stores i).frameNum ≠ (s.pics p).picNum ∧
        ((s.stores i).isUsed = .bottomOnly ∨ (s.stores i).isUsed = .topOnly) ∧
        hasFlag (s.stores i).dataFlag ERROR_FLAG then
      s.modifyStore i fun fs => { fs with dataFlag := fs.dataFlag ||| FIELD_DISP_FLAG }
    else s

/-- The loop over the short-term references of the picture's frame number: whether one of them
was inserted last, which makes the picture a duplicate. `fs_ref` changes under the loop, but it
never grows beyond the used stores. -/
def duplicateLoop (p : Nat) : Nat → Nat → Dpb → Bool × Dpb
  | 0, _, s => (false, s)
  | fuel + 1, idx, s =>
    match s.fsRef[idx]? with
    | none => (false, s)
    | some i =>
      if (s.stores i).frameNum = (s.pics p).frameNum then
        if (s.stores i).dpbFrameCount = s.dpbFrameCount then (true, s)
        else duplicateLoop p fuel (idx + 1) (s.unmarkForReference i).updateRefList
      else duplicateLoop p fuel (idx + 1) s

def dropDuplicates (s : Dpb) (p : Nat) : Bool × Dpb :=
  if (s.pics p).usedForReference && !(s.pics p).isLongTerm then
    duplicateLoop p (s.fsRef.length + s.usedSize + 1) 0 s
  else (false, s)

/-- The sliding window slides for a reference picture without operations of its own. -/
def slideWindow (s : Dpb) (p : Nat) : Dpb :=
  if !(s.pics p).idrFlag && (s.pics p).usedForReference &&
      !(s.pics p).adaptiveRefPicBufferingFlag then s.slidingWindowMemoryManagement p else s

/-- What comes before the insertion of a frame or a first field. -/
def makeRoom (s : Dpb) (p : Nat) : Dpb :=
  ((s.slideWindow p).removeAllUnused.2.showLoneField p).outputAll false

/-- The store behind the used ones is used now; a first field waits for the second one. -/
def countStore (s : Dpb) (i p : Nat) : Dpb :=
  { s with
    lastPicture := if (s.pics p).picStructure = .frame then none else some i
    usedSize := s.usedSize + 1 }

/-- The output at the end of `store_picture_in_dpb`. -/
def outputAfterStore (s : Dpb) : Dpb :=
  let fast := s.config.fastOutputEnable = H264_OUTPUT_MODE_FAST
  if fast ∨ s.firstInsertFrame ≠ .skipDone ∨ s.config.saveBufferMode then s.outputAll fast else s

/-- Insert a frame or a first field into the store behind the used ones. -/
def appendStore (s : Dpb) (i p : Nat) (dataFlag : UInt8) : Dpb :=
  let s := (s.insertPictureInDpb i p dataFlag).countStore i p
  { s.updateRefList.updateLtrefList.outputAfterStore with firstPicDone := true }

/-- Store a frame or a first field. -/
def storeFirstField (s : Dpb) (p : Nat) (dataFlag : UInt8) : Int × Dpb :=
  let r := (s.makeRoom p).dropDuplicates p
  if r.1 then (-2, r.2)
  else
    match r.2.fs[r.2.usedSize]? with
    | none => (-1, r.2)
    | some i => (0, r.2.appendStore i p dataFlag)

/-- The store of the first field when the picture is the second one. -/
def pairedStore (s : Dpb) (p : Nat) : Option Nat :=
  s.lastPicture.filter fun i => s.isSecondField i p

/-- `store_picture_in_dpb`. -/
def storePictureInDpb (s : Dpb) (p : Nat) (dataFlag : UInt8) : Int × Dpb :=
  let s := s.storeMarking p
  match s.pairedStore p with
  | some i => (0, s.storeSecondField i p dataFlag)
  | none => s.storeFirstField p dataFlag

/-- `bufmgr_post`. -/
def bufmgrPost (s : Dpb) : Dpb :=
  if s.mVideo.lastHasMmco5 then { s with mVideo := { s.mVideo with preFrameNum := 0 } } else s

end Dpb

end MediaModules.H264Dpb
