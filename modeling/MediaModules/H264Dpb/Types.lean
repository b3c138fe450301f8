import Mathlib.Algebra.Order.Ring.Int
import Mathlib.Data.List.Basic

/-!
# The decoded picture buffer of the H.264 decoder

The state of `struct h264_dpb_stru` as far as decoding order, reference marking, output and
picture order count depend on it. Pictures and frame stores are named by their index in
`m_PIC` and `mFrameStore`; `none` is the NULL pointer. The memory behind a picture (buffer
specs, co-located buffers, time stamps, quality data) is not part of the model.
-/
namespace MediaModules.H264Dpb

/-- `enum PictureStructure`. -/
inductive PictureStructure
  | frame
  | topField
  | bottomField
deriving DecidableEq, Repr

/-- A two-bit field mask: bit 1 for the top field, bit 2 for the bottom field. -/
structure FieldBits where
  top : Bool := false
  bottom : Bool := false
deriving DecidableEq, Repr

namespace FieldBits

def empty : FieldBits := ⟨false, false⟩
def topOnly : FieldBits := ⟨true, false⟩
def bottomOnly : FieldBits := ⟨false, true⟩
def both : FieldBits := ⟨true, true⟩

end FieldBits

def INT_MIN : Int := -2147483648
def INT_MAX : Int := 2147483647

def DPB_SIZE_MAX : Nat := 32
def MAX_PIC_BUF_NUM : Nat := 128
def MAX_LIST_SIZE : Nat := 33

def IDR_FLAG : UInt8 := 0x02
def NOOUTPUT_FLAG : UInt8 := 0x08
def ERROR_FLAG : UInt8 := 0x10
def NULL_FLAG : UInt8 := 0x20
def FIELD_DISP_FLAG : UInt8 := 0x40
def NODISP_FLAG : UInt8 := 0x80

def H264_OUTPUT_MODE_FAST : UInt8 := 0x8

/-- `flags & mask` as a condition. -/
def hasFlag (flags mask : UInt8) : Bool := flags &&& mask != 0

/-- A memory management control operation: `struct DecRefPicMarking_s` without its link. -/
structure DecRefPicMarking where
  memoryManagementControlOperation : Nat
  differenceOfPicNumsMinus1 : Int := 0
  longTermPicNum : Int := 0
  longTermFrameIdx : Int := 0
  maxLongTermFrameIdxPlus1 : Int := 0
deriving DecidableEq, Repr

/-- `struct StorablePicture`. -/
structure StorablePicture where
  isUsed : Bool := false
  picStructure : PictureStructure := .frame
  poc : Int := 0
  topPoc : Int := 0
  bottomPoc : Int := 0
  framePoc : Int := 0
  frameNum : Int := 0
  picNum : Int := 0
  longTermPicNum : Int := 0
  longTermFrameIdx : Int := 0
  isLongTerm : Bool := false
  usedForReference : Bool := false
  isOutput : Bool := false
  preOutput : Bool := false
  nonExisting : Bool := false
  codedFrame : Bool := false
  topField : Option Nat := none
  bottomField : Option Nat := none
  frame : Option Nat := none
  idrFlag : Bool := false
  noOutputOfPriorPicsFlag : Bool := false
  longTermReferenceFlag : Bool := false
  adaptiveRefPicBufferingFlag : Bool := false
  frameMbsOnlyFlag : Bool := false
  dataFlag : UInt8 := 0
deriving Repr

/-- `struct FrameStore`. -/
structure FrameStore where
  isUsed : FieldBits := .empty
  isReference : FieldBits := .empty
  isLongTerm : FieldBits := .empty
  isOrigReference : FieldBits := .empty
  frameNum : Int := 0
  frameNumWrap : Int := 0
  longTermFrameIdx : Int := 0
  isOutput : Bool := false
  preOutput : Bool := false
  showFrame : Bool := false
  dataFlag : UInt8 := 0
  poc : Int := 0
  frame : Option Nat := none
  topField : Option Nat := none
  bottomField : Option Nat := none
  dpbFrameCount : Nat := 0
deriving Repr

/-- `struct SPSParameters`. -/
structure SPSParameters where
  picOrderCntType : Nat := 0
  log2MaxPicOrderCntLsbMinus4 : Nat := 0
  numRefFramesInPicOrderCntCycle : Nat := 0
  offsetForRefFrame : Nat → Int := fun _ => 0
  offsetForNonRefPic : Int := 0
  offsetForTopToBottomField : Int := 0
  frameMbsOnlyFlag : Bool := false
  numRefFrames : Int := 0
  log2MaxFrameNumMinus4 : Nat := 0

/-- `enum SliceType`, as far as the list initialisation tells the types apart. -/
inductive SliceType
  | pSlice
  | bSlice
  | other
deriving DecidableEq, Repr

/-- `struct Slice`. -/
structure Slice where
  frameNum : Int := 0
  idrFlag : Bool := false
  toppoc : Int := 0
  bottompoc : Int := 0
  framepoc : Int := 0
  picOrderCntLsb : Int := 0
  picOrderCntMsb : Int := 0
  fieldPicFlag : Bool := false
  bottomFieldFlag : Bool := false
  thisPOC : Int := 0
  nalReferenceIdc : Nat := 0
  absFrameNum : Int := 0
  deltaPicOrderCntBottom : Int := 0
  deltaPicOrderCnt0 : Int := 0
  deltaPicOrderCnt1 : Int := 0
  picStructure : PictureStructure := .frame
  longTermReferenceFlag : Bool := false
  noOutputOfPriorPicsFlag : Bool := false
  adaptiveRefPicBufferingFlag : Bool := false
  sliceType : SliceType := .other
  numRefIdxActive0 : Nat := 0
  numRefIdxActive1 : Nat := 0
  decRefPicMarkingBuffer : List DecRefPicMarking := []
  listX0 : List Nat := []
  listX1 : List Nat := []

/-- `struct VideoParameters`. -/
structure VideoParameters where
  prevPicOrderCntMsb : Int := 0
  prevPicOrderCntLsb : Int := 0
  lastHasMmco5 : Bool := false
  lastPicBottomField : Bool := false
  previousFrameNum : Int := 0
  frameNumOffset : Int := 0
  previousFrameNumOffset : Int := 0
  maxFrameNum : Int := 0
  preFrameNum : Int := 0
  expectedDeltaPerPicOrderCntCycle : Int := 0
  expectedPicOrderCnt : Int := 0
  recoveryPoint : Bool := false
  decPicture : Option Nat := none
  noReferencePicture : Option Nat := none

/-- `enum FirstInsertFrm_State`, in the order of its values. -/
inductive FirstInsertFrm
  | idle
  | out
  | reset
  | skipDone
deriving DecidableEq, Repr

/-- What the decoder sets from outside between the calls: output mode, reordering depth and
error policy. -/
structure Config where
  waitAuxDataFlag : Bool := false
  reorderOutput : Nat := 0
  fastOutputEnable : UInt8 := 0
  pocCheckCount : Nat := 0
  errorProcPolicy : Nat := 0
  bitstreamRestrictionFlag : Bool := false
  decDpbSize : Nat := 0
  withoutDisplayMode : Bool := false
  saveBufferMode : Bool := false
deriving Repr

/-- What one call of `prepare_display_buf` does: its result, the `show_frame` and the error flag
it leaves, and the stores whose buffers the display returns meanwhile. -/
structure Display where
  accepted : Bool := true
  showFrame : Bool := true
  errorFlag : Bool := false
  returned : List Nat := []
deriving DecidableEq, Repr

/-- What the outside sees of the buffer: a frame store handed to `prepare_display_buf`, a frame
store removed, and a picture asked for in vain. -/
inductive Event
  | handed (i : Nat)
  | removed (i : Nat)
  | noPicture
deriving DecidableEq, Repr

/-- `struct h264_dpb_stru` with its `DecodedPictureBuffer`. `answers` are the calls of
`prepare_display_buf` still to come, `trace` the events so far, the latest first. -/
structure Dpb where
  pics : Nat → StorablePicture := fun _ => {}
  stores : Nat → FrameStore := fun _ => {}
  fs : List Nat := []
  usedSize : Nat := 0
  fsRef : List Nat := []
  fsLtref : List Nat := []
  lastOutputPoc : Int := INT_MIN
  maxLongTermPicIdx : Int := 0
  initDone : Bool := false
  firstPicDone : Bool := false
  numRefFrames : Int := 0
  lastPicture : Option Nat := none
  dpbFrameCount : Nat := 0
  firstInsertFrame : FirstInsertFrm := .idle
  firstOutputPoc : Int := 0
  pocEvenOddFlag : Nat := 0
  longTermReferenceFlag : Bool := false
  config : Config := {}
  mSlice : Slice := {}
  mVideo : VideoParameters := {}
  mSPS : SPSParameters := {}
  answers : List Display := []
  trace : List Event := []

namespace Dpb

/-- `p_Dpb->size`. -/
def size (s : Dpb) : Nat := s.fs.length

/-- The frame stores `fs[0 .. used_size)`. -/
def used (s : Dpb) : List Nat := s.fs.take s.usedSize

/-- Read through a picture pointer. A NULL pointer reads as an unused picture. -/
def pic (s : Dpb) : Option Nat → StorablePicture
  | some p => s.pics p
  | none => {}

@[simp] theorem pic_some (s : Dpb) (p : Nat) : s.pic (some p) = s.pics p := rfl

/-- Write through a picture pointer. -/
def modifyPic (s : Dpb) (p : Option Nat) (f : StorablePicture → StorablePicture) : Dpb :=
  match p with
  | some p => { s with pics := fun q => if q = p then f (s.pics p) else s.pics q }
  | none => s

/-- Write to a frame store. -/
def modifyStore (s : Dpb) (i : Nat) (f : FrameStore → FrameStore) : Dpb :=
  { s with stores := fun j => if j = i then f (s.stores i) else s.stores j }

end Dpb

end MediaModules.H264Dpb
