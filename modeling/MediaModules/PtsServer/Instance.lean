import Mathlib.Tactic.Common
import MediaModules.Lib.NodeLists

/-!
# A PTS server instance

The instance of `pts_server_core.c` and its node lists. A node is its index in `all_free_ptn`.
`list_del` of a node that is in no list, `list_add_tail` of one that is in a list and the first
or last entry of an empty list corrupt memory and are `none`. `u32` and `u64` wrap around, and
so does `s32` in the kernel.
-/
namespace MediaModules.PtsServer

open MediaModules.Lib.NodeLists

/-- `abs` of a difference of two `u32` taken as an `int`, in its bits. -/
def absInt (x : UInt32) : UInt32 := if x.toInt32 < 0 then 0 - x else x

/-- `get_llabs`. -/
def getLlabs (value : UInt64) : UInt64 := if value.toInt64 > 0 then value else 0 - value

abbrev NodeId := Nat

/-- `struct ptsnode`. -/
structure PtsNode where
  offset : UInt32
  pts90k : UInt64
  pts64 : UInt64
  expiredCount : UInt32
  durationCount : UInt32
  index : UInt32
  deriving Repr, DecidableEq

/-- `struct psinstance`. -/
structure PtsServerIns where
  nodes : NodeId → PtsNode
  ptsList : List NodeId := []
  ptsFreeList : List NodeId := []
  mPtsServerInsId : Int32 := 0
  mMaxCount : UInt32 := 0
  mLookupThreshold : UInt32 := 0
  mPtsCheckinStarted : UInt32 := 0
  mPtsCheckoutStarted : UInt32 := 0
  mPtsCheckoutFailCount : UInt32 := 0
  mFrameDuration : UInt32 := 0
  mFrameDuration64 : UInt64 := 0
  mFirstCheckinPts : UInt32 := 0
  mFirstCheckinOffset : UInt32 := 0
  mFirstCheckinSize : UInt32 := 0
  mLastCheckinPts : UInt32 := 0
  mLastCheckinOffset : UInt32 := 0
  mLastCheckinSize : UInt32 := 0
  mAlignmentOffset : UInt32 := 0
  mLastCheckoutPts : UInt32 := 0
  mLastPeekPts : UInt32 := 0
  mLastCheckoutOffset : UInt32 := 0
  mFirstCheckinPts64 : UInt32 := 0
  mLastCheckinPts64 : UInt32 := 0
  mLastCheckoutPts64 : UInt64 := 0
  mLastPeekPts64 : UInt64 := 0
  mDoubleCheckFrameDuration : UInt32 := 0
  mDoubleCheckFrameDuration64 : UInt64 := 0
  mDoubleCheckFrameDurationCount : UInt32 := 0
  mLastDoubleCheckoutPts : UInt32 := 0
  mLastDoubleCheckoutPts64 : UInt64 := 0
  mDecoderDuration : UInt32 := 0
  kDoubleCheckThreshold : UInt32 := 0
  mLastDropIndex : UInt32 := 0
  mLastIndex : UInt32 := 0
  mListSize : UInt32 := 0
  mLastCheckoutCurOffset : UInt32 := 0
  setC2Mode : Bool := false
  mTrickMode : Int32 := 0
  mOffsetMode : Bool := false
  mLastCheckinPiecePts : UInt32 := 0
  mLastCheckinPiecePts64 : UInt64 := 0
  mLastCheckinPieceOffset : UInt32 := 0
  mLastCheckinPieceSize : UInt32 := 0
  mLastCheckoutIndex : UInt32 := 0
  mLastCheckinDurationCount : UInt32 := 0
  mLastCheckoutDurationCount : UInt32 := 0
  mLastShotBound : UInt32 := 0
  mStickyWrapFlag : UInt32 := 0
  mLastCheckoutPts90k : UInt64 := 0
  mFirstCheckinPts90k : UInt64 := 0
  mLastCheckinPts90k : UInt64 := 0
  mRef : Int32 := 0
  lastOffset : Fin 2 → UInt32 := fun _ => 0
  writeCount : UInt32 := 0
  mAudioOffsetMargin : UInt32 := 0

/-- `struct ps_alloc_para`. -/
structure AllocPara where
  mMaxCount : UInt32
  mLookupThreshold : UInt32
  kDoubleCheckThreshold : UInt32
  deriving Repr, DecidableEq

/-- What `ptsserver_ins_init_syncinfo` uses without parameters: `DEFAULT_FREE_LIST_COUNT`,
`DEFAULT_LOOKUP_THRESHOLD` and `DEFAULT_DOULBCHECK_THRESHOLD`. -/
def defaultAllocPara : AllocPara := ⟨500, 2500, 5⟩

namespace PtsServerIns

/-- Zeroed memory, with the node array at some address. -/
def zero (nodes : NodeId → PtsNode) : PtsServerIns := { nodes := nodes }

/-! ## Node lists -/

/-- `list_del`. -/
def listDel (n : NodeId) (ins : PtsServerIns) : Option PtsServerIns :=
  if n ∈ ins.ptsList then some { ins with ptsList := ins.ptsList.erase n }
  else if n ∈ ins.ptsFreeList then some { ins with ptsFreeList := ins.ptsFreeList.erase n }
  else none

/-- The node is in one of the lists. -/
def Linked (ins : PtsServerIns) (n : NodeId) : Prop := n ∈ ins.ptsList ∨ n ∈ ins.ptsFreeList

instance (ins : PtsServerIns) (n : NodeId) : Decidable (ins.Linked n) :=
  inferInstanceAs (Decidable (_ ∨ _))

/-- `list_add_tail` to the free list. -/
def freeAddTail (n : NodeId) (ins : PtsServerIns) : Option PtsServerIns :=
  if ins.Linked n then none else some { ins with ptsFreeList := ins.ptsFreeList ++ [n] }

/-- `list_add_tail` in front of the first node of `pts_list` with `stop`, which is the head
when there is none. -/
def listAddBefore (stop : NodeId → Bool) (n : NodeId) (ins : PtsServerIns) :
    Option PtsServerIns :=
  if ins.Linked n then none else some { ins with ptsList := insertBefore stop n ins.ptsList }

/-- `list_del` and `list_add_tail` to the free list, and `mListSize--`. -/
def queueEmpty (n : NodeId) (ins : PtsServerIns) : Option PtsServerIns := do
  let ins ← ins.listDel n
  let ins ← ins.freeAddTail n
  some { ins with mListSize := ins.mListSize - 1 }

def setNode (n : NodeId) (ptn : PtsNode) (ins : PtsServerIns) : PtsServerIns :=
  { ins with nodes := Function.update ins.nodes n ptn }

end PtsServerIns

/-! ## Set-up -/

/-- `ptsserver_ins_init_syncinfo`. `nodes` is what the array holds, `none` when `vmalloc`
fails. -/
def ptsserverInsInitSyncinfo (allocParm : AllocPara) (nodes : Option (NodeId → PtsNode))
    (ins : PtsServerIns) : PtsServerIns × Int :=
  let ins : PtsServerIns :=
    { ins with
      mMaxCount := allocParm.mMaxCount
      mLookupThreshold := allocParm.mLookupThreshold
      kDoubleCheckThreshold := allocParm.kDoubleCheckThreshold
      mPtsCheckinStarted := 0
      mPtsCheckoutStarted := 0
      mPtsCheckoutFailCount := 0
      mFrameDuration := 0
      mFrameDuration64 := 0
      mFirstCheckinPts := 0
      mFirstCheckinOffset := 0
      mFirstCheckinSize := 0
      mLastCheckinPts := 0
      mLastCheckinOffset := 0
      mLastCheckinSize := 0
      mAlignmentOffset := 0
      mLastCheckoutPts := 0
      mLastPeekPts := 0
      mLastCheckoutOffset := 0
      mFirstCheckinPts64 := 0
      mLastCheckinPts64 := 0
      mLastCheckoutPts64 := 0
      mLastPeekPts64 := 0
      mDoubleCheckFrameDuration := 0
      mDoubleCheckFrameDuration64 := 0
      mDoubleCheckFrameDurationCount := 0
      mLastDoubleCheckoutPts := 0
      mLastDoubleCheckoutPts64 := 0
      mDecoderDuration := 0
      mListSize := 0
      mLastCheckoutCurOffset := 0
      mLastCheckinPiecePts := 0
      mLastCheckinPiecePts64 := 0
      mLastCheckinPieceOffset := 0
      mLastCheckinPieceSize := 0
      mLastCheckoutIndex := 0
      mLastCheckinDurationCount := 0
      mLastCheckoutDurationCount := 0
      mLastShotBound := 0
      mTrickMode := 0
      setC2Mode := false
      mOffsetMode := false
      mStickyWrapFlag := 0
      mLastDropIndex := 0
      mLastIndex := 0
      mLastCheckoutPts90k := 0
      mFirstCheckinPts90k := 0
      mLastCheckinPts90k := 0
      mAudioOffsetMargin := 0
      ptsList := []
      ptsFreeList := [] }
  match nodes with
  | none => (ins, -1)
  | some nodes =>
    ({ ins with nodes := nodes, ptsFreeList := List.range ins.mMaxCount.toNat }, 0)

/-- `ptsserver_set_mode`. -/
def ptsserverSetMode (setMode : Bool) (ins : PtsServerIns) : PtsServerIns :=
  { ins with setC2Mode := setMode, mOffsetMode := if setMode then true else ins.mOffsetMode }

/-- `struct startoffset`. -/
structure StartOffset where
  mBaseOffset : UInt32
  mAlignmentOffset : UInt32
  deriving Repr, DecidableEq

/-- `ptsserver_set_first_checkin_offset`. -/
def ptsserverSetFirstCheckinOffset (mStartOffset : StartOffset) (ins : PtsServerIns) :
    PtsServerIns :=
  { ins with
    mLastCheckinOffset := mStartOffset.mBaseOffset
    mLastCheckinPieceOffset := mStartOffset.mBaseOffset
    mAlignmentOffset := mStartOffset.mAlignmentOffset }

/-- `ptsserver_set_trick_mode`. -/
def ptsserverSetTrickMode (mode : Int32) (ins : PtsServerIns) : PtsServerIns :=
  { ins with mTrickMode := mode, mOffsetMode := mode != 0 }

/-- `ptsserver_set_audio_offset_margin`. -/
def ptsserverSetAudioOffsetMargin (offsetMargin : UInt32) (ins : PtsServerIns) : PtsServerIns :=
  { ins with mAudioOffsetMargin := offsetMargin }

/-- The loop of `ptsserver_ins_reset`, which takes the first node as long as there is one. -/
def resetList : List NodeId → PtsServerIns → Option PtsServerIns
  | [], ins => some ins
  | n :: rest, ins => do
    let ins ← ins.queueEmpty n
    resetList rest ins

/-- `ptsserver_ins_reset`. -/
def ptsserverInsReset (ins : PtsServerIns) : Option PtsServerIns := do
  let ins ← resetList ins.ptsList ins
  some
    { ins with
      mPtsCheckinStarted := 0
      mPtsCheckoutStarted := 0
      mPtsCheckoutFailCount := 0
      mFrameDuration := 0
      mFrameDuration64 := 0
      mFirstCheckinPts := 0
      mFirstCheckinOffset := 0
      mFirstCheckinSize := 0
      mLastCheckinPts := 0
      mLastCheckinOffset := 0
      mLastCheckinSize := 0
      mAlignmentOffset := 0
      mLastCheckoutPts := 0
      mLastCheckoutOffset := 0
      mFirstCheckinPts64 := 0
      mLastCheckinPts64 := 0
      mLastCheckoutPts64 := 0
      mDoubleCheckFrameDuration := 0
      mDoubleCheckFrameDuration64 := 0
      mDoubleCheckFrameDurationCount := 0
      mLastDoubleCheckoutPts := 0
      mLastDoubleCheckoutPts64 := 0
      mDecoderDuration := 0
      mLastCheckoutCurOffset := 0
      mLastCheckinPiecePts := 0
      mLastCheckinPiecePts64 := 0
      mLastCheckinPieceOffset := 0
      mLastCheckinPieceSize := 0
      mLastCheckoutIndex := 0
      mLastCheckinDurationCount := 0
      mLastCheckoutDurationCount := 0
      mLastShotBound := 0
      mTrickMode := 0
      setC2Mode := false
      mOffsetMode := false
      mStickyWrapFlag := 0
      mLastCheckoutPts90k := 0
      mFirstCheckinPts90k := 0
      mLastCheckinPts90k := 0
      mListSize := 0
      mAudioOffsetMargin := 0 }

end MediaModules.PtsServer
