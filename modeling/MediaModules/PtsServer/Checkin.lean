import Mathlib.Tactic.Common
import MediaModules.PtsServer.Instance

/-!
# Check-in

`ptsserver_checkin_pts_size` and `ptsserver_checkin_apts_size` on an instance. The safe list
loops only move the node they are at, so they go through the list as it was.
-/
namespace MediaModules.PtsServer

/-- `DEFAULT_REWIND_PTS_THRESHOLD`. -/
abbrev rewindPtsThreshold : UInt64 := 5000000

/-- `MAX_EXPIRED_COUNT`. -/
abbrev maxExpiredCount : UInt32 := 300

/-- `struct checkinptssize`. -/
structure CheckinPtsSize where
  size : UInt32
  pts : UInt32
  pts64 : UInt64
  deriving Repr, DecidableEq

/-- `struct checkinaptssize`. -/
structure CheckinAptsSize where
  offset : UInt32
  size : UInt32
  pts90k : UInt64
  pts64 : UInt64
  deriving Repr, DecidableEq

/-! ## Eviction -/

/-- The first eviction loop: nodes up to `mLastDropIndex`, which moves with them. The flag is
whether `del_ptn` was set. -/
def evictDropped : List NodeId → PtsServerIns → Bool → Option (PtsServerIns × Bool)
  | [], ins, del => some (ins, del)
  | n :: rest, ins, del =>
    if (ins.nodes n).index ≤ ins.mLastDropIndex then do
      let ins ← ins.queueEmpty n
      evictDropped rest { ins with mLastDropIndex := ins.mLastDropIndex + 1 } true
    else evictDropped rest ins del

/-- The second eviction: the first node. -/
def evictFirst (ins : PtsServerIns) : Option PtsServerIns :=
  match ins.ptsList with
  | [] => none
  | n :: _ => ins.queueEmpty n

/-- The eviction of `ptsserver_checkin_pts_size`. -/
def checkinEvict (ins : PtsServerIns) : Option PtsServerIns :=
  if ins.mListSize ≥ ins.mMaxCount then
    (evictDropped ins.ptsList ins false).bind fun p =>
      if p.2 then some p.1 else evictFirst p.1
  else some ins

/-! ## Video check-in -/

/-- The last two sizes and the piece offset. -/
def recordCheckin (req : CheckinPtsSize) (isOffset : Bool) (ins : PtsServerIns) : PtsServerIns :=
  { ins with
    lastOffset := Function.update ins.lastOffset
      ⟨ins.writeCount.toNat % 2, Nat.mod_lt _ (by decide)⟩ req.size
    writeCount := ins.writeCount + 1
    mLastCheckinPieceOffset :=
      if isOffset then req.size else ins.mLastCheckinPieceOffset + ins.mLastCheckinPieceSize }

/-- The record of a piece at the end. -/
def recordPiece (req : CheckinPtsSize) (ins : PtsServerIns) : PtsServerIns :=
  { ins with
    mLastCheckinPieceSize := req.size
    mLastCheckinPiecePts := req.pts
    mLastCheckinPiecePts64 := req.pts64 }

/-- The node that goes into a new entry. -/
def headNode (req : CheckinPtsSize) (isOffset : Bool) (ins : PtsServerIns) (ptn : PtsNode) :
    PtsNode :=
  { ptn with
    offset :=
      if isOffset then req.size
      else ins.mLastCheckinOffset + (ins.mLastCheckinPieceOffset - ins.mLastCheckinOffset)
    pts90k := req.pts.toUInt64
    pts64 := req.pts64
    expiredCount := maxExpiredCount
    index := ins.mLastIndex }

/-- The test that ends the search for the place of `ptn`. -/
def sortStop (setC2Mode : Bool) (ptn cur : PtsNode) : Bool :=
  if setC2Mode then cur.pts64 ≥ ptn.pts64
  else if ptn.pts64 ≠ -1 then
    ptn.pts64 ≤ cur.pts64 ∧ getLlabs (ptn.pts64 - cur.pts64) < rewindPtsThreshold ∧
      (absInt (ptn.index - cur.index)).toInt32 < 120
  else ptn.offset ≤ cur.offset

/-- The timestamp is far behind the one of the last check-in, of which 32 bits are kept. -/
def rewound (ptn : PtsNode) (ins : PtsServerIns) : Bool :=
  ptn.pts64 < ins.mLastCheckinPts64.toUInt64 ∧
    getLlabs (ptn.pts64 - ins.mLastCheckinPts64.toUInt64) > rewindPtsThreshold

/-- The head node branch: the node, or `none` when there is no free one. -/
def checkinHead (req : CheckinPtsSize) (isOffset : Bool) (ins : PtsServerIns) :
    Option (PtsServerIns × Option NodeId) :=
  match ins.ptsFreeList with
  | [] => some (ins, none)
  | n :: _ => do
    let ins ← ins.listDel n
    let ptn := headNode req isOffset ins (ins.nodes n)
    let ins : PtsServerIns :=
      { ins with
        mLastCheckinSize :=
          if isOffset then ins.mLastCheckinSize
          else ins.mLastCheckinPieceOffset - ins.mLastCheckinOffset
        mLastIndex := ins.mLastIndex + 1 }
    let ins := ins.setNode n ptn
    let ins ← ins.listAddBefore (fun cur => sortStop ins.setC2Mode ptn (ins.nodes cur)) n
    let ins := ins.setNode n { ptn with durationCount := ins.mLastCheckinDurationCount }
    let ins : PtsServerIns :=
      { ins with
        mLastCheckinDurationCount :=
          if rewound ptn ins then ins.mLastCheckinDurationCount + 1
          else ins.mLastCheckinDurationCount
        mLastCheckinPts := ptn.pts90k.toUInt32
        mLastCheckinPts64 := ptn.pts64.toUInt32
        mListSize := ins.mListSize + 1 }
    some (ins, some n)

/-- The record of the first check-in. -/
def recordFirst (req : CheckinPtsSize) (isOffset : Bool) (ins : PtsServerIns) : PtsServerIns :=
  if ins.mPtsCheckinStarted = 0 then
    { ins with
      mFirstCheckinOffset := if isOffset then req.size else 0
      mFirstCheckinSize := req.size
      mFirstCheckinPts := req.pts
      mFirstCheckinPts64 := req.pts64.toUInt32
      mPtsCheckinStarted := 1 }
  else ins

/-- The offset of the last check-in, which an alignment replaces once. -/
def alignOffset (offset : UInt32) (ins : PtsServerIns) : PtsServerIns :=
  if ins.mAlignmentOffset ≠ 0 then
    { ins with
      mLastCheckinOffset := ins.mLastCheckinOffset + ins.mAlignmentOffset
      mLastCheckinPieceOffset := ins.mLastCheckinPieceOffset + ins.mAlignmentOffset
      mAlignmentOffset := 0 }
  else { ins with mLastCheckinOffset := offset }

/-- What follows once a node is known. -/
def checkinDone (req : CheckinPtsSize) (isOffset : Bool) (offset : UInt32) (ins : PtsServerIns) :
    PtsServerIns :=
  recordPiece req (alignOffset offset (recordFirst req isOffset ins))

/-- `ptsserver_checkin_pts_size`. -/
def ptsserverCheckinPtsSize (req : CheckinPtsSize) (isOffset : Bool) (ins : PtsServerIns) :
    Option (PtsServerIns × Int) := do
  let ins ← checkinEvict ins
  let ins := recordCheckin req isOffset ins
  if req.pts = 0 then
    if ins.mListSize ≠ 0 then
      match ins.ptsList.getLast? with
      | none => none
      | some n => some (checkinDone req isOffset (ins.nodes n).offset ins, 0)
    else some (recordPiece req ins, 0)
  else
    let (ins, n) ← checkinHead req isOffset ins
    match n with
    | none => some (ins, -1)
    | some n => some (checkinDone req isOffset (ins.nodes n).offset ins, 0)

/-! ## Audio check-in -/

/-- The eviction of `ptsserver_checkin_apts_size`. -/
def checkinAptsEvict (ins : PtsServerIns) : Option PtsServerIns :=
  if ins.mListSize ≥ ins.mMaxCount then evictFirst ins else some ins

/-- The new entry of an audio check-in, at the end of the list. -/
def checkinAptsNode (req : CheckinAptsSize) (ins : PtsServerIns) :
    Option (PtsServerIns × Option NodeId) :=
  match ins.ptsFreeList with
  | [] => some (ins, none)
  | n :: _ => do
    let ins ← ins.listDel n
    let ins := ins.setNode n
      { ins.nodes n with offset := req.offset, pts90k := req.pts90k, pts64 := req.pts64 }
    let ins ← ins.listAddBefore (fun _ => false) n
    some ({ ins with mListSize := ins.mListSize + 1 }, some n)

/-- The record of the first audio check-in. -/
def recordFirstApts (req : CheckinAptsSize) (ins : PtsServerIns) : PtsServerIns :=
  if ins.mPtsCheckinStarted = 0 then
    { ins with
      mFirstCheckinOffset := req.offset
      mFirstCheckinSize := req.size
      mFirstCheckinPts90k := req.pts90k
      mFirstCheckinPts64 := req.pts64.toUInt32
      mPtsCheckinStarted := 1 }
  else ins

/-- The records of an audio check-in. -/
def checkinAptsDone (req : CheckinAptsSize) (ins : PtsServerIns) : PtsServerIns :=
  let ins := recordFirstApts req ins
  { ins with
    mLastCheckinOffset := if ins.mAlignmentOffset ≠ 0 then ins.mAlignmentOffset else req.offset
    mAlignmentOffset := 0
    mLastCheckinSize := req.size
    mLastCheckinPts90k := req.pts90k
    mLastCheckinPts64 := req.pts64.toUInt32 }

/-- `ptsserver_checkin_apts_size`. -/
def ptsserverCheckinAptsSize (req : CheckinAptsSize) (ins : PtsServerIns) :
    Option (PtsServerIns × Int) := do
  let ins ← checkinAptsEvict ins
  let (ins, n) ← checkinAptsNode req ins
  match n with
  | none => some (ins, -1)
  | some _ => some (checkinAptsDone req ins, 0)

end MediaModules.PtsServer
