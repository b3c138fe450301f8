import Mathlib.Tactic.Common
import MediaModules.PtsServer.Checkin

/-!
# Check-out

`ptsserver_checkout_pts_offset`, `ptsserver_peek_pts_offset` and
`ptsserver_checkout_apts_offset` on an instance. The locals of a search loop are a record and
the loop is a recursion over the list as it was when the loop started: the safe loops only
move the node they are at.
-/
namespace MediaModules.PtsServer

/-- `struct checkoutptsoffset`. -/
structure CheckoutPtsOffset where
  offset : UInt64
  pts : UInt32
  pts64 : UInt64
  deriving Repr, DecidableEq

/-- `struct checkoutaptsoffset`. -/
structure CheckoutAptsOffset where
  offset : UInt64
  pts90k : UInt64
  pts64 : UInt64
  deriving Repr, DecidableEq

/-- `div_u64`; a division by zero gives zero, as the instruction does on the platform. -/
def divU64 (dividend : UInt64) (divisor : UInt32) : UInt64 := dividend / divisor.toUInt64

/-- `pts_90k == -1`. -/
def PtsNode.invalid (ptn : PtsNode) : Bool := ptn.pts90k = 0xffffffffffffffff

/-- 240 MB. -/
abbrev dropDistance : UInt32 := 251658240

/-- `MAX_CHECKOUT_RETRY_COUNT`. -/
abbrev maxCheckoutRetryCount : Int32 := 10

/-- `MAX_CHECKOUT_BOUND_VALUE`. -/
abbrev maxCheckoutBoundValue : Int32 := 5

/-! ## The search of a check-out -/

/-- The locals of `ptsserver_checkout_pts_offset` that its first loop works on. -/
structure Scan where
  ins : PtsServerIns
  find : Bool
  findPtn : Option NodeId
  findIndex : Int32
  fitOffsetPtn : Option NodeId
  fitOffsetNumber : Int32
  fitPtsPtn : Option NodeId
  fitPtsNumber : Int32
  expectedOffsetDiff : UInt32
  expectedPts : UInt64
  findFrameNum : Int32
  mustHaveFit : Bool
  retryCount : Int32
  i : Int32

def Scan.start (ins : PtsServerIns) : Scan where
  ins := ins
  find := false
  findPtn := none
  findIndex := -1
  fitOffsetPtn := none
  fitOffsetNumber := -1
  fitPtsPtn := none
  fitPtsNumber := -1
  expectedOffsetDiff := ins.mLookupThreshold
  expectedPts := ins.mLastCheckoutPts64
  findFrameNum := -1
  mustHaveFit := false
  retryCount := maxCheckoutRetryCount
  i := 0

/-- A node that is behind in offset and in time loses one of its chances. -/
def scanExpire (cur : UInt32) (n : NodeId) (s : Scan) : Scan :=
  let ptn := s.ins.nodes n
  if (ptn.offset = 0xffffffff ∨ ptn.offset < cur) ∧
      (ptn.pts64 < s.ins.mLastCheckoutPts64 ∨ ptn.invalid = true) then
    { s with ins := s.ins.setNode n { ptn with expiredCount := ptn.expiredCount - 1 } }
  else s

/-- The first node that follows the last check-out in time. -/
def scanFitPts (offsetAbs : UInt32) (n : NodeId) (s : Scan) : Scan :=
  let ptn := s.ins.nodes n
  let diff := ptn.pts64 - s.ins.mLastCheckoutPts64
  if s.fitPtsPtn = none ∧ s.ins.mLastCheckoutPts64 > 0 ∧ diff > 10000 ∧ diff < 500000 ∧
      offsetAbs < 50000 then
    { s with fitPtsPtn := some n, fitPtsNumber := s.i }
  else s

/-- Inside the threshold: the nearest node by offset. -/
def scanFitOffset (cur offsetAbs : UInt32) (n : NodeId) (s : Scan) : Scan :=
  let ptn := s.ins.nodes n
  if offsetAbs ≤ s.expectedOffsetDiff ∧ cur > ptn.offset then
    { s with
      fitOffsetPtn := some n
      fitOffsetNumber := s.i
      expectedOffsetDiff := offsetAbs
      mustHaveFit := true
      ins := if ptn.invalid then { s.ins with mOffsetMode := true } else s.ins
      find := if ptn.invalid then true else s.find }
  else s

/-- Inside the threshold: the earliest node by time. -/
def scanFind (cur : UInt32) (n : NodeId) (s : Scan) : Scan :=
  let ptn := s.ins.nodes n
  if ptn.pts64 ≥ s.ins.mLastCheckoutPts64 ∧ s.ins.mOffsetMode = false ∧ cur > ptn.offset ∧
      (ptn.pts64 ≤ s.expectedPts ∨ s.expectedPts = s.ins.mLastCheckoutPts64) then
    { s with find := true, findIndex := s.i, findPtn := some n, expectedPts := ptn.pts64 }
  else s

/-- The comparisons of a node with the request. -/
def scanFit (cur offsetAbs : UInt32) (n : NodeId) (s : Scan) : Scan :=
  if offsetAbs ≤ s.ins.mLookupThreshold then
    let s := scanFind cur n (scanFitOffset cur offsetAbs n s)
    if cur > (s.ins.nodes n).offset ∨ s.findFrameNum ≥ 0 then { s with findFrameNum := 0 } else s
  else if s.findFrameNum ≥ 0 then { s with findFrameNum := s.findFrameNum + 1 }
  else s

/-- The drop of a node that is too far away or out of chances and no candidate. -/
def scanDrop (offsetAbs : UInt32) (n : NodeId) (s : Scan) : Option Scan :=
  if (offsetAbs > dropDistance ∨ (s.ins.nodes n).expiredCount ≤ 0) ∧ s.findPtn ≠ some n ∧
      s.fitOffsetPtn ≠ some n ∧ s.fitPtsPtn ≠ some n then
    (s.ins.queueEmpty n).map fun ins => { s with ins := ins }
  else some s

/-- How many more nodes are looked at. -/
def scanRetry (s : Scan) : Scan :=
  if s.find = true ∧ s.findIndex = 0 ∧ s.ins.mLastCheckoutIndex > 0 then
    { s with retryCount := s.ins.mListSize.toInt32 }
  else s

/-- The body of the loop, up to its last test. -/
def scanNode (cur : UInt32) (n : NodeId) (s : Scan) : Option Scan :=
  let offsetAbs := absInt (cur - (s.ins.nodes n).offset)
  let s := scanFit cur offsetAbs n (scanFitPts offsetAbs n (scanExpire cur n s))
  (scanDrop offsetAbs n s).map scanRetry

/-- The first loop of `ptsserver_checkout_pts_offset`. -/
def scan (cur : UInt32) : List NodeId → Scan → Option Scan
  | [], s => some s
  | n :: rest, s => do
    let s ← scanNode cur n s
    if s.findFrameNum ≥ s.retryCount then some s
    else scan cur rest { s with i := s.i + 1 }

/-! ## The choice of a node -/

/-- The locals from the choice of a node on. -/
structure Choice where
  ins : PtsServerIns
  find : Bool
  findPtn : Option NodeId
  findIndex : Int32
  invalidMode : Bool
  shotBound : Int32
  cur : UInt32
  out : CheckoutPtsOffset

/-- Take the node that is nearest by offset. -/
def Choice.byOffset (s : Scan) (c : Choice) : Choice :=
  { c with
    find := true
    findPtn := s.fitOffsetPtn
    findIndex := s.fitOffsetNumber
    shotBound := c.shotBound - 1
    ins := { c.ins with mStickyWrapFlag := 0 } }

/-- The choice in offset mode. -/
def chooseOffsetMode (s : Scan) (c : Choice) : Choice :=
  match s.fitOffsetPtn with
  | none => c
  | some fit => { c.byOffset s with invalidMode := (c.ins.nodes fit).invalid }

/-- The choice between the candidates by time and by offset. -/
def choosePtsMode (s : Scan) (c : Choice) : Choice :=
  match s.mustHaveFit, s.fitOffsetPtn with
  | true, some fit =>
    let c := { c with find := true }
    match s.fitPtsPtn with
    | some fitPts =>
      if c.ins.mPtsCheckoutStarted ≠ 0 ∧ c.findPtn ≠ some fitPts ∧
          (c.ins.nodes fitPts).durationCount = (c.ins.nodes fit).durationCount ∧
          c.ins.mStickyWrapFlag = 0 then
        if (c.ins.nodes fitPts).pts64 > (c.ins.nodes fit).pts64 ∧
            (c.ins.nodes fit).pts64 - c.ins.mLastCheckoutPts64 > 10000 then
          c.byOffset s
        else
          { c with
            findPtn := some fitPts
            findIndex := s.fitPtsNumber
            shotBound := c.shotBound - 1
            ins := { c.ins with mStickyWrapFlag := 1 } }
      else choosePtsRest s c
    | none => choosePtsRest s c
  | _, _ => c
where
  /-- Neither the candidate by time nor a reason to doubt it. -/
  choosePtsRest (s : Scan) (c : Choice) : Choice :=
    if c.findPtn = none ∨ c.ins.mPtsCheckoutStarted = 0 then c.byOffset s
    else { c with ins := { c.ins with mStickyWrapFlag := 0 } }

/-- The choice after the first loop. -/
def choose (s : Scan) (c : Choice) : Choice :=
  if c.ins.mOffsetMode then chooseOffsetMode s c else choosePtsMode s c

/-- The loop of the second search, for trick mode or the first check-out. -/
def retryScan (cur : UInt32) (nodes : NodeId → PtsNode) :
    List NodeId → Int32 → Int32 → UInt32 → Bool → Option NodeId → Int32 →
      Bool × Option NodeId × Int32
  | [], _, _, _, find, findPtn, findIndex => (find, findPtn, findIndex)
  | n :: rest, i, findFrameNum, expectedOffsetDiff, find, findPtn, findIndex =>
    let offsetAbs := absInt (cur - (nodes n).offset)
    if offsetAbs ≤ expectedOffsetDiff ∧ cur > (nodes n).offset then
      retryScan cur nodes rest (i + 1) (findFrameNum + 1) offsetAbs true (some n) i
    else if findFrameNum > 5 then (find, findPtn, findIndex)
    else
      retryScan cur nodes rest (i + 1) (if find then findFrameNum + 1 else findFrameNum)
        expectedOffsetDiff find findPtn findIndex

/-- The second search. -/
def chooseRetry (c : Choice) : Choice :=
  if c.find = false ∧ (c.ins.mTrickMode = 1 ∨ c.ins.mPtsCheckoutStarted = 0) then
    let (find, findPtn, findIndex) :=
      retryScan c.cur c.ins.nodes c.ins.ptsList 0 0 10000 c.find c.findPtn c.findIndex
    { c with find := find, findPtn := findPtn, findIndex := findIndex }
  else c

/-- The loop of the third search. -/
def c2Scan (cur last : UInt32) (nodes : NodeId → PtsNode) :
    List NodeId → UInt32 → Option NodeId → Option NodeId
  | [], _, findPtn => findPtn
  | n :: rest, minOffsetAbs, findPtn =>
    let offsetAbs := absInt (cur - (nodes n).offset)
    if cur > (nodes n).offset ∧ (nodes n).offset ≥ last ∧ offsetAbs < minOffsetAbs then
      c2Scan cur last nodes rest offsetAbs (some n)
    else c2Scan cur last nodes rest minOffsetAbs findPtn

/-- The third search, in C2 mode. -/
def chooseC2 (c : Choice) : Choice :=
  if c.find = false ∧ c.ins.setC2Mode = true then
    let started := c.ins.mPtsCheckoutStarted ≠ 0
    let out : CheckoutPtsOffset :=
      if started then
        { c.out with pts := c.ins.mLastCheckoutPts, pts64 := c.ins.mLastCheckoutPts64 }
      else c.out
    let minOffsetAbs :=
      if started then absInt (c.cur - c.ins.mLastCheckoutCurOffset) else 0xffffffff
    let findPtn := c2Scan c.cur c.ins.mLastCheckoutCurOffset c.ins.nodes c.ins.ptsList
      minOffsetAbs c.findPtn
    match findPtn.or (if started then none else c.ins.ptsList.head?) with
    | some n =>
      { c with
        find := true
        findPtn := some n
        cur := (c.ins.nodes n).offset
        out := { out with pts := (c.ins.nodes n).pts90k.toUInt32, pts64 := (c.ins.nodes n).pts64 } }
    | none => { c with find := true, cur := c.ins.mLastCheckoutCurOffset, out := out }
  else c

/-- The chosen node is reported and goes to the free list. -/
def takeChosen (c : Choice) : Option Choice :=
  match c.find, c.findPtn with
  | true, some n =>
    let ptn := c.ins.nodes n
    let c : Choice :=
      if c.invalidMode then c
      else
        { c with
          out := { c.out with pts := ptn.pts90k.toUInt32, pts64 := ptn.pts64 }
          ins := { c.ins with mLastCheckoutDurationCount := ptn.durationCount } }
    (c.ins.queueEmpty n).map fun ins => { c with ins := ins }
  | _, _ => some c

/-- The search in a list that has nodes. -/
def checkoutSearch (c : Choice) : Option Choice := do
  let s ← scan c.cur c.ins.ptsList (.start c.ins)
  let c := choose s { c with
    ins := s.ins, find := s.find, findPtn := s.findPtn, findIndex := s.findIndex }
  let c := chooseC2 (chooseRetry c)
  takeChosen { c with ins := { c.ins with mLastCheckoutIndex := c.findIndex.toUInt32 } }

/-! ## The result of a check-out -/

/-- The counts and flags of a check-out without a timestamp. -/
def failRecord (c : Choice) : PtsServerIns :=
  { c.ins with
    mPtsCheckoutFailCount := c.ins.mPtsCheckoutFailCount + 1
    mStickyWrapFlag := if c.cur < c.ins.mLastCheckoutCurOffset then 0 else c.ins.mStickyWrapFlag
    mLastCheckoutDurationCount :=
      match c.invalidMode, c.findPtn with
      | true, some n => (c.ins.nodes n).durationCount
      | _, _ => c.ins.mLastCheckoutDurationCount }

/-- The last result goes on by a duration. -/
def extrapolate (ins : PtsServerIns) : PtsServerIns :=
  if ins.mDecoderDuration ≠ 0 then
    { ins with
      mLastCheckoutPts := ins.mLastCheckoutPts + ins.mDecoderDuration * 90 / 96
      mLastCheckoutPts64 := ins.mLastCheckoutPts64 + (ins.mDecoderDuration * 1000 / 96).toUInt64 }
  else if ins.mPtsCheckoutStarted = 0 then
    { ins with mLastCheckoutPts := 0xffffffff, mLastCheckoutPts64 := 0xffffffffffffffff }
  else
    { ins with
      mLastCheckoutPts := ins.mLastCheckoutPts + ins.mFrameDuration
      mLastCheckoutPts64 := ins.mLastCheckoutPts64 + ins.mFrameDuration64 }

/-- No node, or one without a timestamp. -/
def checkoutFail (c : Choice) : PtsServerIns × CheckoutPtsOffset :=
  let ins := extrapolate (failRecord c)
  ({ ins with mLastCheckoutCurOffset := c.cur },
    { c.out with pts := ins.mLastCheckoutPts, pts64 := ins.mLastCheckoutPts64 })

/-- The first estimate of the frame duration. -/
def frameDurationInit (out : CheckoutPtsOffset) (ins : PtsServerIns) : PtsServerIns :=
  let dur := (divU64 (out.pts - ins.mLastCheckoutPts).toUInt64
    (ins.mPtsCheckoutFailCount + 1)).toUInt32
  let dur64 := divU64 (out.pts64 - ins.mLastCheckoutPts64) (ins.mPtsCheckoutFailCount + 1)
  { ins with
    mFrameDuration := if dur > 9000 then 0 else dur
    mFrameDuration64 := if dur64 > 100000 then 0 else dur64 }

/-- Count how often the duration since the last check-out came in a row. -/
def frameDurationCount (out : CheckoutPtsOffset) (ins : PtsServerIns) : PtsServerIns :=
  let dur := (divU64 (out.pts - ins.mLastDoubleCheckoutPts).toUInt64
    (ins.mPtsCheckoutFailCount + 1)).toUInt32
  let dur64 := divU64 (out.pts64 - ins.mLastDoubleCheckoutPts64) (ins.mPtsCheckoutFailCount + 1)
  if dur = ins.mDoubleCheckFrameDuration ∨ dur64 = ins.mDoubleCheckFrameDuration64 then
    { ins with mDoubleCheckFrameDurationCount := ins.mDoubleCheckFrameDurationCount + 1 }
  else
    { ins with
      mDoubleCheckFrameDuration := dur
      mDoubleCheckFrameDuration64 := dur64
      mDoubleCheckFrameDurationCount := 0 }

/-- A duration that came often enough is the frame duration. -/
def frameDurationAdopt (ins : PtsServerIns) : PtsServerIns :=
  if ins.mDoubleCheckFrameDurationCount > ins.kDoubleCheckThreshold then
    { ins with
      mFrameDuration := ins.mDoubleCheckFrameDuration
      mFrameDuration64 := ins.mDoubleCheckFrameDuration64
      mDoubleCheckFrameDurationCount := 0 }
  else ins

/-- The frame duration after a node was found. -/
def frameDuration (out : CheckoutPtsOffset) (ins : PtsServerIns) : PtsServerIns :=
  if ins.mPtsCheckoutStarted ≠ 0 then
    if ins.mFrameDuration = 0 ∧ ins.mFrameDuration64 = 0 then frameDurationInit out ins
    else frameDurationAdopt (frameDurationCount out ins)
  else { ins with mPtsCheckoutStarted := 1 }

/-- A node was found. -/
def checkoutDone (duration : UInt32) (c : Choice) : PtsServerIns × CheckoutPtsOffset :=
  ({ frameDuration c.out c.ins with
      mPtsCheckoutFailCount := 0
      mLastCheckoutOffset := c.out.offset.toUInt32
      mLastCheckoutPts := c.out.pts
      mLastCheckoutPts64 := c.out.pts64
      mLastPeekPts := c.out.pts
      mLastPeekPts64 := c.out.pts64
      mLastDoubleCheckoutPts := c.out.pts
      mLastDoubleCheckoutPts64 := c.out.pts64
      mDecoderDuration := duration
      mLastCheckoutCurOffset := c.cur
      mLastShotBound := c.shotBound.toUInt32 }, c.out)

/-- `ptsserver_checkout_pts_offset`. -/
def ptsserverCheckoutPtsOffset (req : CheckoutPtsOffset) (ins : PtsServerIns) :
    Option (PtsServerIns × CheckoutPtsOffset) :=
  let cur := req.offset.toUInt32
  let duration := (req.offset >>> 32).toUInt32 &&& 0x3fffffff
  let c : Choice := ⟨ins, false, none, -1, false, maxCheckoutBoundValue, cur, req⟩
  (if cur ≠ 0xffffffff ∧ ins.ptsList ≠ [] then checkoutSearch c else some c).map fun c =>
    if c.find = false ∨ c.invalidMode = true then checkoutFail c else checkoutDone duration c

/-! ## Peek -/

/-- The locals of `ptsserver_peek_pts_offset` that its loop works on. -/
structure PeekScan where
  ins : PtsServerIns
  find : Bool
  fitOffsetPtn : Option NodeId
  expectedOffsetDiff : UInt32
  findFrameNum : Int32

/-- The body of the loop. `find_index` is -1 all along, so `retryCount` stays. -/
def peekNode (cur : UInt32) (n : NodeId) (s : PeekScan) : PeekScan :=
  let ptn := s.ins.nodes n
  let offsetAbs := absInt (cur - ptn.offset)
  let s : PeekScan :=
    if offsetAbs ≤ s.ins.mLookupThreshold ∧ offsetAbs ≤ s.expectedOffsetDiff ∧
        cur > ptn.offset then
      { s with
        fitOffsetPtn := some n
        expectedOffsetDiff := offsetAbs
        ins := if ptn.invalid then { s.ins with mOffsetMode := true } else s.ins
        find := if ptn.invalid then true else s.find }
    else s
  if s.find then { s with findFrameNum := s.findFrameNum + 1 } else s

/-- The loop of `ptsserver_peek_pts_offset`. -/
def peekScan (cur : UInt32) : List NodeId → PeekScan → PeekScan
  | [], s => s
  | n :: rest, s =>
    let s := peekNode cur n s
    if s.findFrameNum ≥ maxCheckoutRetryCount then s else peekScan cur rest s

/-- The extrapolation of a peek. -/
def peekFail (ins : PtsServerIns) : UInt32 × UInt64 :=
  if ins.mDecoderDuration ≠ 0 then
    (ins.mLastPeekPts + ins.mDecoderDuration,
      ins.mLastPeekPts64 + divU64 (ins.mDecoderDuration * 1000).toUInt64 96)
  else
    (if ins.mFrameDuration ≠ 0 then ins.mLastPeekPts + ins.mFrameDuration else 0,
      if ins.mFrameDuration64 ≠ 0 then ins.mLastPeekPts64 + ins.mFrameDuration64 else 0)

/-- `ptsserver_peek_pts_offset`. A node was recorded exactly when `must_have_fit` is set, and
`find_ptn` is NULL up to the choice. -/
def ptsserverPeekPtsOffset (req : CheckoutPtsOffset) (ins : PtsServerIns) :
    PtsServerIns × CheckoutPtsOffset :=
  let cur := req.offset.toUInt32
  let s : PeekScan := ⟨ins, false, none, ins.mLookupThreshold, 0⟩
  let s := if cur ≠ 0xffffffff ∧ ins.ptsList ≠ [] then peekScan cur ins.ptsList s else s
  let out : CheckoutPtsOffset :=
    match s.fitOffsetPtn with
    | none => { req with pts := (peekFail s.ins).1, pts64 := (peekFail s.ins).2 }
    | some fit =>
      let ptn := s.ins.nodes fit
      if s.ins.mOffsetMode ∧ ptn.invalid then
        { req with pts := (peekFail s.ins).1, pts64 := (peekFail s.ins).2 }
      else { req with pts := ptn.pts90k.toUInt32, pts64 := ptn.pts64 }
  ({ s.ins with mLastPeekPts := out.pts, mLastPeekPts64 := out.pts64 }, out)

/-! ## Audio check-out -/

/-- The locals of `ptsserver_checkout_apts_offset` that its loop works on. -/
structure AptsScan where
  ins : PtsServerIns
  findPtn : Option NodeId
  offsetDiff : UInt32
  findFrameNum : Int32

/-- The loop of `ptsserver_checkout_apts_offset`. `offsetAbs` is an `int` that is compared with
`u32` thresholds first and as an `int` with the drop distance. -/
def aptsScan (cur threshold : UInt32) : List NodeId → AptsScan → Option AptsScan
  | [], s => some s
  | n :: rest, s =>
    let offsetAbs := absInt (cur - (s.ins.nodes n).offset)
    let next (s : AptsScan) : AptsScan :=
      { s with findFrameNum := if s.findPtn.isSome then s.findFrameNum + 1 else s.findFrameNum }
    if offsetAbs ≤ threshold then
      if offsetAbs ≤ s.offsetDiff then
        aptsScan cur threshold rest (next { s with offsetDiff := offsetAbs, findPtn := some n })
      else aptsScan cur threshold rest (next s)
    else if offsetAbs.toInt32 > dropDistance.toInt32 then do
      let ins ← s.ins.queueEmpty n
      aptsScan cur threshold rest (next { s with ins := ins })
    else if s.findFrameNum > 5 then some s
    else aptsScan cur threshold rest (next s)

/-- The search of an audio check-out: the node is reported and goes to the free list. -/
def aptsSearch (cur : UInt32) (out : CheckoutAptsOffset) (ins : PtsServerIns) :
    Option (PtsServerIns × CheckoutAptsOffset × Bool) := do
  let threshold :=
    if ins.mAudioOffsetMargin = 0 then ins.mLookupThreshold else ins.mAudioOffsetMargin
  let s ← aptsScan cur threshold ins.ptsList ⟨ins, none, threshold, 0⟩
  match s.findPtn with
  | none => some (s.ins, out, false)
  | some n =>
    let ptn := s.ins.nodes n
    let ins ← s.ins.queueEmpty n
    some (ins, { out with pts90k := ptn.pts90k, pts64 := ptn.pts64 }, true)

/-- The end of an audio check-out that reports something. -/
def aptsDone (cur : UInt32) (out : CheckoutAptsOffset) (ins : PtsServerIns) :
    PtsServerIns × CheckoutAptsOffset :=
  ({ ins with
      mPtsCheckoutStarted := if ins.mPtsCheckoutStarted = 0 then 1 else ins.mPtsCheckoutStarted
      mPtsCheckoutFailCount := 0
      mLastCheckoutOffset := out.offset.toUInt32
      mLastCheckoutPts64 := out.pts64
      mLastDoubleCheckoutPts64 := out.pts64
      mLastCheckoutPts90k := out.pts90k
      mLastCheckoutCurOffset := cur }, out)

/-- The result of an audio check-out. The first failure reports the first check-in. -/
def aptsResult (cur : UInt32) (ins : PtsServerIns) (out : CheckoutAptsOffset) (find : Bool) :
    PtsServerIns × CheckoutAptsOffset :=
  if find = true ∧ out.pts64 ≠ 0xffffffffffffffff then aptsDone cur out ins
  else if ins.mPtsCheckoutStarted = 0 then
    aptsDone cur
      { out with pts90k := ins.mFirstCheckinPts90k, pts64 := ins.mFirstCheckinPts64.toUInt64 } ins
  else
    ({ ins with
        mPtsCheckoutFailCount := ins.mPtsCheckoutFailCount + 1
        mLastCheckoutCurOffset := cur },
      { out with pts90k := 0xffffffffffffffff, pts64 := 0xffffffffffffffff })

/-- `ptsserver_checkout_apts_offset`. -/
def ptsserverCheckoutAptsOffset (req : CheckoutAptsOffset) (ins : PtsServerIns) :
    Option (PtsServerIns × CheckoutAptsOffset) :=
  let cur := req.offset.toUInt32
  (if cur ≠ 0xffffffff ∧ ins.ptsList ≠ [] then aptsSearch cur req ins
    else some (ins, req, false)).map fun p => aptsResult cur p.1 p.2.1 p.2.2

end MediaModules.PtsServer
