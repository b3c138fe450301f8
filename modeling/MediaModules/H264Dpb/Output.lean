import MediaModules.H264Dpb.Stores

/-!
# Handing frame stores to the display

`get_smallest_poc`, `output_frames` and `flush_dpb`. What `prepare_display_buf` answers is part
of the state: it takes the next answer each time it is called.
-/
namespace MediaModules.H264Dpb

namespace Dpb

/-- Neither displayed nor handed over. -/
def waiting (s : Dpb) (i : Nat) : Bool := !(s.stores i).isOutput && !(s.stores i).preOutput

/-- `get_smallest_poc`: the waiting store of smallest POC, the first one of several. -/
def getSmallestPoc (s : Dpb) : Option Nat × Int :=
  s.used.foldl (fun r i =>
    if r.2 > (s.stores i).poc ∧ s.waiting i then (some i, (s.stores i).poc) else r) (none, INT_MAX)

/-- `prepare_display_buf`. Without an answer it fails. -/
def prepareDisplayBuf (s : Dpb) (i : Nat) : Bool × Dpb :=
  match s.answers with
  | [] => (false, s)
  | d :: rest =>
    let s := { s with answers := rest, trace := .handed i :: s.trace }
    let s := s.modifyStore i fun fs => { fs with
      showFrame := d.showFrame
      dataFlag := if d.errorFlag then fs.dataFlag ||| ERROR_FLAG else fs.dataFlag }
    (d.accepted, d.returned.foldl setFrameOutputFlag s)

/-- What the scan of the waiting stores in `output_frames` gathers. -/
structure Scan where
  noneDisplayedNum : Nat := 0
  fastOutputFlag : Bool := false
  firstInsertFrame : FirstInsertFrm
  firstOutputPoc : Int
  pocEvenOddFlag : Nat

/-- The scan counts a store: complete, or a single field to be shown in spite of an error. -/
def displayable (s : Dpb) (i : Nat) : Bool :=
  (s.stores i).isUsed = .both ||
    (hasFlag (s.stores i).dataFlag ERROR_FLAG && hasFlag (s.stores i).dataFlag FIELD_DISP_FLAG)

/-- The first complete store after a start or reset is let out. -/
def scanFirstInsert (s : Dpb) (r : Scan) (i : Nat) : Scan :=
  if (r.firstInsertFrame = .idle ∨ r.firstInsertFrame = .reset) ∧ (s.stores i).isUsed = .both ∧
      s.lastOutputPoc = INT_MIN then
    { r with
      fastOutputFlag := r.fastOutputFlag || r.firstInsertFrame = .idle
      firstInsertFrame := .out
      firstOutputPoc := (s.stores i).poc }
  else r

/-- Check whether POCs are even or odd. -/
def scanEvenOdd (s : Dpb) (r : Scan) (i : Nat) : Scan :=
  let flag := if r.pocEvenOddFlag = 0 ∧ s.config.pocCheckCount ≥ 5 then 2 else r.pocEvenOddFlag
  { r with pocEvenOddFlag := if (s.stores i).poc % 2 = 1 then 1 else flag }

/-- The fast output modes. -/
def scanFast (s : Dpb) (r : Scan) (i : Nat) : Scan :=
  let enabled := s.config.fastOutputEnable
  let idr := hasFlag enabled 0x1 && hasFlag (s.stores i).dataFlag IDR_FLAG
  let next := hasFlag enabled 0x2 && (s.stores i).poc - s.lastOutputPoc = 1 &&
    (s.used.head?.any fun j => !hasFlag (s.stores j).dataFlag ERROR_FLAG)
  let even := hasFlag enabled 0x4 && r.pocEvenOddFlag = 2 && (s.stores i).isUsed = .both &&
    (s.stores i).poc - s.lastOutputPoc = 2
  { r with fastOutputFlag := r.fastOutputFlag || idr || next || even }

/-- One turn of the scan. -/
def scanStore (s : Dpb) (r : Scan) (i : Nat) : Scan :=
  if s.waiting i && s.displayable i then
    let r := { r with noneDisplayedNum := r.noneDisplayedNum + 1 }
    s.scanFast (s.scanEvenOdd (s.scanFirstInsert r i) i) i
  else r

def scanStores (s : Dpb) : Scan :=
  s.used.foldl s.scanStore
    { firstInsertFrame := s.firstInsertFrame
      firstOutputPoc := s.firstOutputPoc
      pocEvenOddFlag := s.pocEvenOddFlag }

/-- The buffer is as full as the stream allows and no store has an error. -/
def innerDpbFull (s : Dpb) : Bool :=
  (s.used.all fun i => !hasFlag (s.stores i).dataFlag ERROR_FLAG) &&
    (s.used.countP fun i => (s.waiting i || (s.stores i).isReference ≠ .empty) &&
      (s.stores i).isUsed = .both) ≥ s.config.decDpbSize

/-- Enough stores wait for auxiliary data to let one out. -/
def auxDataReady (s : Dpb) : Bool :=
  (s.used.countP fun i => s.waiting i &&
    ((s.stores i).isUsed = .both || hasFlag (s.stores i).dataFlag ERROR_FLAG)) >
      s.config.reorderOutput

/-- Whether `output_frames` may let a store out without a flush, and the state it leaves of the
scan. -/
def outputAllowed (s : Dpb) : Bool × Dpb :=
  let r := s.scanStores
  let s' := { s with
    firstInsertFrame := r.firstInsertFrame
    firstOutputPoc := r.firstOutputPoc
    pocEvenOddFlag := r.pocEvenOddFlag }
  let full := !s.config.errorProcPolicy.testBit 26 && !s.config.bitstreamRestrictionFlag &&
    s.innerDpbFull
  (r.fastOutputFlag || full || r.noneDisplayedNum ≥ s.config.reorderOutput, s')

/-- The first stores after a start: those before the first one let out are not displayed. -/
def markFirstOutput (s : Dpb) (i : Nat) : Dpb :=
  if s.firstInsertFrame = .out then
    if (s.stores i).poc < s.firstOutputPoc then
      s.modifyStore i fun fs => { fs with dataFlag := fs.dataFlag ||| NODISP_FLAG }
    else if s.lastOutputPoc ≠ INT_MIN then { s with firstInsertFrame := .skipDone }
    else s
  else s

/-- Hand a store over: the end of `output_frames`. -/
def handOver (s : Dpb) (i : Nat) (poc : Int) : Bool × Dpb :=
  let r := (s.markFirstOutput i).prepareDisplayBuf i
  if r.1 then
    let s := if !r.2.config.withoutDisplayMode && (r.2.stores i).showFrame then
        r.2.modifyStore i fun fs => { fs with preOutput := true }
      else r.2
    (true, { s with lastOutputPoc := poc })
  else (false, r.2)

/-- Hand over the waiting store of smallest POC, if there is one. -/
def outputSmallest (s : Dpb) : Bool × Dpb :=
  match s.getSmallestPoc with
  | (none, _) => (false, s)
  | (some i, poc) => s.handOver i poc

/-- `output_frames`. -/
def outputFrames (s : Dpb) (flushFlag : Bool) : Bool × Dpb :=
  if flushFlag then s.outputSmallest
  else if s.config.waitAuxDataFlag && !s.auxDataReady then (false, s)
  else
    let r := s.outputAllowed
    if r.1 then r.2.outputSmallest else (false, r.2)

/-- `while (output_frames(..));`. Every turn takes an answer. -/
def outputLoop (flushFlag : Bool) : Nat → Dpb → Dpb
  | 0, s => s
  | fuel + 1, s =>
    let r := s.outputFrames flushFlag
    if r.1 then outputLoop flushFlag fuel r.2 else r.2

def outputAll (s : Dpb) (flushFlag : Bool) : Dpb := outputLoop flushFlag (s.answers.length + 1) s

/-- `flush_dpb`. -/
def flushDpb (s : Dpb) : Dpb :=
  if s.initDone then
    let s := s.used.foldl unmarkForReference s
    { s.removeAllUnused.2.outputAll true with lastOutputPoc := INT_MIN }
  else s

end Dpb

end MediaModules.H264Dpb
