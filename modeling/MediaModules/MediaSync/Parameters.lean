import MediaModules.MediaSync.Types

/-!
# The clock parameters of an instance

Eight values say how the clock of an instance runs; every write of one of them is to move
`mStcParmUpdateCount`. Besides the setters, the slope check writes four of them: it compares the
PCR of the demultiplexer with the system time and, when the two drift apart, starts the clock again
from the PCR with another slope. A division by zero gives zero, as on the processor.
-/
namespace MediaModules.MediaSync

/-- `avsync_state`. -/
inductive AvsyncState
  | MEDIASYNC_INIT | MEDIASYNC_AUDIO_ARRIVED | MEDIASYNC_VIDEO_ARRIVED | MEDIASYNC_AV_ARRIVED
  | MEDIASYNC_AV_SYNCED | MEDIASYNC_RUNNING | MEDIASYNC_VIDEO_LOST_SYNC | MEDIASYNC_AUDIO_LOST_SYNC
  | MEDIASYNC_EXIT
deriving DecidableEq, Repr

/-- `mediasync_clocktype`. -/
inductive ClockType
  | UNKNOWN_CLOCK | AUDIO_CLOCK | VIDEO_CLOCK | PCR_CLOCK | REF_CLOCK
deriving DecidableEq, Repr

/-- `mediasync_clockprovider_state`. -/
inductive ClockState
  | CLOCK_PROVIDER_NONE | CLOCK_PROVIDER_DISCONTINUE | CLOCK_PROVIDER_NORMAL | CLOCK_PROVIDER_LOST
  | CLOCK_PROVIDER_RECOVERING
deriving DecidableEq, Repr

/-- `mediasync_speed`. -/
structure Speed where
  mNumerator : Int := 0
  mDenominator : Int := 0
deriving DecidableEq, Repr

/-- `mediasync_audio_switch`. -/
structure AudioSwitch where
  mOn : Int := 0
  mSetByUser : Int := 0
  mPts : Int := 0
  mSystemTimeUs : Int := 0
deriving DecidableEq, Repr

/-- The values whose writes `mStcParmUpdateCount` counts for the policies. -/
structure StcParm where
  refClockInfo : FrameInfo := {}
  mSpeed : Speed := {}
  mPcrSlope : Speed := {}
  mStartThreshold : Int := 0
  mPtsAdjust : Int := 0
  mSourceClockType : ClockType := .UNKNOWN_CLOCK
  mPaused : Int := 0
  mVideoTrickMode : Int := 0
deriving DecidableEq, Repr

/-- What the slope checks remember. -/
structure SlopeHistory where
  mLastCheckSlopeSystemtime : Int := 0
  mLastCheckSlopeDemuxPts : Int := 0
  mCheckSlopeSytemtimeThreshold : Int := 0
  mRcordSlope : Nat → Int := fun _ => 0
  mRcordSlopeCount : Nat := 0
  mlastCheckVideocacheDuration : Int := 0
  mRcordPcr : Nat → FrameInfo := fun _ => {}
  mRcordPcrCount : Nat := 0

/-- The fields of an instance that its clock is run with. -/
structure ClockIns extends StcParm, SlopeHistory where
  mStcParmUpdateCount : Nat := 0
  mDemuxId : Int := 0
  mPcrPid : Int := 0
  state : AvsyncState := .MEDIASYNC_INIT
  setStateCurTimeUs : Int := 0
  mSourceClockState : ClockState := .CLOCK_PROVIDER_NONE
  curAudioInfo : FrameInfo := {}
  mHasAudio : Int := 0
  mHasVideo : Int := 0
  mAudioSwitch : AudioSwitch := {}
  mStartPlayThreshold : Int := 0
  mIsAbnormalAudio : Bool := false

def RECORD_SLOPE_NUM : Nat := 5
def RECORD_PCR_NUM : Nat := 4
def CHECK_SLOPE_SYSTEM_TIME_1S : Int := 1000000
def CHECK_SLOPE_SYSTEM_TIME_3S : Int := 3000000
def CHECK_SLOPE_SYSTEM_TIME_500MS : Int := 500000
def SLOPE_NORMAL : Int := 100
def SLOPE_ABNORMAL : Int := 200
def SLOPE_JITTER_MIN : Int := 98
def SLOPE_JITTER_MAX : Int := 102
def SLOPE_THRESHOLD_MIN : Int := 50
def SLOPE_THRESHOLD_MAX : Int := 185
def SLOPE_SPEED_UP_THRESHOLD : Int := 101
def CACHE_1S : Int := 90000
def CACHE_150MS : Int := 13500
def CACHE_200MS : Int := 18000
def CACHE_300MS : Int := 27000
def CACHE_500MS : Int := 45000
def SYSTEM_TIME_15000MS : Int := 15000000
def AUDIO_SYNC_THRESHOLD_100MS : Int := 9000

/-- Where the `u32` update count wraps. -/
abbrev COUNT_RANGE : Nat := 4294967296

namespace ClockIns

variable (i : ClockIns)

/-- `mStcParmUpdateCount++`. -/
def countUpdate : ClockIns :=
  { i with mStcParmUpdateCount := (i.mStcParmUpdateCount + 1) % COUNT_RANGE }

/-! ## Setters -/

/-- The wait until the next slope check. -/
def checkInterval : Int :=
  if i.mPcrSlope.mNumerator ≠ 100 then CHECK_SLOPE_SYSTEM_TIME_1S else CHECK_SLOPE_SYSTEM_TIME_3S

/-- `mediasync_ins_set_refclockinfo`. -/
def setRefclockinfo (info : FrameInfo) : ClockIns :=
  if i.refClockInfo = info then i
  else
    let i := { i with refClockInfo := info }.countUpdate
    if i.mSourceClockType = .PCR_CLOCK then
      { i with
        mLastCheckSlopeSystemtime := info.frameSystemTime
        mCheckSlopeSytemtimeThreshold := i.checkInterval
        mLastCheckSlopeDemuxPts := s64 (divU64 (s64 (info.framePts * 100000)) 9) }
    else i

/-- `mediasync_ins_set_mediatime_speed`. -/
def setMediatimeSpeed (fSpeed : Speed) : ClockIns :=
  if i.mSpeed = fSpeed then i else { i with mSpeed := fSpeed }.countUpdate

/-- `mediasync_ins_set_pcrslope_implementation`. -/
def setPcrslope (pcrslope : Speed) : ClockIns :=
  if i.mPcrSlope = pcrslope then i else { i with mPcrSlope := pcrslope }.countUpdate

/-- `mediasync_ins_set_startthreshold`. -/
def setStartthreshold (threshold : Int) : ClockIns :=
  if i.mStartThreshold = threshold then i else { i with mStartThreshold := threshold }.countUpdate

/-- `mediasync_ins_set_ptsadjust`. -/
def setPtsadjust (adjustPts : Int) : ClockIns :=
  if i.mPtsAdjust = adjustPts then i else { i with mPtsAdjust := adjustPts }.countUpdate

/-- `mediasync_ins_set_clocktype`. -/
def setClocktype (type : ClockType) : ClockIns := { i with mSourceClockType := type }.countUpdate

/-- `mediasync_ins_set_paused`. -/
def setPaused (sPaused : Int) : ClockIns :=
  if sPaused ≠ 0 ∧ sPaused ≠ 1 then i
  else if sPaused = i.mPaused then i
  else { i with mPaused := sPaused }.countUpdate

/-- `SET_TRICK_MODE`. -/
def setTrickMode (value : Int) : ClockIns := { i.countUpdate with mVideoTrickMode := value }

/-- `mediasync_ins_set_hasaudio`. -/
def setHasaudio (hasaudio : Int) : ClockIns := { i with mHasAudio := hasaudio }.countUpdate

/-- `mediasync_ins_set_hasvideo`. -/
def setHasvideo (hasvideo : Int) : ClockIns := { i with mHasVideo := hasvideo }

/-- `mediasync_ins_set_clockstate`. -/
def setClockstate (state : ClockState) : ClockIns := { i with mSourceClockState := state }

/-- `mediasync_ins_set_avsyncstate`, at the given system time. -/
def setAvsyncstate (state : AvsyncState) (curTimeUs : Int) : ClockIns :=
  { i with state := state, setStateCurTimeUs := curTimeUs }

/-- `mediasync_ins_set_curaudioframeinfo`. -/
def setCuraudioframeinfo (info : FrameInfo) : ClockIns := { i with curAudioInfo := info }

/-- `mediasync_ins_set_pcr_and_dmx_id`. -/
def setPcrAndDmxId (sDemuxId sPcrPid : Int) : ClockIns :=
  { i with mDemuxId := sDemuxId, mPcrPid := sPcrPid }

/-- `mediasync_ins_set_audio_switch`. -/
def setAudioSwitch (mOn mSetByUser mPts : Int) : ClockIns :=
  { i with mAudioSwitch := { i.mAudioSwitch with
      mOn := mOn, mSetByUser := mSetByUser, mPts := mPts } }.countUpdate

/-- `SET_START_PLAY_THRESHOLD`. -/
def setStartPlayThreshold (value : Int) : ClockIns :=
  { i.countUpdate with mStartPlayThreshold := u32 value }

/-- `SET_IS_ABNORMAL_AUDIO`. -/
def setIsAbnormalAudio (value : Int) : ClockIns :=
  { i.countUpdate with mIsAbnormalAudio := value ≠ 0 }

/-- What `mediasync_ins_reset_l` does to these fields; the default of the start threshold is a
parameter of the module. -/
def reset (startPlayThreshold : Int) : ClockIns :=
  { i with
    refClockInfo := ⟨-1, -1⟩
    mSpeed := ⟨100, 100⟩
    mPcrSlope := ⟨100, 100⟩
    mSourceClockType := .UNKNOWN_CLOCK
    mPaused := 0
    mVideoTrickMode := 0
    mStcParmUpdateCount := 0
    state := .MEDIASYNC_INIT
    mSourceClockState := .CLOCK_PROVIDER_NORMAL
    curAudioInfo := ⟨-1, -1⟩
    mHasAudio := 0
    mHasVideo := 0
    mAudioSwitch := ⟨0, 0, -1, -1⟩
    mStartPlayThreshold := startPlayThreshold
    mIsAbnormalAudio := false }

/-! ## The slope check -/

/-- `mediasync_ins_get_stc_time_implementation`, before it is read as signed. -/
def stcTime (curTimeUs : Int) : Int :=
  let k := divU64 (u32 (i.mSpeed.mNumerator * i.mPcrSlope.mNumerator)) i.mSpeed.mDenominator
  let interval := u64 (curTimeUs - i.refClockInfo.frameSystemTime)
  let interval := divU64 (u64 (interval * k)) i.mPcrSlope.mDenominator
  u64 (divU64 (u64 (interval * 9)) 100 + i.refClockInfo.framePts - i.mPtsAdjust
    - i.mStartThreshold)

end ClockIns

/-- What one slope check reads elsewhere: the system time, the PCR of the demultiplexer and the two
cache durations. -/
structure Readings where
  curTimeUs : Int
  pcr : Int
  audioCache : Int
  videoCache : Int
deriving DecidableEq, Repr

/-- The PCR in nanoseconds. -/
def Readings.pcrNs (r : Readings) : Int := s64 (divU64 (s64 (r.pcr * 100000)) 9)

/-- How fast the PCR ran against the system time, in percent. -/
def slopeOf (pcrDiff timeDiff : Int) : Int :=
  if pcrDiff > 0 then u32 (divU64 (u32 (u32 (divU64 pcrDiff timeDiff) + 5)) 10) else 0

/-- The loop over the recorded slopes, up to the first that is missing. -/
structure SlopeRange where
  maxslope : Int := 100
  minslope : Int := 100
  avgslope : Int := 0
deriving DecidableEq, Repr

/-- One recorded slope. -/
def SlopeRange.add (g : SlopeRange) (slope : Int) : SlopeRange :=
  { maxslope := if g.maxslope < slope then slope else g.maxslope
    minslope := if g.maxslope < slope then g.minslope
      else if g.minslope > slope then slope else g.minslope
    avgslope := u32 (g.avgslope + slope) }

/-- `none` while fewer than `RECORD_SLOPE_NUM` slopes are recorded. -/
def slopeRange : List Int → SlopeRange → Option SlopeRange
  | [], g => some { g with avgslope := divU64 g.avgslope RECORD_SLOPE_NUM }
  | slope :: rest, g => if slope = 0 then none else slopeRange rest (g.add slope)

namespace ClockIns

variable (i : ClockIns) (r : Readings)

/-- The first check after a start only takes the readings. -/
def startSlope : ClockIns :=
  { i with
    mLastCheckSlopeDemuxPts := r.pcrNs
    mRcordPcr := Function.update i.mRcordPcr i.mRcordPcrCount ⟨r.pcrNs, r.curTimeUs⟩
    mLastCheckSlopeSystemtime := r.curTimeUs
    mlastCheckVideocacheDuration := 0
    mCheckSlopeSytemtimeThreshold := CHECK_SLOPE_SYSTEM_TIME_3S }

/-- The slope since the last check. -/
def slope : Int :=
  slopeOf (s64 (r.pcrNs - i.mLastCheckSlopeDemuxPts))
    (s64 (r.curTimeUs - i.mLastCheckSlopeSystemtime))

/-- The number of the record after the last one. -/
def nextPcrCount : Nat :=
  if i.mRcordPcrCount + 1 ≥ RECORD_PCR_NUM then 0 else i.mRcordPcrCount + 1

/-- The slope since the oldest of the recorded PCRs. -/
def slopeOverall : Int :=
  let oldest := i.mRcordPcr (if (i.mRcordPcr i.nextPcrCount).framePts ≠ 0 then i.nextPcrCount else 0)
  slopeOf (s64 (r.pcrNs - oldest.framePts)) (s64 (r.curTimeUs - oldest.frameSystemTime))

/-- One PCR is recorded in three seconds. -/
def recordPcr : ClockIns :=
  if s64 (r.curTimeUs - (i.mRcordPcr i.mRcordPcrCount).frameSystemTime) ≥
      CHECK_SLOPE_SYSTEM_TIME_3S then
    { i with
      mRcordPcrCount := i.nextPcrCount
      mRcordPcr := Function.update i.mRcordPcr i.nextPcrCount ⟨r.pcrNs, r.curTimeUs⟩ }
  else i

/-- The PCR has jumped. -/
def pcrDiscontinue : ClockIns :=
  { i with
    mLastCheckSlopeDemuxPts := r.pcrNs
    mLastCheckSlopeSystemtime := r.curTimeUs
    mCheckSlopeSytemtimeThreshold := i.checkInterval
    mRcordPcr := Function.update (fun _ => ⟨0, 0⟩) 0 ⟨r.pcrNs, r.curTimeUs⟩
    mRcordPcrCount := 0 }

/-- The slope is steady. -/
def normalSlope (slope overall : Int) : Bool :=
  overall = SLOPE_NORMAL ∧ slope ≥ SLOPE_JITTER_MIN ∧ slope ≤ SLOPE_JITTER_MAX

/-- The slope is recorded and the next check arranged. -/
def recordSlope (slope overall : Int) : ClockIns :=
  let i := { i with
    mCheckSlopeSytemtimeThreshold :=
      if normalSlope slope overall then CHECK_SLOPE_SYSTEM_TIME_3S
      else CHECK_SLOPE_SYSTEM_TIME_500MS
    mLastCheckSlopeSystemtime := r.curTimeUs
    mLastCheckSlopeDemuxPts := r.pcrNs }
  if slope > SLOPE_THRESHOLD_MIN ∧ slope < SLOPE_THRESHOLD_MAX then
    { i with
      mRcordSlope := Function.update i.mRcordSlope i.mRcordSlopeCount slope
      mRcordSlopeCount :=
        if i.mRcordSlopeCount + 1 ≥ RECORD_SLOPE_NUM then 0 else i.mRcordSlopeCount + 1 }
  else i

/-- What is played from the caches until the next check at this slope. -/
def consumption (slope : Int) : Int :=
  s32 (divU64 (s64 (slope * u32 (divU64 (s64 (i.mCheckSlopeSytemtimeThreshold * 9)) 100))) 100)

/-- The cache the check goes by: of the video, or else of the audio. -/
def mincache : Int :=
  let mincache := if i.mHasVideo = 1 then r.videoCache else 0
  if i.mHasAudio = 1 ∧ mincache = 0 then r.audioCache else mincache

/-- The audio is being switched to another track: it is far from the clock, and not for long. -/
def switchingAudioTrack (curPcr : Int) : Bool :=
  let away := s64 (curPcr - i.curAudioInfo.framePts)
  (if away < 0 then s64 (-away) else away) > AUDIO_SYNC_THRESHOLD_100MS ∧
    s64 (r.curTimeUs - i.setStateCurTimeUs) < SYSTEM_TIME_15000MS

/-- How far the cache is from what it was when the check last went by it. -/
def cacheDiffAbs : Int := s32 (absSub (i.mincache r) i.mlastCheckVideocacheDuration)

/-- The slope to run with from now on, when the clock is to be started again: the stream runs faster
than the clock. -/
def fasterSlope (overall : Int) (g : SlopeRange) : Option Int :=
  let mincache := i.mincache r
  let last := i.mlastCheckVideocacheDuration
  if mincache > CACHE_1S then
    if mincache > last ∧ i.cacheDiffAbs r > CACHE_500MS then
      some (if overall > g.avgslope then overall else g.avgslope)
    else none
  else if mincache < last ∧ i.cacheDiffAbs r > CACHE_500MS then some g.minslope
  else none

/-- The same when the stream runs slower. The source sets the smallest slope a second time for a
short video cache, which changes nothing. -/
def slowerSlope (curPcr timeDiff slope overall : Int) (g : SlopeRange) : Option Int :=
  let mincache := i.mincache r
  let last := i.mlastCheckVideocacheDuration
  let referenceSlope : Bool :=
    if timeDiff ≥ CHECK_SLOPE_SYSTEM_TIME_3S ∧ normalSlope slope overall then
      i.mPcrSlope.mNumerator > SLOPE_SPEED_UP_THRESHOLD
    else true
  let referenceAudioCache : Bool :=
    i.mHasAudio = 1 ∧ r.audioCache ≥ 0 ∧ r.audioCache ≤ CACHE_300MS ∧
      !i.switchingAudioTrack r curPcr ∧ referenceSlope
  let audioFutureCache :=
    if i.mHasAudio = 1 then s32 (r.audioCache + i.consumption slope) else 0
  if mincache < CACHE_1S ∨ referenceAudioCache then
    if (mincache < last ∧ i.cacheDiffAbs r > CACHE_200MS) ∨ referenceAudioCache then
      some (if audioFutureCache ≠ 0 ∧
          s32 (audioFutureCache - i.consumption g.avgslope) < CACHE_150MS then g.minslope
        else g.avgslope)
    else none
  else if mincache > last ∧ i.cacheDiffAbs r > CACHE_1S then some g.maxslope
  else none

/-- The slope to run with, when the check finds the clock to be started again. -/
def updateSlope (curPcr timeDiff slope overall : Int) (g : SlopeRange) : Option Int :=
  let found :=
    if i.mPcrSlope.mNumerator = g.avgslope then none
    else if g.avgslope > i.mPcrSlope.mNumerator then i.fasterSlope r overall g
    else i.slowerSlope r curPcr timeDiff slope overall g
  if absSub r.pcr (s64 curPcr) < DEFAULT_TRIGGER_DISCONTINUE_THRESHOLD then found else none

/-- The check up to its verdict: what it has recorded, and the slope to run with when the clock is to
be started again. -/
def judgeSlope (curPcr : Int) : ClockIns × Option Int :=
  let slope := i.slope r
  let overall := i.slopeOverall r
  let recorded := i.recordPcr r
  if slope = 0 ∨ slope > SLOPE_ABNORMAL ∨ overall = 0 ∨ overall > SLOPE_ABNORMAL then
    (recorded.pcrDiscontinue r, none)
  else
    let recorded := recorded.recordSlope r slope overall
    match slopeRange ((List.range RECORD_SLOPE_NUM).map recorded.mRcordSlope) {} with
    | none => (recorded, none)
    | some g =>
      if recorded.mlastCheckVideocacheDuration ≠ 0 then
        (recorded, recorded.updateSlope r curPcr
          (s64 (r.curTimeUs - i.mLastCheckSlopeSystemtime)) slope overall g)
      else ({ recorded with mlastCheckVideocacheDuration := recorded.mincache r }, none)

/-- The clock starts again from the PCR, with the given slope. -/
def followPcr (curPcr slope : Int) : ClockIns :=
  let i := { i with
    refClockInfo := ⟨r.pcr, r.curTimeUs⟩
    mPtsAdjust := 0
    mStartThreshold := s32 (r.pcr - curPcr) }
  { i.setPcrslope ⟨slope, 100⟩ with mlastCheckVideocacheDuration := i.mincache r }

/-- The check does nothing while the clock does not run by the PCR. -/
def noSlopeCheck : Bool :=
  i.mSourceClockType ≠ .PCR_CLOCK ∨ i.mDemuxId < 0 ∨ i.state ≠ .MEDIASYNC_RUNNING ∨
    i.mSourceClockState = .CLOCK_PROVIDER_DISCONTINUE

/-- What the check of this moment finds, and what it has recorded by then. -/
def slopeVerdict : ClockIns × Option Int :=
  if i.noSlopeCheck then (i, none)
  else if i.mLastCheckSlopeSystemtime = 0 then (i.startSlope r, none)
  else if s64 (r.curTimeUs - i.mLastCheckSlopeSystemtime) ≥ i.mCheckSlopeSytemtimeThreshold then
    i.judgeSlope r (i.stcTime r.curTimeUs)
  else (i, none)

/-- `mediasync_ins_check_pcr_slope`. -/
def checkPcrSlope : ClockIns :=
  match i.slopeVerdict r with
  | (recorded, none) => recorded
  | (recorded, some slope) => recorded.followPcr r (i.stcTime r.curTimeUs) slope

end ClockIns

end MediaModules.MediaSync
