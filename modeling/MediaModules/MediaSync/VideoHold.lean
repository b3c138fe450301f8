import MediaModules.Lib.Run
import MediaModules.MediaSync.Parameters
import MediaModules.MediaSync.VideoFrames

/-!
# How long a frame is held

A frame that is ahead of the clock is answered with HOLD and a time. The policy keeps the time stamp
of the frame, when the hold began and how long it is to last, and answers the next calls from these
alone until the time is over. While playback starts slowly, the begin of the hold is overwritten with
its duration and the duration is not kept, and the hold may end early.
-/
namespace MediaModules.MediaSync

open Lib.Run

def VIDEO_TRICK_MODE_NONE : Int := 0
def VIDEO_TRICK_MODE_PAUSE_NEXT : Int := 2

/-- `struct mediasync_start_slow_sync_info`. The time until the streams are to meet is in milliseconds. -/
structure SlowSyncInfo where
  mSlowSyncEnable : Int := 1
  mSlowSyncFinished : Bool := false
  mSlowSyncSpeed : Int := 30
  mSlowSyncPVdiffThreshold : Int := 72000
  mSlowSyncMaxPVdiffThreshold : Int := 360000
  mSlowSyncFrameShowTime : Int := -1
  mSlowSyncRealPVdiff : Int := 0
  mSlowSyncExpectAvSyncDoneTime : Int := 5000
  mSlowSyncStartSystemTime : Int := -1
deriving DecidableEq, Repr

/-- What `mediasync_video_process` reads and writes of a policy, less the hold. -/
structure VideoInst where
  mVideoTrickMode : Int := 0
  isPause : Int := 0
  mPauseResumeFlag : Int := 0
  mShowFirstFrameNosync : Bool := false
  invalidVptsCount : Int := 0
  firstVFrameInfo : FrameInfo := ⟨-1, -1⟩
  mCurVideoFrameInfo : FrameInfo := ⟨-1, -1⟩
  anchorFrameInfo : FrameInfo := ⟨-1, -1⟩
  mCurPcr : Int := 0
  mVideoStarted : Bool := false
  mStartSlowSyncInfo : SlowSyncInfo := {}
deriving DecidableEq, Repr

/-- The hold, with the values of `mediasync_policy_parameter_init`. -/
structure VideoHold where
  videoLastPolicy : VideoPolicy := .MEDIASYNC_VIDEO_UNKNOWN
  mHoldVideoPts : Int := -1
  mHoldVideoTime : Int := -1
  mStartHoldVideoTime : Int := -1
deriving DecidableEq, Repr

structure VideoState where
  inst : VideoInst := {}
  hold : VideoHold := {}
deriving DecidableEq, Repr

/-- How an answer came about: the frame was still held, its clock was not read, it waits for the end of
a pause, the slow start or the clock holds it, or it is due. -/
inductive VideoBranch
  | held | early | resume | slow | clock | due
deriving DecidableEq, Repr

/-- `struct mediasync_video_policy` as it is returned. `param1` is always -1. -/
structure VideoAnswer where
  videopolicy : VideoPolicy := .MEDIASYNC_VIDEO_HOLD
  param2 : Int := -1
  branch : VideoBranch
deriving DecidableEq, Repr

/-- The functions beside this one that consult the instance. They read the hold at most. -/
structure PolicyFns where
  getUpdateInfo : VideoInst → VideoInst
  videoStateProcess : VideoInst → VideoInst × Bool × AvsyncState
  videoUpdateRefClock : Int → VideoInst → VideoInst × Bool
  getStc : VideoInst → VideoInst
  videoCheckDiscontinue : Int → VideoInst → VideoInst
  checkVideoFreeRun : Int → VideoPolicy → VideoInst → VideoInst
  startSlowSyncEnable : Int

/-- A call with the frame's time stamp and duration in microseconds, the system time when it begins and
when the frame is judged. System time starts with the system and never goes back. -/
structure VideoCall where
  vpts : Int
  param1 : Int
  enter : Nat
  now : Nat
  fns : PolicyFns
  ordered : enter ≤ now
  inRange : now < 9223372036854775808

/-- The time stamp in ticks of 90 kHz. -/
def VideoCall.ticks (c : VideoCall) : Int := divU64 (c.vpts * 9) 100

/-- `mediasync_get_start_slow_sync_init`. The speed is undefined if no time is to pass. -/
def getStartSlowSyncInit (c : VideoCall) (p : VideoInst) : Option (VideoInst × Bool) :=
  let info := { p.mStartSlowSyncInfo with mSlowSyncEnable := c.fns.startSlowSyncEnable }
  if info.mSlowSyncEnable ≠ 0 then
    let diff := if p.firstVFrameInfo.framePts > p.mCurPcr then
        s64 (p.firstVFrameInfo.framePts - p.mCurPcr)
      else s64 (p.firstVFrameInfo.framePts - p.anchorFrameInfo.framePts)
    let info := { info with mSlowSyncRealPVdiff := diff }
    if diff > info.mSlowSyncPVdiffThreshold ∧ diff < info.mSlowSyncMaxPVdiffThreshold then
      let expected := s32 (info.mSlowSyncExpectAvSyncDoneTime * 1000)
      if u32 expected = 0 then none
      else
        let duration := s64 (expected - divU64 (diff * 100) 9)
        some ({ p with mStartSlowSyncInfo := { info with
          mSlowSyncFrameShowTime := c.now
          mSlowSyncStartSystemTime := c.now
          mSlowSyncSpeed := divU64 (duration * 100) expected } }, true)
    else some ({ p with mStartSlowSyncInfo := { info with mSlowSyncEnable := 0 } }, false)
  else some ({ p with mStartSlowSyncInfo := info }, false)

/-- How long a frame is shown in the slow start, and how long the last one has been. -/
def slowDuration (c : VideoCall) (p : VideoInst) : Int :=
  s64 (divU64 (c.param1 * 100) p.mStartSlowSyncInfo.mSlowSyncSpeed)

def outDuration (c : VideoCall) (p : VideoInst) : Int :=
  s64 (c.now - p.mStartSlowSyncInfo.mSlowSyncFrameShowTime)

/-- `VideoStartPlaybackSlowSync`: the instance after it, the answer, and whether it returns 1. -/
def videoStartPlaybackSlowSync (c : VideoCall) (p : VideoInst) :
    Option (VideoInst × VideoAnswer × Bool) :=
  if u32 p.mStartSlowSyncInfo.mSlowSyncSpeed = 0 then none
  else if s64 (c.ticks - p.mCurPcr) > 1499 then
    if outDuration c p < slowDuration c p then
      some (p, { param2 := s32 (slowDuration c p - outDuration c p), branch := .slow }, false)
    else
      some ({ p with
        mStartSlowSyncInfo := { p.mStartSlowSyncInfo with mSlowSyncFrameShowTime := c.now }
        mCurVideoFrameInfo := ⟨c.ticks, c.now⟩ },
        { videopolicy := .MEDIASYNC_VIDEO_NORMAL_OUTPUT, branch := .due }, true)
  else
    some ({ p with mStartSlowSyncInfo := { p.mStartSlowSyncInfo with
      mSlowSyncFrameShowTime := -1
      mSlowSyncFinished := true } }, { param2 := 8000, branch := .slow }, false)

def pausePts (c : VideoCall) (p : VideoInst) : Int :=
  if p.mCurVideoFrameInfo.framePts = -1 then c.ticks else p.mCurVideoFrameInfo.framePts

/-- The end of a pause. `videoUpdateRefClock` leaves the 8000 alone. -/
def pauseResume (c : VideoCall) (p : VideoInst) : VideoInst × Option VideoAnswer :=
  if p.mPauseResumeFlag ≠ 0 then
    let (p, pauseResumeFlag) := c.fns.videoUpdateRefClock (pausePts c p) p
    if pauseResumeFlag = true then (p, some { param2 := 8000, branch := .resume }) else (p, none)
  else (p, none)

/-- The state of the playback: a frame is held until it runs. -/
def whenRunning (c : VideoCall) (p : VideoInst) : VideoInst × Option VideoAnswer :=
  let (p, running, syncState) := c.fns.videoStateProcess p
  if running = false then
    (p, some { videopolicy := if syncState = .MEDIASYNC_EXIT then .MEDIASYNC_VIDEO_EXIT
      else .MEDIASYNC_VIDEO_HOLD, branch := .early })
  else pauseResume c p

/-- The first frame is noted, and may be shown at once. -/
def firstFrame (c : VideoCall) (p : VideoInst) : VideoInst × Option VideoAnswer :=
  let output : VideoAnswer := { videopolicy := .MEDIASYNC_VIDEO_NORMAL_OUTPUT, branch := .early }
  if p.firstVFrameInfo = ⟨-1, -1⟩ then
    if c.vpts ≠ -1 then
      let p := { p with firstVFrameInfo := ⟨c.ticks, c.now⟩, mCurVideoFrameInfo := ⟨c.ticks, c.now⟩ }
      if p.mShowFirstFrameNosync = true ∧ p.invalidVptsCount = 0 then
        ((c.fns.videoStateProcess p).1, some output)
      else whenRunning c p
    else ({ p with invalidVptsCount := s32 (p.invalidVptsCount + 1) }, some output)
  else whenRunning c p

/-- When the trick mode ends, its frame is the first one. -/
def trickModeEnds (c : VideoCall) (videoTrickMode : Int) (p : VideoInst) : VideoInst :=
  if videoTrickMode = VIDEO_TRICK_MODE_PAUSE_NEXT ∧ p.mVideoTrickMode = VIDEO_TRICK_MODE_NONE then
    { p with firstVFrameInfo := { p.firstVFrameInfo with frameSystemTime := c.now } }
  else p

/-- What comes before the clock is read: the instance after it, and an answer if the call ends there. -/
def beforeClock (c : VideoCall) (p : VideoInst) : VideoInst × Option VideoAnswer :=
  let videoTrickMode := p.mVideoTrickMode
  let p := c.fns.getUpdateInfo p
  if p.mVideoTrickMode = VIDEO_TRICK_MODE_PAUSE_NEXT then
    if p.firstVFrameInfo = ⟨-1, -1⟩ then
      ({ p with firstVFrameInfo := { p.firstVFrameInfo with framePts := c.ticks } },
        some { videopolicy := .MEDIASYNC_VIDEO_NORMAL_OUTPUT, branch := .early })
    else (p, some { branch := .early })
  else
    let p := trickModeEnds c videoTrickMode p
    if p.isPause ≠ 0 then (p, some { branch := .early }) else firstFrame c p

/-- The clock is read, and the slow start begun. -/
def readClock (c : VideoCall) (lastPolicy : VideoPolicy) (p : VideoInst) : Option VideoInst :=
  let p := c.fns.checkVideoFreeRun c.ticks lastPolicy (c.fns.videoCheckDiscontinue c.ticks (c.fns.getStc p))
  let pvdiff := s64 (p.mCurPcr - c.ticks)
  if p.mVideoStarted = false then
    (getStartSlowSyncInit c p).map fun (p, started) =>
      if started = true ∨ pvdiff > 0 then { p with mVideoStarted := true } else p
  else some p

/-- How long the clock holds a frame. -/
def clockHoldTime (pvdiff : Int) : Int :=
  let time := divU64 ((0 - pvdiff) * 100) 9
  if time > 1000000 then 8000 else time

/-- The frame is judged. -/
def judgeFrame (c : VideoCall) (hold : VideoHold) (p : VideoInst) : Option (VideoState × VideoAnswer) :=
  let pvdiff := s64 (p.mCurPcr - c.ticks)
  if pvdiff < 0 then
    if p.mStartSlowSyncInfo.mSlowSyncEnable ≠ 0 ∧ p.mStartSlowSyncInfo.mSlowSyncFinished = false then
      (videoStartPlaybackSlowSync c p).map fun (p, answer, ret) =>
        let hold := if ret = false then
            { hold with mHoldVideoPts := c.ticks, mStartHoldVideoTime := answer.param2 }
          else hold
        (⟨p, { hold with videoLastPolicy := answer.videopolicy }⟩, answer)
    else
      let time := clockHoldTime pvdiff
      let answer : VideoAnswer := { param2 := s32 time, branch := .clock }
      some (⟨p, ⟨answer.videopolicy, c.ticks, time, c.now⟩⟩, answer)
  else
    let answer : VideoAnswer := { videopolicy := .MEDIASYNC_VIDEO_NORMAL_OUTPUT, branch := .due }
    some (⟨{ p with mCurVideoFrameInfo := ⟨c.ticks, c.now⟩ },
      { hold with videoLastPolicy := answer.videopolicy, mHoldVideoTime := -1, mHoldVideoPts := -1 }⟩, answer)

/-- The frame is the one that is held, and its time is not over. -/
def VideoHold.Holds (hold : VideoHold) (c : VideoCall) : Prop :=
  hold.videoLastPolicy = .MEDIASYNC_VIDEO_HOLD ∧ hold.mHoldVideoPts = c.ticks ∧
    s64 (c.enter - hold.mStartHoldVideoTime) < hold.mHoldVideoTime

instance (hold : VideoHold) (c : VideoCall) : Decidable (hold.Holds c) :=
  inferInstanceAs (Decidable (_ ∧ _ ∧ _))

/-- `mediasync_video_process`. -/
def mediasyncVideoProcess (s : VideoState) (c : VideoCall) : Option (VideoState × VideoAnswer) :=
  if s.hold.Holds c then some (s, { branch := .held })
  else match beforeClock c s.inst with
    | (p, some answer) => some (⟨p, s.hold⟩, answer)
    | (p, none) => (readClock c s.hold.videoLastPolicy p).bind (judgeFrame c s.hold)

/-! ## Runs -/

def holdStep (s : VideoState) (c : VideoCall) : Option VideoState :=
  (mediasyncVideoProcess s c).map Prod.fst

/-- The calls of a run with their answers. -/
def videoLog : VideoState → List VideoCall → Option (List (VideoCall × VideoAnswer))
  | _, [] => some []
  | s, c :: calls => do
    let (s', answer) ← mediasyncVideoProcess s c
    let log ← videoLog s' calls
    return (c, answer) :: log

/-- The call was answered with a hold from the clock or the slow start. -/
def Timed (x : VideoCall × VideoAnswer) : Prop :=
  x.2.videopolicy = .MEDIASYNC_VIDEO_HOLD ∧ 0 < x.2.param2 ∧ (x.2.branch = .clock ∨ x.2.branch = .slow)

/-- A call made before the time of the hold `x` is over. -/
def Early (x y : VideoCall × VideoAnswer) : Prop := (y.1.enter : Int) - x.1.now < x.2.param2

instance (x y : VideoCall × VideoAnswer) : Decidable (Early x y) := inferInstanceAs (Decidable (_ < _))

/-- After the hold `x`, early calls are answered with HOLD, and the first call that is not looks at the
frame again. -/
def KeptFor (x : VideoCall × VideoAnswer) (later : List (VideoCall × VideoAnswer)) : Prop :=
  ∀ mid y post, later = mid ++ y :: post →
    (Early x y → y.2.videopolicy = .MEDIASYNC_VIDEO_HOLD) ∧
      (¬ Early x y → (∀ z ∈ mid, Early x z) → y.2.branch ≠ .held)

/-- Every hold of a run is honoured. -/
def Honoured (log : List (VideoCall × VideoAnswer)) : Prop :=
  ∀ pre x later, log = pre ++ x :: later → Timed x → KeptFor x later

/-- The instance with which the frame is judged, if it is. -/
def judged (s : VideoState) (c : VideoCall) : Option VideoInst :=
  if s.hold.Holds c then none
  else match beforeClock c s.inst with
    | (_, some _) => none
    | (p, none) => readClock c s.hold.videoLastPolicy p

/-- The slow start holds the frame: it is ahead of the clock, and nearly met by it or not to be shown yet. -/
def SlowHolds (c : VideoCall) (p : VideoInst) : Prop :=
  s64 (p.mCurPcr - c.ticks) < 0 ∧ p.mStartSlowSyncInfo.mSlowSyncEnable ≠ 0 ∧
    p.mStartSlowSyncInfo.mSlowSyncFinished = false ∧
    (s64 (c.ticks - p.mCurPcr) ≤ 1499 ∨ outDuration c p < slowDuration c p)

instance (c : VideoCall) (p : VideoInst) : Decidable (SlowHolds c p) :=
  inferInstanceAs (Decidable (_ ∧ _ ∧ _ ∧ (_ ∨ _)))

/-- The slow start does not hold the frame of a call. -/
def NotSlow (s : VideoState) (c : VideoCall) : Prop := ∀ p ∈ judged s c, ¬ SlowHolds c p

instance (s : VideoState) (c : VideoCall) : Decidable (NotSlow s c) :=
  inferInstanceAs (Decidable (∀ p ∈ judged s c, ¬ SlowHolds c p))

section Calls

variable {s s' : VideoState} {c : VideoCall} {p : VideoInst} {a : VideoAnswer} {hold : VideoHold}

theorem VideoAnswer.early_of_eq {b : VideoAnswer} (hb : b.branch = .early) (h : some b = some a) :
    a.branch = .early ∨ a.branch = .resume := Or.inl (Option.some.inj h ▸ hb)

theorem pauseResume_branch (h : (pauseResume c p).2 = some a) : a.branch = .early ∨ a.branch = .resume := by
  rw [pauseResume] at h
  split at h
  · dsimp only at h
    split at h
    · exact Or.inr (Option.some.inj h ▸ rfl)
    · exact absurd h (Option.some_ne_none a).symm
  · exact absurd h (Option.some_ne_none a).symm

theorem whenRunning_branch (h : (whenRunning c p).2 = some a) : a.branch = .early ∨ a.branch = .resume := by
  rw [whenRunning] at h
  dsimp only at h
  split at h
  · exact VideoAnswer.early_of_eq rfl h
  · exact pauseResume_branch h

theorem firstFrame_branch (h : (firstFrame c p).2 = some a) : a.branch = .early ∨ a.branch = .resume := by
  rw [firstFrame] at h
  split at h
  · split at h
    · dsimp only at h
      split at h
      · exact VideoAnswer.early_of_eq rfl h
      · exact whenRunning_branch h
    · exact VideoAnswer.early_of_eq rfl h
  · exact whenRunning_branch h

/-- Before the clock is read, no hold comes from the clock. -/
theorem beforeClock_branch (h : (beforeClock c p).2 = some a) : a.branch = .early ∨ a.branch = .resume := by
  rw [beforeClock] at h
  dsimp only at h
  split at h
  · split at h
    · exact VideoAnswer.early_of_eq rfl h
    · exact VideoAnswer.early_of_eq rfl h
  · split at h
    · exact VideoAnswer.early_of_eq rfl h
    · exact firstFrame_branch h

theorem clockHoldTime_range (pvdiff : Int) : 0 ≤ clockHoldTime pvdiff ∧ clockHoldTime pvdiff ≤ 1000000 := by
  have hnonneg : 0 ≤ divU64 ((0 - pvdiff) * 100) 9 :=
    Int.ediv_nonneg (Int.emod_nonneg _ (by decide)) (Int.emod_nonneg _ (by decide))
  rw [clockHoldTime]
  split <;> omega

theorem s32_clockHoldTime (pvdiff : Int) : s32 (clockHoldTime pvdiff) = clockHoldTime pvdiff := by
  have hrange := clockHoldTime_range pvdiff
  rw [s32]
  omega

theorem VideoAnswer.kept_of_branch {P : Prop} (h : a.branch = .early ∨ a.branch = .resume ∨ a.branch = .due) :
    a.branch ≠ .held ∧ a.branch ≠ .slow ∧ (a.branch = .clock → P) := by
  rcases h with h | h | h <;> rw [h]
  all_goals exact ⟨by decide, by decide, fun hno => absurd hno (by decide)⟩

/-- The slow start shows a frame that is far ahead when the last one was shown long enough. -/
theorem slowSync_due (hfar : 1499 < s64 (c.ticks - p.mCurPcr)) (hlong : slowDuration c p ≤ outDuration c p)
    {r : VideoInst × VideoAnswer × Bool} (h : videoStartPlaybackSlowSync c p = some r) :
    r.2.1.branch = .due := by
  rw [videoStartPlaybackSlowSync, if_pos hfar, if_neg (Int.not_lt.mpr hlong)] at h
  split at h
  · exact absurd h (Option.some_ne_none r).symm
  · exact Option.some.inj h ▸ rfl

/-- What a frame that is judged leaves: a hold of the clock is kept as it was answered. -/
theorem judgeFrame_kept (hslow : ¬ SlowHolds c p) (h : judgeFrame c hold p = some (s', a)) :
    a.branch ≠ .held ∧ a.branch ≠ .slow ∧
      (a.branch = .clock → s'.hold = ⟨.MEDIASYNC_VIDEO_HOLD, c.ticks, a.param2, c.now⟩) := by
  rw [judgeFrame] at h
  dsimp only at h
  split at h
  · next hahead =>
    split at h
    · next hstart =>
      obtain ⟨r, hsync, heq⟩ := Option.map_eq_some_iff.mp h
      have hfar : 1499 < s64 (c.ticks - p.mCurPcr) :=
        Int.not_le.mp fun hnear => hslow ⟨hahead, hstart.1, hstart.2, Or.inl hnear⟩
      have hlong : slowDuration c p ≤ outDuration c p :=
        Int.not_lt.mp fun hout => hslow ⟨hahead, hstart.1, hstart.2, Or.inr hout⟩
      have hanswer : r.2.1 = a := congrArg Prod.snd heq
      exact VideoAnswer.kept_of_branch (Or.inr (Or.inr (hanswer ▸ slowSync_due hfar hlong hsync)))
    · obtain ⟨rfl, rfl⟩ := Prod.mk.inj (Option.some.inj h)
      refine ⟨VideoBranch.noConfusion, VideoBranch.noConfusion, fun _ => ?_⟩
      rw [s32_clockHoldTime]
  · obtain ⟨rfl, rfl⟩ := Prod.mk.inj (Option.some.inj h)
    exact VideoAnswer.kept_of_branch (Or.inr (Or.inr rfl))

/-- What a call does: the frame is still held, or it is looked at again and a hold of the clock is kept. -/
theorem videoProcess_cases (hok : NotSlow s c) (h : mediasyncVideoProcess s c = some (s', a)) :
    (s.hold.Holds c ∧ s' = s ∧ a = { branch := .held }) ∨
    (¬ s.hold.Holds c ∧ a.branch ≠ .held ∧ a.branch ≠ .slow ∧
      (a.branch = .clock → s'.hold = ⟨.MEDIASYNC_VIDEO_HOLD, c.ticks, a.param2, c.now⟩)) := by
  by_cases hholds : s.hold.Holds c
  · rw [mediasyncVideoProcess, if_pos hholds] at h
    obtain ⟨rfl, rfl⟩ := Prod.mk.inj (Option.some.inj h)
    exact Or.inl ⟨hholds, rfl, rfl⟩
  · refine Or.inr ⟨hholds, ?_⟩
    rw [mediasyncVideoProcess, if_neg hholds] at h
    rw [NotSlow, judged, if_neg hholds] at hok
    match hbefore : beforeClock c s.inst with
    | (p, none) =>
      rw [hbefore] at h hok
      obtain ⟨q, hread, hjudge⟩ := Option.bind_eq_some_iff.mp h
      exact judgeFrame_kept (hok q hread) hjudge
    | (p, some b) =>
      rw [hbefore] at h
      obtain ⟨-, rfl⟩ := Prod.mk.inj (Option.some.inj h)
      have hbranch := beforeClock_branch (congrArg Prod.snd hbefore)
      exact VideoAnswer.kept_of_branch (hbranch.imp_right Or.inl)

end Calls

section Runs

variable {s s' : VideoState} {c : VideoCall} {calls : List VideoCall} {a : VideoAnswer}
  {log : List (VideoCall × VideoAnswer)} {x : VideoCall × VideoAnswer}

theorem videoLog_cons (h : videoLog s (c :: calls) = some log) :
    ∃ s' a rest, mediasyncVideoProcess s c = some (s', a) ∧ videoLog s' calls = some rest ∧
      log = (c, a) :: rest := by
  obtain ⟨⟨s', a⟩, hcall, h⟩ := Option.bind_eq_some_iff.mp h
  obtain ⟨rest, hrest, h⟩ := Option.bind_eq_some_iff.mp h
  exact ⟨s', a, rest, hcall, hrest, (Option.some.inj h).symm⟩

theorem videoLog_calls (h : videoLog s calls = some log) : log.map Prod.fst = calls := by
  induction calls generalizing s log with
  | nil => exact Option.some.inj h ▸ rfl
  | cons c calls ih =>
    obtain ⟨s', a, rest, -, hrest, rfl⟩ := videoLog_cons h
    rw [List.map_cons, ih hrest]

/-- The state keeps the hold `x`. -/
def KeepsHold (s : VideoState) (x : VideoCall × VideoAnswer) : Prop :=
  s.hold = ⟨.MEDIASYNC_VIDEO_HOLD, x.1.ticks, x.2.param2, x.1.now⟩

/-- A call with the same time stamp, after a hold that is kept, is answered from it exactly when it is early. -/
theorem KeepsHold.holds_iff (h : KeepsHold s x) (hpts : c.vpts = x.1.vpts) :
    s.hold.Holds c ↔ (c.enter : Int) - x.1.now < x.2.param2 := by
  have hticks : x.1.ticks = c.ticks := by rw [VideoCall.ticks, VideoCall.ticks, hpts]
  have henter := Nat.lt_of_le_of_lt c.ordered c.inRange
  have hnow := x.1.inRange
  have htime : s64 ((c.enter : Int) - x.1.now) = c.enter - x.1.now := by
    rw [s64]
    omega
  rw [VideoHold.Holds, h, hticks]
  dsimp only
  rw [htime]
  exact ⟨fun hholds => hholds.2.2, fun hearly => ⟨rfl, rfl, hearly⟩⟩

/-- From a state that keeps a hold, the hold is honoured. Induction on the calls; those before the one that is
looked at are early, and leave the state as it is. -/
theorem KeepsHold.keptFor (h : KeepsHold s x) (hlog : videoLog s calls = some log)
    (hpts : ∀ c ∈ calls, c.vpts = x.1.vpts) (htimes : calls.Pairwise fun c c' => c.now ≤ c'.enter)
    (hguard : Guarded holdStep NotSlow s calls) : KeptFor x log := by
  induction calls generalizing s log with
  | nil =>
    obtain rfl := Option.some.inj hlog
    intro mid y post hsplit
    exact absurd hsplit (by simp)
  | cons c calls ih =>
    obtain ⟨s', a, rest, hcall, hrest, rfl⟩ := videoLog_cons hlog
    have hholds := h.holds_iff (hpts c List.mem_cons_self)
    obtain ⟨hlater, htimes⟩ := List.pairwise_cons.mp htimes
    have hfirst := videoProcess_cases hguard.1 hcall
    intro mid y post hsplit
    rcases List.cons_eq_append_iff.mp hsplit with ⟨rfl, hy⟩ | ⟨mid, rfl, htail⟩
    · obtain ⟨rfl, -⟩ := List.cons.inj hy
      rcases hfirst with ⟨hheld, -, rfl⟩ | ⟨hno, hbranch, -⟩
      · exact ⟨fun _ => rfl, fun hlate => absurd (hholds.mp hheld) hlate⟩
      · exact ⟨fun hearly => absurd (hholds.mpr hearly) hno, fun _ _ => hbranch⟩
    · rcases hfirst with ⟨-, rfl, -⟩ | ⟨hno, -⟩
      · have hkept := ih h hrest (fun c hc => hpts c (List.mem_cons_of_mem _ hc)) htimes
          (hguard.2 _ (by rw [holdStep, hcall]; rfl)) mid y post htail
        exact ⟨hkept.1, fun hlate hmid => hkept.2 hlate fun z hz => hmid z (List.mem_cons_of_mem _ hz)⟩
      · -- a call that is not early is followed by none that is
        have hmem : y.1 ∈ calls := by
          rw [← videoLog_calls hrest, htail]
          exact List.mem_map_of_mem (List.mem_append_right _ List.mem_cons_self)
        have hlate : ¬ Early x (c, a) := fun hearly => hno (hholds.mpr hearly)
        refine ⟨fun hearly => absurd ?_ hlate, fun _ hmid => absurd (hmid _ List.mem_cons_self) hlate⟩
        have hle := Nat.le_trans c.ordered (hlater y.1 hmem)
        rw [Early] at hearly ⊢
        dsimp only
        omega

/-- In a run of calls with one time stamp, in which the slow start holds nothing, every hold is honoured. -/
theorem holds_honoured (s : VideoState) (calls : List VideoCall) {log : List (VideoCall × VideoAnswer)}
    {v : Int} (hlog : videoLog s calls = some log) (hpts : ∀ c ∈ calls, c.vpts = v)
    (htimes : calls.Pairwise fun c c' => c.now ≤ c'.enter)
    (hguard : Guarded holdStep NotSlow s calls) : Honoured log := by
  induction calls generalizing s log with
  | nil =>
    obtain rfl := Option.some.inj hlog
    intro pre x later hsplit
    exact absurd hsplit (by simp)
  | cons c calls ih =>
    obtain ⟨s', a, rest, hcall, hrest, rfl⟩ := videoLog_cons hlog
    have hstep : holdStep s c = some s' := by rw [holdStep, hcall]; rfl
    have hrestPts : ∀ c ∈ calls, c.vpts = v := fun c hc => hpts c (List.mem_cons_of_mem _ hc)
    obtain ⟨-, hrestTimes⟩ := List.pairwise_cons.mp htimes
    intro pre x later hsplit htimed
    rcases List.cons_eq_append_iff.mp hsplit with ⟨rfl, hx⟩ | ⟨pre, rfl, htail⟩
    · obtain ⟨rfl, rfl⟩ := List.cons.inj hx
      have hkeeps : KeepsHold s' (c, a) := by
        rcases videoProcess_cases hguard.1 hcall with ⟨-, -, rfl⟩ | ⟨-, -, hslow, hclock⟩
        · exact absurd (show (0 : Int) < -1 from htimed.2.1) (by decide)
        · exact hclock (htimed.2.2.resolve_right hslow)
      have hsame : ∀ d ∈ calls, d.vpts = c.vpts := fun d hd =>
        (hrestPts d hd).trans (hpts c List.mem_cons_self).symm
      exact hkeeps.keptFor hrest hsame hrestTimes (hguard.2 s' hstep)
    · exact ih s' hrest hrestPts hrestTimes (hguard.2 s' hstep) pre x later htail htimed

end Runs

/-! ## Two runs -/

/-- A playback that runs, with the clock at `pcr`. -/
def clockAt (pcr : Int) : PolicyFns where
  getUpdateInfo := id
  videoStateProcess p := (p, true, .MEDIASYNC_RUNNING)
  videoUpdateRefClock _ p := (p, false)
  getStc p := { p with mCurPcr := pcr }
  videoCheckDiscontinue _ p := p
  checkVideoFreeRun _ _ p := p
  startSlowSyncEnable := 1

/-- A call for the frame at one second, 40 ms long. -/
def frameAt (enter : Fin 10000000) (pcr : Int) : VideoCall where
  vpts := 1000000
  param1 := 40000
  enter := enter
  now := enter + 10
  fns := clockAt pcr
  ordered := Nat.le_add_right _ _
  inRange := Nat.lt_trans (Nat.add_lt_add_right enter.isLt 10) (by decide)

/-- The first frame was shown at five seconds; the slow start is over if `finished`. -/
def startedSlow (finished : Bool) : VideoState where
  inst := {
    firstVFrameInfo := ⟨86400, 5000000⟩
    mCurVideoFrameInfo := ⟨86400, 5000000⟩
    mVideoStarted := true
    mStartSlowSyncInfo := {
      mSlowSyncFinished := finished
      mSlowSyncSpeed := 90
      mSlowSyncFrameShowTime := 5000000 } }

/-- The clock holds the frame for 30 ms; after 10 ms it is held, after 31 ms it is shown. -/
theorem holds_honoured_clock : ∃ log, videoLog (startedSlow true)
    [frameAt 5000400 87300, frameAt 5010400 88200, frameAt 5031410 90090] = some log ∧
      log.map (fun x => x.2.videopolicy) =
        [.MEDIASYNC_VIDEO_HOLD, .MEDIASYNC_VIDEO_HOLD, .MEDIASYNC_VIDEO_NORMAL_OUTPUT] ∧ Honoured log := by
  refine ⟨_, rfl, by decide +kernel, ?_⟩
  refine @holds_honoured (startedSlow true)
    [frameAt 5000400 87300, frameAt 5010400 88200, frameAt 5031410 90090] _ 1000000 rfl ?_ ?_ ?_
  · intro c hc
    simp only [List.mem_cons, List.not_mem_nil, or_false] at hc
    rcases hc with rfl | rfl | rfl <;> rfl
  · decide +kernel
  · decide +kernel

/-- The slow start holds the frame for 44 ms; after 40 ms the clock has passed it and it is shown. -/
theorem slowHold_ends_early : ∃ log,
    videoLog (startedSlow false) [frameAt 5000400 87300, frameAt 5040400 90900] = some log ∧
      ¬ Honoured log := by
  refine ⟨_, rfl, fun h => ?_⟩
  have hkept := h [] _ _ rfl ⟨rfl, by decide +kernel, Or.inr rfl⟩ [] _ [] rfl
  exact absurd (hkept.1 (by decide +kernel)) (by decide +kernel)

end MediaModules.MediaSync
