import MediaModules.Lib.Run
import MediaModules.Lib.Versions
import MediaModules.MediaSync.Parameters

/-!
# The clock parameters of a policy

A policy works on copies of the clock parameters of its instance. Each `mediasync_get_update_info`
makes the slope check run and reads `mStcParmUpdateCount`; the copies are made again when it is not
the count read last. The copies go stale when the clock is restarted with the slope it has, which
counts nothing, when the count wraps round, and when a reset lets it reach the number read last a
second time.
-/
namespace MediaModules.MediaSync

open Lib.Run Lib.Versions

/-- What `mediasync_policy_instance` keeps of the parameters, and the count they were read with. -/
structure Policy where
  anchorFrameInfo : FrameInfo := {}
  mSpeed : Speed := {}
  mPcrSlope : Speed := {}
  mStartThreshold : Int := 0
  mPtsAdjust : Int := 0
  clockType : ClockType := .UNKNOWN_CLOCK
  isPause : Int := 0
  mVideoTrickMode : Int := 0
  mStcParmUpdateCount : Nat := 0
deriving DecidableEq, Repr

/-- The copies, as the parameters they are copies of. -/
def Policy.parms (p : Policy) : StcParm :=
  { refClockInfo := p.anchorFrameInfo
    mSpeed := p.mSpeed
    mPcrSlope := p.mPcrSlope
    mStartThreshold := p.mStartThreshold
    mPtsAdjust := p.mPtsAdjust
    mSourceClockType := p.clockType
    mPaused := p.isPause
    mVideoTrickMode := p.mVideoTrickMode }

/-- `mediasync_get_update_info`, after the instance has run its slope check. -/
def Policy.updateInfo (p : Policy) (i : ClockIns) : Policy :=
  if p.mStcParmUpdateCount ≠ i.mStcParmUpdateCount then
    { anchorFrameInfo := i.refClockInfo
      mSpeed := i.mSpeed
      mPcrSlope := i.mPcrSlope
      mStartThreshold := i.mStartThreshold
      mPtsAdjust := i.mPtsAdjust
      clockType := i.mSourceClockType
      isPause := i.mPaused
      mVideoTrickMode := i.mVideoTrickMode
      mStcParmUpdateCount := i.mStcParmUpdateCount }
  else p

/-- The operations on an instance that has one policy. `checkPcrSlope` is a `GET_UPDATE_INFO` of
somebody else. -/
inductive ClockOp
  | setRefclockinfo (info : FrameInfo)
  | setMediatimeSpeed (fSpeed : Speed)
  | setPcrslope (pcrslope : Speed)
  | setStartthreshold (threshold : Int)
  | setPtsadjust (adjustPts : Int)
  | setClocktype (type : ClockType)
  | setPaused (sPaused : Int)
  | setTrickMode (value : Int)
  | setHasaudio (hasaudio : Int)
  | setHasvideo (hasvideo : Int)
  | setClockstate (state : ClockState)
  | setAvsyncstate (state : AvsyncState) (curTimeUs : Int)
  | setCuraudioframeinfo (info : FrameInfo)
  | setPcrAndDmxId (sDemuxId sPcrPid : Int)
  | setAudioSwitch (mOn mSetByUser mPts : Int)
  | setStartPlayThreshold (value : Int)
  | setIsAbnormalAudio (value : Int)
  | checkPcrSlope (r : Readings)
  | reset (startPlayThreshold : Int)
  | getUpdateInfo (r : Readings)

/-- What an operation does to the instance. -/
def ClockIns.operate (i : ClockIns) : ClockOp → ClockIns
  | .setRefclockinfo info => i.setRefclockinfo info
  | .setMediatimeSpeed fSpeed => i.setMediatimeSpeed fSpeed
  | .setPcrslope pcrslope => i.setPcrslope pcrslope
  | .setStartthreshold threshold => i.setStartthreshold threshold
  | .setPtsadjust adjustPts => i.setPtsadjust adjustPts
  | .setClocktype type => i.setClocktype type
  | .setPaused sPaused => i.setPaused sPaused
  | .setTrickMode value => i.setTrickMode value
  | .setHasaudio hasaudio => i.setHasaudio hasaudio
  | .setHasvideo hasvideo => i.setHasvideo hasvideo
  | .setClockstate state => i.setClockstate state
  | .setAvsyncstate state curTimeUs => i.setAvsyncstate state curTimeUs
  | .setCuraudioframeinfo info => i.setCuraudioframeinfo info
  | .setPcrAndDmxId sDemuxId sPcrPid => i.setPcrAndDmxId sDemuxId sPcrPid
  | .setAudioSwitch mOn mSetByUser mPts => i.setAudioSwitch mOn mSetByUser mPts
  | .setStartPlayThreshold value => i.setStartPlayThreshold value
  | .setIsAbnormalAudio value => i.setIsAbnormalAudio value
  | .checkPcrSlope r => i.checkPcrSlope r
  | .reset startPlayThreshold => i.reset startPlayThreshold
  | .getUpdateInfo r => i.checkPcrSlope r

/-- An instance, its policy, and what the count has done since the policy last read it. -/
structure Session where
  ins : ClockIns := {}
  policy : Policy := {}
  since : Since := {}

namespace Session

variable (s : Session)

/-- The instance goes over to `i`. -/
def moveTo (i : ClockIns) : Session :=
  { s with
    ins := i
    since := if i.mStcParmUpdateCount = s.ins.mStcParmUpdateCount then s.since else s.since.move }

/-- The policy reads the count and, if it is another, the parameters. -/
def refresh : Session := { s with policy := s.policy.updateInfo s.ins, since := {} }

end Session

/-- One operation. -/
def sessionStep (s : Session) (op : ClockOp) : Option Session :=
  match op with
  | .reset startPlayThreshold =>
    some { s with ins := s.ins.reset startPlayThreshold, since := { restarted := true } }
  | .getUpdateInfo r => some (s.moveTo (s.ins.checkPcrSlope r)).refresh
  | op => some (s.moveTo (s.ins.operate op))

/-! ## What counts a write -/

/-- The parameters and the count are left alone, or the write is counted. -/
def Counted (i i' : ClockIns) : Prop :=
  i'.toStcParm = i.toStcParm ∧ i'.mStcParmUpdateCount = i.mStcParmUpdateCount ∨
    i'.mStcParmUpdateCount = (i.mStcParmUpdateCount + 1) % COUNT_RANGE

/-- A slope check that starts the clock again gives it another slope. -/
def Announced (i : ClockIns) (r : Readings) : Prop :=
  ∀ slope ∈ (i.slopeVerdict r).2, i.mPcrSlope ≠ ⟨slope, 100⟩

/-- At this reading by the policy the count has not run round since the last one; and after a reset it
is not back at the number read last, unless the policy has the parameters of the instance and the
slope check does not restart the clock. -/
structure NotBack (s : Session) (r : Readings) : Prop where
  round : s.since.restarted = false →
    (s.moveTo (s.ins.checkPcrSlope r)).since.moves % COUNT_RANGE = 0 →
    (s.moveTo (s.ins.checkPcrSlope r)).since.moves = 0
  back : s.since.restarted = true →
    (s.moveTo (s.ins.checkPcrSlope r)).since.moves % COUNT_RANGE = s.policy.mStcParmUpdateCount →
    s.ins.toStcParm = s.policy.parms ∧ (s.ins.slopeVerdict r).2 = none

/-- The guard of an operation. -/
def Told (s : Session) : ClockOp → Prop
  | .checkPcrSlope r => Announced s.ins r
  | .getUpdateInfo r => Announced s.ins r ∧ NotBack s r
  | _ => True

/-- The policy has the parameters of the instance, and has just read its count. -/
structure Session.Start (s : Session) : Prop where
  parms : s.policy.parms = s.ins.toStcParm
  count : s.policy.mStcParmUpdateCount = s.ins.mStcParmUpdateCount
  below : s.ins.mStcParmUpdateCount < COUNT_RANGE
  since : s.since = {}

/-- The count and the copies of a session, as the versioned copies they are. -/
def Session.Tracked (s : Session) : Prop :=
  Tracks COUNT_RANGE s.since s.ins.toStcParm s.policy.parms s.ins.mStcParmUpdateCount
    s.policy.mStcParmUpdateCount

section Writes

variable {i i' : ClockIns}

theorem counted_same (hparms : i'.toStcParm = i.toStcParm)
    (hcount : i'.mStcParmUpdateCount = i.mStcParmUpdateCount) : Counted i i' :=
  Or.inl ⟨hparms, hcount⟩

theorem counted_countUpdate (hcount : i'.mStcParmUpdateCount = i.mStcParmUpdateCount) :
    Counted i i'.countUpdate := by
  apply Or.inr
  show (i'.mStcParmUpdateCount + 1) % COUNT_RANGE = _
  rw [hcount]

/-- The setters that first compare. -/
theorem counted_ite {c : Prop} [Decidable c] (h : Counted i i') :
    Counted i (if c then i else i') := by
  split
  · exact counted_same rfl rfl
  · exact h

theorem counted_setRefclockinfo (i : ClockIns) (info : FrameInfo) :
    Counted i (i.setRefclockinfo info) := by
  refine counted_ite (Or.inr ?_)
  dsimp only
  split <;> rfl

theorem judgeSlope_parms (i : ClockIns) (r : Readings) (curPcr : Int) :
    (i.judgeSlope r curPcr).1.toStcParm = i.toStcParm ∧
      (i.judgeSlope r curPcr).1.mStcParmUpdateCount = i.mStcParmUpdateCount := by
  have hrecord : (i.recordPcr r).toStcParm = i.toStcParm ∧
      (i.recordPcr r).mStcParmUpdateCount = i.mStcParmUpdateCount := by
    simp only [ClockIns.recordPcr]
    split <;> exact ⟨rfl, rfl⟩
  have hslope (j : ClockIns) (slope overall : Int) :
      (j.recordSlope r slope overall).toStcParm = j.toStcParm ∧
        (j.recordSlope r slope overall).mStcParmUpdateCount = j.mStcParmUpdateCount := by
    simp only [ClockIns.recordSlope]
    split <;> exact ⟨rfl, rfl⟩
  have hboth := (hslope (i.recordPcr r) (i.slope r) (i.slopeOverall r))
  simp only [ClockIns.judgeSlope]
  split
  · exact hrecord
  · split
    · exact ⟨hboth.1.trans hrecord.1, hboth.2.trans hrecord.2⟩
    · split <;> exact ⟨hboth.1.trans hrecord.1, hboth.2.trans hrecord.2⟩

theorem slopeVerdict_parms (i : ClockIns) (r : Readings) :
    (i.slopeVerdict r).1.toStcParm = i.toStcParm ∧
      (i.slopeVerdict r).1.mStcParmUpdateCount = i.mStcParmUpdateCount := by
  simp only [ClockIns.slopeVerdict]
  split
  · exact ⟨rfl, rfl⟩
  · split
    · exact ⟨rfl, rfl⟩
    · split
      · exact judgeSlope_parms i r _
      · exact ⟨rfl, rfl⟩

/-- A check that does not restart the clock leaves the parameters alone. -/
theorem checkPcrSlope_quiet {i : ClockIns} {r : Readings} (h : (i.slopeVerdict r).2 = none) :
    (i.checkPcrSlope r).toStcParm = i.toStcParm ∧
      (i.checkPcrSlope r).mStcParmUpdateCount = i.mStcParmUpdateCount := by
  have hparms := slopeVerdict_parms i r
  simp only [ClockIns.checkPcrSlope]
  cases hverdict : i.slopeVerdict r with
  | mk recorded found =>
    rw [hverdict] at h hparms
    have hnone : found = none := h
    subst hnone
    exact hparms

theorem counted_checkPcrSlope {i : ClockIns} {r : Readings} (h : Announced i r) :
    Counted i (i.checkPcrSlope r) := by
  cases hfound : (i.slopeVerdict r).2 with
  | none =>
    obtain ⟨hparms, hcount⟩ := checkPcrSlope_quiet hfound
    exact counted_same hparms hcount
  | some slope =>
    obtain ⟨hparms, hcount⟩ := slopeVerdict_parms i r
    have hother : i.mPcrSlope ≠ ⟨slope, 100⟩ := h slope hfound
    have heq : i.checkPcrSlope r =
        (i.slopeVerdict r).1.followPcr r (i.stcTime r.curTimeUs) slope := by
      simp only [ClockIns.checkPcrSlope]
      cases hverdict : i.slopeVerdict r with
      | mk recorded found =>
        rw [hverdict] at hfound
        have hsome : found = some slope := hfound
        subst hsome
        rfl
    have hslope : (i.slopeVerdict r).1.mPcrSlope = i.mPcrSlope := congrArg StcParm.mPcrSlope hparms
    rw [← hslope] at hother
    apply Or.inr
    rw [heq, ← hcount]
    simp only [ClockIns.followPcr, ClockIns.setPcrslope, hother, if_false]
    rfl

theorem counted_operate {i : ClockIns} {op : ClockOp} (hreset : ∀ t, op ≠ .reset t)
    (hcheck : ∀ r, op = .checkPcrSlope r ∨ op = .getUpdateInfo r → Announced i r) :
    Counted i (i.operate op) := by
  cases op with
  | setRefclockinfo info => exact counted_setRefclockinfo i info
  | setMediatimeSpeed fSpeed => exact counted_ite (counted_countUpdate rfl)
  | setPcrslope pcrslope => exact counted_ite (counted_countUpdate rfl)
  | setStartthreshold threshold => exact counted_ite (counted_countUpdate rfl)
  | setPtsadjust adjustPts => exact counted_ite (counted_countUpdate rfl)
  | setClocktype type => exact counted_countUpdate rfl
  | setPaused sPaused => exact counted_ite (counted_ite (counted_countUpdate rfl))
  | setTrickMode value => exact Or.inr rfl
  | setHasaudio hasaudio => exact counted_countUpdate rfl
  | setHasvideo hasvideo => exact counted_same rfl rfl
  | setClockstate state => exact counted_same rfl rfl
  | setAvsyncstate state curTimeUs => exact counted_same rfl rfl
  | setCuraudioframeinfo info => exact counted_same rfl rfl
  | setPcrAndDmxId sDemuxId sPcrPid => exact counted_same rfl rfl
  | setAudioSwitch mOn mSetByUser mPts => exact counted_countUpdate rfl
  | setStartPlayThreshold value => exact Or.inr rfl
  | setIsAbnormalAudio value => exact Or.inr rfl
  | checkPcrSlope r => exact counted_checkPcrSlope (hcheck r (Or.inl rfl))
  | reset startPlayThreshold => exact absurd rfl (hreset startPlayThreshold)
  | getUpdateInfo r => exact counted_checkPcrSlope (hcheck r (Or.inr rfl))

end Writes

/-! ## Runs -/

variable {s u : Session}

theorem tracked_moveTo (h : s.Tracked) {i : ClockIns} (hcounted : Counted s.ins i) :
    (s.moveTo i).Tracked := by
  rcases hcounted with ⟨hparms, hcount⟩ | hcount
  · have hsince : (s.moveTo i).since = s.since := if_pos hcount
    simp only [Session.Tracked, hsince]
    show Tracks _ _ i.toStcParm _ i.mStcParmUpdateCount _
    rw [hparms, hcount]
    exact h
  · have hmoved : i.mStcParmUpdateCount ≠ s.ins.mStcParmUpdateCount := by
      have hbelow : s.ins.mStcParmUpdateCount < 4294967296 := h.count_lt
      have hnext : i.mStcParmUpdateCount = (s.ins.mStcParmUpdateCount + 1) % 4294967296 := hcount
      omega
    have hsince : (s.moveTo i).since = s.since.move := if_neg hmoved
    simp only [Session.Tracked, hsince]
    show Tracks _ _ i.toStcParm _ i.mStcParmUpdateCount _
    rw [hcount]
    exact h.move i.toStcParm

/-- What the policy has after it has read the count: the parameters, unless the count it saw is the
one shown. -/
theorem parms_refresh (s : Session) (h : s.ins.mStcParmUpdateCount = s.policy.mStcParmUpdateCount →
    s.ins.toStcParm = s.policy.parms) :
    s.refresh.policy.parms = s.ins.toStcParm ∧
      s.refresh.policy.mStcParmUpdateCount = s.ins.mStcParmUpdateCount := by
  simp only [Session.refresh, Policy.updateInfo]
  split
  · exact ⟨rfl, rfl⟩
  · rename_i hseen
    have hcount := not_not.mp hseen
    exact ⟨(h hcount.symm).symm, hcount⟩

/-- The number shown is another, or the parameters are still the ones the policy has. -/
theorem shown_parms (h : s.Tracked) {r : Readings} (hannounced : Announced s.ins r)
    (hback : NotBack s r)
    (hshown : (s.moveTo (s.ins.checkPcrSlope r)).ins.mStcParmUpdateCount =
      s.policy.mStcParmUpdateCount) :
    (s.moveTo (s.ins.checkPcrSlope r)).ins.toStcParm = s.policy.parms := by
  have htracked := tracked_moveTo h (counted_checkPcrSlope hannounced)
  have hrestarted : (s.moveTo (s.ins.checkPcrSlope r)).since.restarted = s.since.restarted := by
    simp only [Session.moveTo]
    split <;> rfl
  refine htracked.current (fun hr => ?_) (fun hr hmoves => ?_) hshown
  · exact hback.round (hrestarted.symm.trans hr)
  · obtain ⟨hparms, hquiet⟩ := hback.back (hrestarted.symm.trans hr) hmoves
    exact (checkPcrSlope_quiet hquiet).1.trans hparms

theorem tracked_step (h : s.Tracked) {op : ClockOp} (hg : Told s op)
    (hstep : sessionStep s op = some u) : u.Tracked := by
  have hother (hreset : ∀ t, op ≠ .reset t) (hget : ∀ r, op ≠ .getUpdateInfo r)
      (hcheck : ∀ r, op = .checkPcrSlope r → Announced s.ins r) :
      (s.moveTo (s.ins.operate op)).Tracked :=
    tracked_moveTo h (counted_operate hreset fun r heq =>
      heq.elim (hcheck r) fun h' => absurd h' (hget r))
  cases op with
  | reset startPlayThreshold =>
    rw [← Option.some.inj hstep]
    exact Tracks.restart h _
  | getUpdateInfo r =>
    obtain ⟨hannounced, hback⟩ := hg
    rw [← Option.some.inj hstep]
    have htracked := tracked_moveTo h (counted_checkPcrSlope hannounced)
    obtain ⟨hparms, hcount⟩ := parms_refresh _ (shown_parms h hannounced hback)
    simp only [Session.Tracked, hparms, hcount]
    exact Tracks.reread _ htracked.count_lt
  | checkPcrSlope r =>
    rw [← Option.some.inj hstep]
    apply hother (by exact nofun) (by exact nofun)
    intro r' heq
    injection heq with heq
    rw [← heq]
    exact hg
  | _ =>
    rw [← Option.some.inj hstep]
    exact hother (by exact nofun) (by exact nofun) (by exact nofun)

theorem Session.Start.tracked (h : s.Start) : s.Tracked := by
  have htracks := Tracks.reread s.ins.toStcParm h.below
  simp only [Session.Tracked, h.parms, h.count, h.since]
  exact htracks

/-- After every `mediasync_get_update_info` the policy has the parameters of the instance, and the
count was another than the one it saw last if any of them had changed: in every run in which no slope
check starts the clock again with the slope it has, and the count never comes back to the number the
policy saw, neither by running round nor after a reset. -/
theorem parameters_current (ops : List ClockOp) (r : Readings) (hstart : s.Start)
    (hguard : Guarded sessionStep Told s (ops ++ [.getUpdateInfo r]))
    (hrun : run sessionStep s ops = some u) :
    let t := (u.moveTo (u.ins.checkPcrSlope r)).refresh
    t.policy.parms = t.ins.toStcParm ∧
      (t.ins.toStcParm ≠ u.policy.parms →
        t.ins.mStcParmUpdateCount ≠ u.policy.mStcParmUpdateCount) := by
  have htracked : u.Tracked :=
    always_last (always_of_guarded (fun s op s' h hg hs => tracked_step h hg hs) hstart.tracked
      (guarded_init hguard)) hrun
  have hlast : Told u (.getUpdateInfo r) := guarded_last hguard hrun
  obtain ⟨hannounced, hback⟩ := hlast
  have hshown := shown_parms htracked hannounced hback
  exact ⟨(parms_refresh _ hshown).1, fun hother heq => hother (hshown heq)⟩

/-- A new policy. -/
def Policy.new : Policy :=
  { anchorFrameInfo := ⟨-1, -1⟩, mSpeed := ⟨100, 100⟩, mPcrSlope := ⟨100, 100⟩ }

/-- A new policy on a new instance. -/
def newSession : Session := { ins := ({} : ClockIns).reset 300, policy := Policy.new }

theorem newSession_start : newSession.Start where
  parms := rfl
  count := rfl
  below := by decide
  since := rfl

/-- The readings of a check that does not look at them. -/
def noReadings : Readings := ⟨0, 0, 0, 0⟩

theorem parameters_current_speed : ∃ u,
    run sessionStep newSession [.setMediatimeSpeed ⟨200, 100⟩] = some u ∧
      (u.moveTo (u.ins.checkPcrSlope noReadings)).refresh.policy.mSpeed = ⟨200, 100⟩ := by
  refine ⟨_, rfl, ?_⟩
  have hcurrent := (parameters_current [.setMediatimeSpeed ⟨200, 100⟩] noReadings newSession_start
    ?_ rfl).1
  · exact congrArg StcParm.mSpeed hcurrent
  · refine ⟨trivial, fun s' hs => ⟨?_, fun _ _ => trivial⟩⟩
    obtain rfl := Option.some.inj hs
    exact ⟨by exact nofun, ⟨by decide, by exact nofun⟩⟩

/-- The speed is set and read, the instance reset and its start threshold set: the count is at one
again, and the policy stays with the old speed. -/
theorem speed_stays : ¬ ∀ (s u : Session) (ops : List ClockOp) (r : Readings), s.Start →
    run sessionStep s ops = some u →
      (u.moveTo (u.ins.checkPcrSlope r)).refresh.policy.parms =
        (u.moveTo (u.ins.checkPcrSlope r)).refresh.ins.toStcParm := by
  intro h
  have hparms := h newSession _ [.setMediatimeSpeed ⟨200, 100⟩, .getUpdateInfo noReadings,
    .reset 300, .setStartthreshold 10] noReadings newSession_start rfl
  have hspeed := congrArg StcParm.mSpeed hparms
  exact absurd hspeed (by decide)

end MediaModules.MediaSync
