import MediaModules.MediaSync.ClockValue

/-!
# The clock under slope control

A slope check that starts the clock again sets it to the PCR and keeps what the clock was ahead of it
in the start threshold. The clock then goes on from where it was, and goes on growing, as long as no
64-bit value wraps.
-/
namespace MediaModules.MediaSync

open Lib.Run

/-- The clock in unbounded numbers. -/
def ClockIns.idealStc (i : ClockIns) (now : Int) : Int :=
  (now - i.refClockInfo.frameSystemTime) * i.rateFactor / u32 i.mPcrSlope.mDenominator * 9 / 100
    + i.refClockInfo.framePts - i.mPtsAdjust - i.mStartThreshold

/-- At this time no value of the clock wraps. -/
structure Fits (i : ClockIns) (now : Int) : Prop where
  product : (now - i.refClockInfo.frameSystemTime) * i.rateFactor < 18446744073709551616
  ticks : (now - i.refClockInfo.frameSystemTime) * i.rateFactor / u32 i.mPcrSlope.mDenominator * 9 <
    18446744073709551616
  low : -9223372036854775808 ≤ i.idealStc now
  high : i.idealStc now < 9223372036854775808

section

variable {i j : ClockIns} {r : Readings} {now next slope curPcr : Int}

theorem rateFactor_nonneg (i : ClockIns) : 0 ≤ i.rateFactor := by
  simp only [ClockIns.rateFactor, divU64, u64, u32]
  exact Int.ediv_nonneg (Int.emod_nonneg _ (by decide)) (Int.emod_nonneg _ (by decide))

theorem u32_nonneg (x : Int) : 0 ≤ u32 x := Int.emod_nonneg x (by decide)

theorem stcTime_of_fits (hforward : i.refClockInfo.frameSystemTime ≤ now) (h : Fits i now) :
    s64 (i.stcTime now) = i.idealStc now := by
  have hproduct : 0 ≤ (now - i.refClockInfo.frameSystemTime) * i.rateFactor :=
    Int.mul_nonneg (by omega) (rateFactor_nonneg i)
  have hticks : 0 ≤ (now - i.refClockInfo.frameSystemTime) * i.rateFactor /
      u32 i.mPcrSlope.mDenominator * 9 :=
    Int.mul_nonneg (Int.ediv_nonneg hproduct (u32_nonneg _)) (by decide)
  have hinterval : i.stcInterval (now - i.refClockInfo.frameSystemTime) =
      (now - i.refClockInfo.frameSystemTime) * i.rateFactor / u32 i.mPcrSlope.mDenominator := by
    rw [ClockIns.stcInterval, u64_of_range hproduct h.product, divU64,
      u64_of_range hproduct h.product]
  have hcent : u32 100 = 100 := u32_of_range (by decide) (by decide)
  rw [stcTime_eq, s64_u64, hinterval, u64_of_range hticks h.ticks, divU64,
    u64_of_range hticks h.ticks, hcent]
  exact s64_of_range h.low h.high

/-- The clock grows with the time. -/
theorem idealStc_mono (i : ClockIns) (hle : now ≤ next) : i.idealStc now ≤ i.idealStc next := by
  have hproduct : (now - i.refClockInfo.frameSystemTime) * i.rateFactor ≤
      (next - i.refClockInfo.frameSystemTime) * i.rateFactor :=
    Int.mul_le_mul_of_nonneg_right (by omega) (rateFactor_nonneg i)
  have hquot : (now - i.refClockInfo.frameSystemTime) * i.rateFactor / u32 i.mPcrSlope.mDenominator ≤
      (next - i.refClockInfo.frameSystemTime) * i.rateFactor / u32 i.mPcrSlope.mDenominator := by
    rcases eq_or_lt_of_le (u32_nonneg i.mPcrSlope.mDenominator) with hzero | hpos
    · rw [← hzero, Int.ediv_zero, Int.ediv_zero]
    · exact Int.ediv_le_ediv hpos hproduct
  simp only [ClockIns.idealStc]
  omega

/-! ## The update -/

theorem updateSlope_near {timeDiff overall : Int} {g : SlopeRange}
    (h : slope ∈ i.updateSlope r curPcr timeDiff now overall g) :
    absSub r.pcr (s64 curPcr) < DEFAULT_TRIGGER_DISCONTINUE_THRESHOLD := by
  simp only [ClockIns.updateSlope] at h
  by_contra hfar
  rw [if_neg hfar] at h
  exact absurd h (by simp)

/-- The clock is only started again near the PCR. -/
theorem slopeVerdict_near (h : slope ∈ (i.slopeVerdict r).2) :
    absSub r.pcr (s64 (i.stcTime r.curTimeUs)) < DEFAULT_TRIGGER_DISCONTINUE_THRESHOLD := by
  simp only [ClockIns.slopeVerdict] at h
  split at h
  · cases h
  split at h
  · cases h
  split at h
  · simp only [ClockIns.judgeSlope] at h
    split at h
    · cases h
    split at h
    · cases h
    split at h
    · exact updateSlope_near h
    · cases h
  · cases h

theorem startThreshold_near
    (hnear : absSub r.pcr (s64 curPcr) < DEFAULT_TRIGGER_DISCONTINUE_THRESHOLD)
    (hfits : |r.pcr - s64 curPcr| < 9223372036854775808) :
    r.pcr - s32 (r.pcr - curPcr) = s64 curPcr := by
  have hfits := abs_lt.mp hfits
  have hword : ∃ k, curPcr = s64 curPcr + 18446744073709551616 * k :=
    ⟨(curPcr + 9223372036854775808) / 18446744073709551616, by unfold s64; omega⟩
  obtain ⟨k, hk⟩ := hword
  have hclose : -630000 < r.pcr - s64 curPcr ∧ r.pcr - s64 curPcr < 630000 := by
    simp only [absSub, DEFAULT_TRIGGER_DISCONTINUE_THRESHOLD] at hnear
    generalize s64 curPcr = c at *
    split at hnear
    · rw [s64_of_range (by omega) (by omega)] at hnear
      omega
    · rw [s64_of_range (by omega) (by omega)] at hnear
      omega
  generalize s64 curPcr = c at *
  unfold s32
  omega

theorem followPcr_parms (i : ClockIns) (r : Readings) (curPcr slope : Int) :
    (i.followPcr r curPcr slope).refClockInfo = ⟨r.pcr, r.curTimeUs⟩ ∧
      (i.followPcr r curPcr slope).mPtsAdjust = 0 ∧
      (i.followPcr r curPcr slope).mStartThreshold = s32 (r.pcr - curPcr) := by
  simp only [ClockIns.followPcr, ClockIns.setPcrslope]
  split <;> exact ⟨rfl, rfl, rfl⟩

/-- What a slope check makes of the clock: nothing, or it puts the anchor on the PCR of now and the
clock where it was. -/
theorem checkPcrSlope_cases (i : ClockIns) (r : Readings) :
    (i.checkPcrSlope r).toStcParm = i.toStcParm ∨
      absSub r.pcr (s64 (i.stcTime r.curTimeUs)) < DEFAULT_TRIGGER_DISCONTINUE_THRESHOLD ∧
        (i.checkPcrSlope r).refClockInfo = ⟨r.pcr, r.curTimeUs⟩ ∧
        (i.checkPcrSlope r).mPtsAdjust = 0 ∧
        (i.checkPcrSlope r).mStartThreshold = s32 (r.pcr - i.stcTime r.curTimeUs) := by
  cases hfound : (i.slopeVerdict r).2 with
  | none => exact Or.inl (checkPcrSlope_quiet hfound).1
  | some slope =>
    have heq : i.checkPcrSlope r =
        (i.slopeVerdict r).1.followPcr r (i.stcTime r.curTimeUs) slope := by
      simp only [ClockIns.checkPcrSlope]
      cases hverdict : i.slopeVerdict r with
      | mk recorded found =>
        rw [hverdict] at hfound
        have hsome : found = some slope := hfound
        rw [hsome]
    rw [heq]
    exact Or.inr ⟨slopeVerdict_near hfound, followPcr_parms _ r _ slope⟩

theorem check_continuous (hfits : |r.pcr - s64 (i.stcTime r.curTimeUs)| < 9223372036854775808) :
    s64 ((i.checkPcrSlope r).stcTime r.curTimeUs) = s64 (i.stcTime r.curTimeUs) := by
  rcases checkPcrSlope_cases i r with hparms | ⟨hnear, hanchor, hadjust, hthreshold⟩
  · simp only [ClockIns.stcTime, hparms]
  · have hzero (k d : Int) : divU64 (u64 (divU64 (u64 (0 * k)) d * 9)) 100 = 0 := by
      have hdiv : divU64 (u64 (0 * k)) d = 0 := by
        rw [Int.zero_mul]
        exact Int.zero_ediv _
      rw [hdiv]
      rfl
    rw [stcTime_eq, s64_u64, hanchor, hadjust, hthreshold, ClockIns.stcInterval, Int.sub_self,
      hzero, Int.zero_add, Int.sub_zero, startThreshold_near hnear hfits]
    unfold s64
    omega

/-- So does the clock in unbounded numbers, and its anchor is not ahead of the time. -/
theorem check_ideal (hforward : i.refClockInfo.frameSystemTime ≤ r.curTimeUs)
    (h : Fits i r.curTimeUs) (hfits : |r.pcr - s64 (i.stcTime r.curTimeUs)| < 9223372036854775808) :
    (i.checkPcrSlope r).idealStc r.curTimeUs = i.idealStc r.curTimeUs ∧
      (i.checkPcrSlope r).refClockInfo.frameSystemTime ≤ r.curTimeUs := by
  rcases checkPcrSlope_cases i r with hparms | ⟨hnear, hanchor, hadjust, hthreshold⟩
  · simp only [ClockIns.idealStc, ClockIns.rateFactor, hparms]
    exact ⟨trivial, hforward⟩
  · constructor
    · rw [← stcTime_of_fits hforward h, ← startThreshold_near hnear hfits]
      simp only [ClockIns.idealStc, hanchor, hadjust, hthreshold, Int.sub_self, Int.zero_mul,
        Int.zero_ediv]
      omega
    · rw [hanchor]

end

/-! ## Runs -/

/-- Somebody reads the clock, or the slope is checked. -/
inductive SlopeEvent
  | look (curTimeUs : Int)
  | check (r : Readings)
deriving DecidableEq, Repr

/-- The system time of an event. -/
def SlopeEvent.time : SlopeEvent → Int
  | .look curTimeUs => curTimeUs
  | .check r => r.curTimeUs

/-- The instance, the time of the last event, the values the clock has shown, and for every check the
value before and after it. -/
structure SlopeRun where
  ins : ClockIns
  time : Int
  seen : List Int := []
  checks : List (Int × Int) := []

/-- The instance at the time of its anchor. -/
def slopeStart (i : ClockIns) : SlopeRun := { ins := i, time := i.refClockInfo.frameSystemTime }

def slopeStep (s : SlopeRun) : SlopeEvent → Option SlopeRun
  | .look curTimeUs => some { s with
      time := curTimeUs
      seen := s.seen ++ [s64 (s.ins.stcTime curTimeUs)] }
  | .check r =>
    let before := s64 (s.ins.stcTime r.curTimeUs)
    let after := s64 ((s.ins.checkPcrSlope r).stcTime r.curTimeUs)
    some
      { ins := s.ins.checkPcrSlope r
        time := r.curTimeUs
        seen := s.seen ++ [before, after]
        checks := s.checks ++ [(before, after)] }

/-- The time does not go back, and no value wraps: none of the clock, and at a check not its distance
from the PCR. -/
structure Unwrapped (s : SlopeRun) (ev : SlopeEvent) : Prop where
  forward : s.time ≤ ev.time
  fits : Fits s.ins ev.time
  near : ∀ r, ev = .check r → |r.pcr - s64 (s.ins.stcTime r.curTimeUs)| < 9223372036854775808

/-- What was shown is sorted, and the clock is not behind it. -/
structure Running (s : SlopeRun) : Prop where
  anchor : s.ins.refClockInfo.frameSystemTime ≤ s.time
  sorted : s.seen.Pairwise (· ≤ ·)
  reached : ∀ value ∈ s.seen, value ≤ s.ins.idealStc s.time
  kept : ∀ shown ∈ s.checks, shown.1 = shown.2

section

variable {s u : SlopeRun} {ev : SlopeEvent}

/-- The clock is read. -/
theorem Running.show (h : Running s) {now : Int} (hforward : s.time ≤ now) (hfits : Fits s.ins now) :
    (s.seen ++ [s64 (s.ins.stcTime now)]).Pairwise (· ≤ ·) ∧
      ∀ value ∈ s.seen ++ [s64 (s.ins.stcTime now)], value ≤ s.ins.idealStc now := by
  have hvalue := stcTime_of_fits (h.anchor.trans hforward) hfits
  have hall : ∀ value ∈ s.seen, value ≤ s.ins.idealStc now := fun value hmem =>
    (h.reached value hmem).trans (idealStc_mono s.ins hforward)
  rw [hvalue]
  constructor
  · rw [List.pairwise_append]
    refine ⟨h.sorted, List.pairwise_singleton _ _, fun value hmem last hlast => ?_⟩
    rw [List.mem_singleton.mp hlast]
    exact hall value hmem
  · intro value hmem
    rcases List.mem_append.mp hmem with hold | hnew
    · exact hall value hold
    · exact (List.mem_singleton.mp hnew).le

theorem running_step (h : Running s) (hg : Unwrapped s ev) (hstep : slopeStep s ev = some u) :
    Running u := by
  obtain ⟨hsorted, hreached⟩ := h.show hg.forward hg.fits
  cases ev with
  | look curTimeUs =>
    obtain rfl := Option.some.inj hstep
    exact ⟨h.anchor.trans hg.forward, hsorted, hreached, h.kept⟩
  | check r =>
    obtain rfl := Option.some.inj hstep
    have hcont := check_continuous (hg.near r rfl)
    obtain ⟨hideal, hanchor⟩ := check_ideal (h.anchor.trans hg.forward) hg.fits (hg.near r rfl)
    have hvalue : s64 (s.ins.stcTime r.curTimeUs) = s.ins.idealStc r.curTimeUs :=
      stcTime_of_fits (h.anchor.trans hg.forward) hg.fits
    have htwice : s.seen ++ [s64 (s.ins.stcTime r.curTimeUs), s64 (s.ins.stcTime r.curTimeUs)] =
        s.seen ++ [s64 (s.ins.stcTime r.curTimeUs)] ++ [s64 (s.ins.stcTime r.curTimeUs)] := by
      rw [List.append_assoc]
      rfl
    have hback : ∀ value ∈ s.seen ++ [s64 (s.ins.stcTime r.curTimeUs)],
        value ≤ s64 (s.ins.stcTime r.curTimeUs) :=
      fun value hmem => (hreached value hmem).trans_eq hvalue.symm
    refine ⟨hanchor, ?_, ?_, ?_⟩
    · dsimp only
      rw [hcont, htwice, List.pairwise_append]
      refine ⟨hsorted, List.pairwise_singleton _ _, fun value hmem last hlast => ?_⟩
      rw [List.mem_singleton.mp hlast]
      exact hback value hmem
    · dsimp only
      rw [hcont, htwice, hideal]
      intro value hmem
      rcases List.mem_append.mp hmem with hold | hnew
      · exact hreached value hold
      · exact (List.mem_singleton.mp hnew).le.trans hvalue.le
    · intro shown hmem
      rcases List.mem_append.mp hmem with hold | hnew
      · exact h.kept shown hold
      · rw [List.mem_singleton.mp hnew]
        exact hcont.symm

/-- In every run of slope checks, with any PCR and cache readings and with looks at the clock between
them, in which the time does not go back and no 64-bit value wraps: the clock shows the same before
and after each check, and what it shows never decreases. -/
theorem clock_continuous_monotone {i : ClockIns} {evs : List SlopeEvent}
    (hguard : Guarded slopeStep Unwrapped (slopeStart i) evs)
    (hrun : run slopeStep (slopeStart i) evs = some u) :
    (∀ shown ∈ u.checks, shown.1 = shown.2) ∧ u.seen.Pairwise (· ≤ ·) := by
  have hstart : Running (slopeStart i) :=
    ⟨le_refl _, List.Pairwise.nil, fun _ hmem => absurd hmem List.not_mem_nil,
      fun _ hmem => absurd hmem List.not_mem_nil⟩
  have hrunning : Running u :=
    always_last (always_of_guarded (fun _ _ _ h hg hs => running_step h hg hs) hstart hguard) hrun
  exact ⟨hrunning.kept, hrunning.sorted⟩

end

/-- An instance whose stream has been running at 104 percent of the clock. -/
def fastStream : ClockIns :=
  { refClockInfo := ⟨900000, 20000000⟩, mSpeed := ⟨100, 100⟩, mPcrSlope := ⟨100, 100⟩,
    mSourceClockType := .PCR_CLOCK, state := .MEDIASYNC_RUNNING,
    mSourceClockState := .CLOCK_PROVIDER_NORMAL, mHasVideo := 1,
    mLastCheckSlopeSystemtime := 20000000, mLastCheckSlopeDemuxPts := 10000000000,
    mCheckSlopeSytemtimeThreshold := 500000, mRcordSlope := fun _ => 104,
    mlastCheckVideocacheDuration := 50000,
    mRcordPcr := Function.update (fun _ => {}) 0 ⟨10000000000, 20000000⟩ }

/-- A second later: the PCR is 40 milliseconds ahead of the clock, and the cache has grown. -/
def aheadReadings : Readings := ⟨21000000, 993600, 0, 100000⟩

example : (fastStream.slopeVerdict aheadReadings).2 = some 104 := by decide

theorem clock_continuous_monotone_fastStream : ∃ u,
    run slopeStep (slopeStart fastStream) [.check aheadReadings, .look 22000000] = some u ∧
      (∀ shown ∈ u.checks, shown.1 = shown.2) ∧ u.seen.Pairwise (· ≤ ·) := by
  have hguard : Guarded slopeStep Unwrapped (slopeStart fastStream)
      [.check aheadReadings, .look 22000000] := by
    refine ⟨⟨by decide, ⟨by decide, by decide, by decide, by decide⟩, ?_⟩, ?_⟩
    · intro r hr
      obtain rfl := SlopeEvent.check.inj hr
      decide
    · intro t ht
      obtain rfl := Option.some.inj ht
      exact ⟨⟨by decide, ⟨by decide, by decide, by decide, by decide⟩, by exact nofun⟩,
        fun _ _ => trivial⟩
  exact ⟨_, rfl, clock_continuous_monotone hguard rfl⟩

/-- An anchor at the greatest of the numbers: a second later the clock is negative. -/
theorem clock_wraps : ¬ ∀ (i : ClockIns) (evs : List SlopeEvent) (u : SlopeRun),
    i.state = .MEDIASYNC_RUNNING → i.mSourceClockType = .PCR_CLOCK → i.mSpeed = ⟨100, 100⟩ →
    Guarded slopeStep (fun s ev => s.time ≤ ev.time) (slopeStart i) evs →
    run slopeStep (slopeStart i) evs = some u →
      (∀ shown ∈ u.checks, shown.1 = shown.2) ∧ u.seen.Pairwise (· ≤ ·) := by
  intro hall
  have hsorted := (hall { fastStream with refClockInfo := ⟨9223372036854775807, 20000000⟩ }
    [.look 20000000, .look 21000000] _ rfl rfl rfl (by decide) rfl).2
  exact absurd hsorted (by decide)

end MediaModules.MediaSync
