import Mathlib.Tactic.Linarith
import Mathlib.Tactic.LinearCombination
import MediaModules.MediaSync.ClockValue

/-!
# The samples behind a slope

A slope check compares the PCR and the time with the sample of the last check and with the oldest one
of a ring. The division it uses takes 32 bits of its divisor, and its result is kept in 32 bits. The
ring holds zeros until a first check has filled it; an anchor that is set from outside makes the next
check a measuring one before that.
-/
namespace MediaModules.MediaSync

open Lib.Run

namespace ClockIns

variable (i : ClockIns) (r : Readings)

/-- The check is made, and takes its readings. -/
def TakesReadings : Prop :=
  i.noSlopeCheck = false ∧ (i.mLastCheckSlopeSystemtime = 0 ∨
    s64 (r.curTimeUs - i.mLastCheckSlopeSystemtime) ≥ i.mCheckSlopeSytemtimeThreshold)

instance : Decidable (i.TakesReadings r) := inferInstanceAs (Decidable (_ ∧ _))

/-- The check measures the two slopes. -/
def Measures : Prop :=
  i.noSlopeCheck = false ∧ i.mLastCheckSlopeSystemtime ≠ 0 ∧
    s64 (r.curTimeUs - i.mLastCheckSlopeSystemtime) ≥ i.mCheckSlopeSytemtimeThreshold

/-- The sample of the last check. -/
def lastSample : FrameInfo := ⟨i.mLastCheckSlopeDemuxPts, i.mLastCheckSlopeSystemtime⟩

/-- The sample that the check takes for the oldest. -/
def oldestSample : FrameInfo :=
  i.mRcordPcr (if (i.mRcordPcr i.nextPcrCount).framePts ≠ 0 then i.nextPcrCount else 0)

end ClockIns

/-- The sample of a check. -/
def Readings.sample (r : Readings) : FrameInfo := ⟨r.pcrNs, r.curTimeUs⟩

/-- What an operation records for the next measurement. A sample of time zero is none. -/
def recordedBy (i : ClockIns) : ClockOp → List FrameInfo
  | .setRefclockinfo info =>
    if i.refClockInfo ≠ info ∧ i.mSourceClockType = .PCR_CLOCK ∧ info.frameSystemTime ≠ 0 then
      [⟨s64 (divU64 (s64 (info.framePts * 100000)) 9), info.frameSystemTime⟩]
    else []
  | .checkPcrSlope r => if i.TakesReadings r then [r.sample] else []
  | .getUpdateInfo r => if i.TakesReadings r then [r.sample] else []
  | _ => []

/-- An instance, the time of the last check, and the samples that were recorded. -/
structure SampleRun where
  ins : ClockIns
  time : Int := 0
  recorded : List FrameInfo := []

/-- The time after an operation. -/
def ClockOp.timeAfter (time : Int) : ClockOp → Int
  | .checkPcrSlope r => r.curTimeUs
  | .getUpdateInfo r => r.curTimeUs
  | _ => time

def sampleStep (s : SampleRun) (op : ClockOp) : Option SampleRun :=
  some
    { ins := s.ins.operate op
      time := op.timeAfter s.time
      recorded := s.recorded ++ recordedBy s.ins op }

/-- The readings of a check: the system time is positive and does not go back. -/
def InTime (time : Int) (r : Readings) : Prop :=
  time ≤ r.curTimeUs ∧ 0 < r.curTimeUs ∧ r.curTimeUs < 9223372036854775808

/-- The system time does not go back, and the times that are handed in are 64-bit numbers. -/
def Timely (s : SampleRun) : ClockOp → Prop
  | .setRefclockinfo info =>
    -9223372036854775808 ≤ info.frameSystemTime ∧ info.frameSystemTime < 9223372036854775808
  | .checkPcrSlope r => InTime s.time r
  | .getUpdateInfo r => InTime s.time r
  | _ => True

/-! ## One slope -/

/-- The slope is the ratio of the two advances in hundredths, rounded to nearest, or zero if the PCR
did not advance; neither the divisor nor the quotient loses anything in 32 bits. -/
structure TrueRatio (sample : FrameInfo) (r : Readings) (slope : Int) : Prop where
  still : r.pcrNs ≤ sample.framePts → slope = 0
  nearest : sample.framePts < r.pcrNs →
    |r.pcrNs - sample.framePts - 10 * (r.curTimeUs - sample.frameSystemTime) * slope| ≤
      5 * (r.curTimeUs - sample.frameSystemTime)
  divisor : sample.framePts < r.pcrNs →
    u32 (s64 (r.curTimeUs - sample.frameSystemTime)) ≠ 0 ∧
      u32 (s64 (r.curTimeUs - sample.frameSystemTime)) = r.curTimeUs - sample.frameSystemTime
  quotient : sample.framePts < r.pcrNs →
    u32 ((r.pcrNs - sample.framePts) / (r.curTimeUs - sample.frameSystemTime) + 5) =
      (r.pcrNs - sample.framePts) / (r.curTimeUs - sample.frameSystemTime) + 5

/-- If the PCR has advanced since the sample, then some time has passed, less than 2^32 microseconds,
and the PCR was less than 2^32 thousandths as fast as the time. -/
def Measurable (sample : FrameInfo) (r : Readings) : Prop :=
  sample.framePts < r.pcrNs →
    0 < r.curTimeUs - sample.frameSystemTime ∧
      r.curTimeUs - sample.frameSystemTime < 4294967296 ∧
      (r.pcrNs - sample.framePts) / (r.curTimeUs - sample.frameSystemTime) + 5 < 4294967296

/-- What a sample can hold. -/
structure SampleRange (x : FrameInfo) : Prop where
  pts_low : 0 ≤ x.framePts
  pts_high : x.framePts < 2305843009213693952
  time_low : -9223372036854775808 ≤ x.frameSystemTime
  time_high : x.frameSystemTime < 9223372036854775808

section

variable {i : ClockIns} {r : Readings} {x : FrameInfo} {pts : Int}

theorem ns_range (pts : Int) :
    0 ≤ s64 (divU64 (s64 (pts * 100000)) 9) ∧
      s64 (divU64 (s64 (pts * 100000)) 9) < 2305843009213693952 := by
  have hnine : u32 9 = 9 := u32_of_range (by decide) (by decide)
  have hword : 0 ≤ u64 (s64 (pts * 100000)) ∧ u64 (s64 (pts * 100000)) < 18446744073709551616 :=
    ⟨Int.emod_nonneg _ (by decide), Int.emod_lt_of_pos _ (by decide)⟩
  rw [divU64, hnine]
  generalize u64 (s64 (pts * 100000)) = y at hword
  rw [s64_of_range (by omega) (by omega)]
  omega

/-- With no loss in 32 bits the division rounds to the nearest hundredth. -/
theorem slopeOf_nearest {advance elapsed : Int} (hadvance : 0 < advance)
    (hword : advance < 9223372036854775808) (helapsed : 0 < elapsed) (hlong : elapsed < 4294967296)
    (hquot : advance / elapsed + 5 < 4294967296) :
    |advance - 10 * elapsed * slopeOf advance elapsed| ≤ 5 * elapsed := by
  have hnonneg : 0 ≤ advance / elapsed := Int.ediv_nonneg hadvance.le helapsed.le
  have hten : u32 10 = 10 := u32_of_range (by decide) (by decide)
  have hslope : slopeOf advance elapsed = (advance / elapsed + 5) / 10 := by
    rw [slopeOf, if_pos hadvance, divU64, divU64, u64_of_range hadvance.le (by omega),
      u32_of_range helapsed.le hlong, u32_of_range hnonneg (by omega),
      u32_of_range (by omega) hquot, u64_of_range (by omega) (by omega), hten,
      u32_of_range (by omega) (by omega)]
  have hdiv := Int.mul_ediv_add_emod advance elapsed
  have hrem := Int.emod_nonneg advance helapsed.ne'
  have hrem' := Int.emod_lt_of_pos advance helapsed
  have hdigit : (advance / elapsed + 5) % 10 = advance / elapsed + 5 - 10 * slopeOf advance elapsed := by
    omega
  have hgap : advance - 10 * elapsed * slopeOf advance elapsed =
      elapsed * ((advance / elapsed + 5) % 10 - 5) + advance % elapsed := by
    rw [hdigit]
    linear_combination -hdiv
  have hlow : elapsed * (-5) ≤ elapsed * ((advance / elapsed + 5) % 10 - 5) :=
    Int.mul_le_mul_of_nonneg_left (by omega) helapsed.le
  have hhigh : elapsed * ((advance / elapsed + 5) % 10 - 5) ≤ elapsed * 4 :=
    Int.mul_le_mul_of_nonneg_left (by omega) helapsed.le
  rw [hgap]
  exact abs_le.mpr ⟨by linarith, by linarith⟩

theorem trueRatio_iff (hsample : SampleRange x) (helapsed : 0 ≤ r.curTimeUs - x.frameSystemTime)
    (hlong : r.curTimeUs - x.frameSystemTime < 9223372036854775808) :
    TrueRatio x r (slopeOf (s64 (r.pcrNs - x.framePts)) (s64 (r.curTimeUs - x.frameSystemTime))) ↔
      Measurable x r := by
  have hpcr : 0 ≤ r.pcrNs ∧ r.pcrNs < 2305843009213693952 := ns_range r.pcr
  have hlow := hsample.pts_low
  have hhigh := hsample.pts_high
  have htime : s64 (r.curTimeUs - x.frameSystemTime) = r.curTimeUs - x.frameSystemTime :=
    s64_of_range (by omega) hlong
  rw [s64_of_range (x := r.pcrNs - x.framePts) (by omega) (by omega), htime]
  constructor
  · intro h hadvance
    obtain ⟨hzero, hwhole⟩ := h.divisor hadvance
    have hquot := h.quotient hadvance
    rw [htime] at hzero hwhole
    rw [hwhole] at hzero
    have hdivisor : u32 (r.curTimeUs - x.frameSystemTime) < 4294967296 :=
      Int.emod_lt_of_pos _ (by decide)
    have hquotient : u32 ((r.pcrNs - x.framePts) / (r.curTimeUs - x.frameSystemTime) + 5) <
        4294967296 := Int.emod_lt_of_pos _ (by decide)
    rw [hwhole] at hdivisor
    rw [hquot] at hquotient
    exact ⟨by omega, hdivisor, hquotient⟩
  · intro h
    refine ⟨fun hstill => if_neg (by omega), fun hadvance => ?_, fun hadvance => ?_,
      fun hadvance => ?_⟩
    · obtain ⟨hpos, hword, hquot⟩ := h hadvance
      exact slopeOf_nearest (by omega) (by omega) hpos hword hquot
    · obtain ⟨hpos, hword, -⟩ := h hadvance
      rw [htime, u32_of_range hpos.le hword]
      exact ⟨hpos.ne', rfl⟩
    · obtain ⟨hpos, -, hquot⟩ := h hadvance
      have hnonneg : 0 ≤ (r.pcrNs - x.framePts) / (r.curTimeUs - x.frameSystemTime) :=
        Int.ediv_nonneg (by omega) hpos.le
      exact u32_of_range (by omega) hquot

/-! ## What a check leaves -/

/-- The history after a check that takes its readings. -/
structure Taken (i i' : ClockIns) (r : Readings) : Prop where
  last : i'.lastSample = r.sample
  threshold : 0 < i'.mCheckSlopeSytemtimeThreshold
  ring : ∀ k, i'.mRcordPcr k = i.mRcordPcr k ∨ i'.mRcordPcr k = ⟨0, 0⟩ ∨ i'.mRcordPcr k = r.sample

theorem update_ring (ring : Nat → FrameInfo) (n k : Nat) (x : FrameInfo) :
    Function.update ring n x k = ring k ∨ Function.update ring n x k = x := by
  by_cases h : k = n
  · rw [h, Function.update_self]
    exact Or.inr rfl
  · exact Or.inl (Function.update_of_ne h _ _)

theorem recordPcr_ring (i : ClockIns) (r : Readings) (k : Nat) :
    (i.recordPcr r).mRcordPcr k = i.mRcordPcr k ∨ (i.recordPcr r).mRcordPcr k = r.sample := by
  simp only [ClockIns.recordPcr]
  split
  · exact update_ring _ _ _ _
  · exact Or.inl rfl

theorem judgeSlope_taken (i : ClockIns) (r : Readings) (curPcr : Int) :
    Taken i (i.judgeSlope r curPcr).1 r := by
  have hring := recordPcr_ring i r
  have hrecord (slope overall : Int) : Taken i ((i.recordPcr r).recordSlope r slope overall) r := by
    simp only [ClockIns.recordSlope]
    split <;> refine ⟨rfl, ?_, fun k => (hring k).imp_right Or.inr⟩ <;>
      (dsimp only; split <;> decide)
  simp only [ClockIns.judgeSlope]
  split
  · refine ⟨rfl, ?_, fun k => Or.inr ?_⟩
    · simp only [ClockIns.pcrDiscontinue, ClockIns.checkInterval]
      split <;> decide
    · exact update_ring (fun _ => ⟨0, 0⟩) 0 k r.sample
  · split
    · exact hrecord _ _
    · split
      · exact hrecord _ _
      · obtain ⟨hlast, hthreshold, hring⟩ := hrecord (i.slope r) (i.slopeOverall r)
        exact ⟨hlast, hthreshold, hring⟩

theorem followPcr_taken {i' : ClockIns} (h : Taken i i' r) (curPcr slope : Int) :
    Taken i (i'.followPcr r curPcr slope) r := by
  obtain ⟨hlast, hthreshold, hring⟩ := h
  simp only [ClockIns.followPcr, ClockIns.setPcrslope]
  split <;> exact ⟨hlast, hthreshold, hring⟩

/-- A check that takes its readings makes them its last sample. -/
theorem checkPcrSlope_taken (h : i.TakesReadings r) : Taken i (i.checkPcrSlope r) r := by
  have hverdict : Taken i (i.slopeVerdict r).1 r := by
    simp only [ClockIns.slopeVerdict, h.1, Bool.false_eq_true, if_false]
    by_cases hstart : i.mLastCheckSlopeSystemtime = 0
    · rw [if_pos hstart]
      exact ⟨rfl, by show (0 : Int) < 3000000; decide,
        fun k => (update_ring i.mRcordPcr _ k r.sample).imp_right Or.inr⟩
    · rw [if_neg hstart, if_pos (h.2.resolve_left hstart)]
      exact judgeSlope_taken i r _
  simp only [ClockIns.checkPcrSlope]
  cases hfound : i.slopeVerdict r with
  | mk recorded found =>
    rw [hfound] at hverdict
    cases found with
    | none => exact hverdict
    | some slope => exact followPcr_taken hverdict _ slope

/-- Any other check leaves the instance alone. -/
theorem checkPcrSlope_idle (h : ¬ i.TakesReadings r) : i.checkPcrSlope r = i := by
  have hverdict : i.slopeVerdict r = (i, none) := by
    simp only [ClockIns.slopeVerdict]
    by_cases hcheck : i.noSlopeCheck = true
    · rw [if_pos hcheck]
    · have hcheck' : i.noSlopeCheck = false := by simpa using hcheck
      rw [if_neg hcheck, if_neg fun hstart => h ⟨hcheck', Or.inl hstart⟩,
        if_neg fun hlong => h ⟨hcheck', Or.inr hlong⟩]
  rw [ClockIns.checkPcrSlope, hverdict]

theorem keeps_ite {c : Prop} [Decidable c] {a b : ClockIns}
    (ha : a.toSlopeHistory = i.toSlopeHistory) (hb : b.toSlopeHistory = i.toSlopeHistory) :
    (if c then a else b).toSlopeHistory = i.toSlopeHistory := by
  split
  · exact ha
  · exact hb

/-- Only the checks and a new anchor of the PCR clock touch the history, and these record. -/
theorem operate_history {op : ClockOp} (hcheck : ∀ r, op ≠ .checkPcrSlope r)
    (hupdate : ∀ r, op ≠ .getUpdateInfo r) (hanchor : ∀ info, op ≠ .setRefclockinfo info) :
    (i.operate op).toSlopeHistory = i.toSlopeHistory := by
  cases op with
  | setRefclockinfo info => exact absurd rfl (hanchor info)
  | checkPcrSlope r => exact absurd rfl (hcheck r)
  | getUpdateInfo r => exact absurd rfl (hupdate r)
  | setMediatimeSpeed fSpeed => exact keeps_ite rfl rfl
  | setPcrslope pcrslope => exact keeps_ite rfl rfl
  | setStartthreshold threshold => exact keeps_ite rfl rfl
  | setPtsadjust adjustPts => exact keeps_ite rfl rfl
  | setPaused sPaused => exact keeps_ite rfl (keeps_ite rfl rfl)
  | _ => rfl

end

/-! ## Runs -/

/-- What the history holds was recorded. -/
structure Sampled (s : SampleRun) : Prop where
  last : s.ins.mLastCheckSlopeSystemtime ≠ 0 →
    0 < s.ins.mCheckSlopeSytemtimeThreshold ∧ s.ins.lastSample ∈ s.recorded
  ring : ∀ k, s.ins.mRcordPcr k = ⟨0, 0⟩ ∨ s.ins.mRcordPcr k ∈ s.recorded ∧
    0 < (s.ins.mRcordPcr k).frameSystemTime ∧ (s.ins.mRcordPcr k).frameSystemTime ≤ s.time
  range : ∀ x ∈ s.recorded, SampleRange x ∧ x.frameSystemTime ≠ 0

/-- An instance as it is allocated. -/
structure NewInstance (i : ClockIns) : Prop where
  last : i.mLastCheckSlopeSystemtime = 0
  ring : ∀ k, i.mRcordPcr k = ⟨0, 0⟩

section

variable {s u : SampleRun} {op : ClockOp} {r : Readings}

theorem NewInstance.sampled {i : ClockIns} (h : NewInstance i) : Sampled { ins := i } where
  last := fun hlast => absurd h.last hlast
  ring := fun k => Or.inl (h.ring k)
  range := fun _ hmem => absurd hmem List.not_mem_nil

theorem sample_range (htime : InTime s.time r) : SampleRange r.sample where
  pts_low := (ns_range r.pcr).1
  pts_high := (ns_range r.pcr).2
  time_low := by
    show -9223372036854775808 ≤ r.curTimeUs
    have := htime.2.1
    omega
  time_high := htime.2.2

/-- A check keeps the history one of recorded samples. -/
theorem Sampled.check (h : Sampled s) (htime : InTime s.time r) :
    Sampled
      { ins := s.ins.checkPcrSlope r
        time := r.curTimeUs
        recorded := s.recorded ++ if s.ins.TakesReadings r then [r.sample] else [] } := by
  by_cases htakes : s.ins.TakesReadings r
  · obtain ⟨hlast, hthreshold, hring⟩ := checkPcrSlope_taken htakes
    simp only [if_pos htakes]
    have hmem : r.sample ∈ s.recorded ++ [r.sample] :=
      List.mem_append_right _ (List.mem_singleton_self _)
    refine ⟨fun _ => ⟨hthreshold, hlast ▸ hmem⟩, fun k => ?_, fun x hx => ?_⟩
    · dsimp only
      rcases hring k with hold | hzero | hnew
      · rw [hold]
        refine (h.ring k).imp_right fun hk => ⟨List.mem_append_left _ hk.1, hk.2.1, ?_⟩
        exact hk.2.2.trans htime.1
      · exact Or.inl hzero
      · rw [hnew]
        exact Or.inr ⟨hmem, htime.2.1, le_refl _⟩
    · rcases List.mem_append.mp hx with hold | hnew
      · exact h.range x hold
      · rw [List.mem_singleton.mp hnew]
        exact ⟨sample_range htime, htime.2.1.ne'⟩
  · rw [checkPcrSlope_idle htakes, if_neg htakes, List.append_nil]
    exact ⟨h.last, fun k => (h.ring k).imp_right fun hk => ⟨hk.1, hk.2.1, hk.2.2.trans htime.1⟩,
      h.range⟩

/-- What leaves the history alone keeps it. -/
theorem Sampled.same (h : Sampled s) {i : ClockIns} (hsame : i.toSlopeHistory = s.ins.toSlopeHistory) :
    Sampled { ins := i, time := s.time, recorded := s.recorded ++ [] } := by
  have hlast : i.mLastCheckSlopeSystemtime = s.ins.mLastCheckSlopeSystemtime :=
    congrArg SlopeHistory.mLastCheckSlopeSystemtime hsame
  have hpts : i.mLastCheckSlopeDemuxPts = s.ins.mLastCheckSlopeDemuxPts :=
    congrArg SlopeHistory.mLastCheckSlopeDemuxPts hsame
  have hthreshold : i.mCheckSlopeSytemtimeThreshold = s.ins.mCheckSlopeSytemtimeThreshold :=
    congrArg SlopeHistory.mCheckSlopeSytemtimeThreshold hsame
  have hring : i.mRcordPcr = s.ins.mRcordPcr := congrArg SlopeHistory.mRcordPcr hsame
  rw [List.append_nil]
  constructor
  · simp only [ClockIns.lastSample, hlast, hpts, hthreshold]
    exact h.last
  · rw [hring]
    exact h.ring
  · exact h.range

theorem Sampled.anchor (h : Sampled s) {info : FrameInfo}
    (hlow : -9223372036854775808 ≤ info.frameSystemTime)
    (hhigh : info.frameSystemTime < 9223372036854775808) :
    Sampled
      { ins := s.ins.setRefclockinfo info
        time := s.time
        recorded := s.recorded ++ recordedBy s.ins (.setRefclockinfo info) } := by
  by_cases hinfo : s.ins.refClockInfo = info
  · have hnone : recordedBy s.ins (.setRefclockinfo info) = [] := if_neg fun hne => hne.1 hinfo
    rw [hnone, ClockIns.setRefclockinfo, if_pos hinfo]
    exact h.same rfl
  by_cases htype : s.ins.mSourceClockType = .PCR_CLOCK
  · have hset : s.ins.setRefclockinfo info =
        { { s.ins with refClockInfo := info }.countUpdate with
          mLastCheckSlopeSystemtime := info.frameSystemTime
          mCheckSlopeSytemtimeThreshold := s.ins.checkInterval
          mLastCheckSlopeDemuxPts := s64 (divU64 (s64 (info.framePts * 100000)) 9) } := by
      rw [ClockIns.setRefclockinfo, if_neg hinfo]
      exact if_pos htype
    have hinterval : 0 < s.ins.checkInterval := by
      simp only [ClockIns.checkInterval]
      split <;> decide
    rw [hset]
    by_cases hzero : info.frameSystemTime = 0
    · have hnone : recordedBy s.ins (.setRefclockinfo info) = [] := if_neg fun hne => hne.2.2 hzero
      rw [hnone, List.append_nil]
      exact ⟨fun hlast => absurd hzero hlast, h.ring, h.range⟩
    · have hone : recordedBy s.ins (.setRefclockinfo info) =
          [⟨s64 (divU64 (s64 (info.framePts * 100000)) 9), info.frameSystemTime⟩] :=
        if_pos ⟨hinfo, htype, hzero⟩
      rw [hone]
      refine ⟨fun _ => ⟨hinterval, List.mem_append_right _ (List.mem_singleton_self _)⟩,
        fun k => (h.ring k).imp_right fun hk => ⟨List.mem_append_left _ hk.1, hk.2⟩, fun x hx => ?_⟩
      rcases List.mem_append.mp hx with hold | hnew
      · exact h.range x hold
      · rw [List.mem_singleton.mp hnew]
        exact ⟨⟨(ns_range _).1, (ns_range _).2, hlow, hhigh⟩, hzero⟩
  · have hnone : recordedBy s.ins (.setRefclockinfo info) = [] := if_neg fun hne => htype hne.2.1
    have hset : s.ins.setRefclockinfo info = { s.ins with refClockInfo := info }.countUpdate := by
      rw [ClockIns.setRefclockinfo, if_neg hinfo]
      exact if_neg htype
    rw [hnone, hset]
    exact h.same rfl

theorem sampled_step (h : Sampled s) (hg : Timely s op) (hstep : sampleStep s op = some u) :
    Sampled u := by
  obtain rfl := Option.some.inj hstep
  cases op with
  | checkPcrSlope r => exact h.check hg
  | getUpdateInfo r => exact h.check hg
  | setRefclockinfo info => exact h.anchor hg.1 hg.2
  | _ => exact h.same (operate_history (by exact nofun) (by exact nofun) (by exact nofun))

/-- In every run the history holds what was recorded. -/
theorem sampled_run {i : ClockIns} {ops : List ClockOp} (hnew : NewInstance i)
    (hguard : Guarded sampleStep Timely { ins := i } ops)
    (hrun : run sampleStep { ins := i } ops = some u) : Sampled u :=
  always_last (always_of_guarded (fun _ _ _ h hg hs => sampled_step h hg hs) hnew.sampled hguard)
    hrun

/-- After every sequence of operations on a new instance, with times that do not go back: a check that
measures compares with samples that were recorded and finds the two true ratios, without a division by
zero or a loss in 32 bits, just when the ring entry it takes is not still zero and, for each of the two
samples, the PCR has not advanced or time has passed since, less than 2^32 microseconds, and the PCR was
less than 2^32 thousandths as fast. -/
theorem slopes_true_iff {i : ClockIns} {ops : List ClockOp} (hnew : NewInstance i)
    (hguard : Guarded sampleStep Timely { ins := i } ops)
    (hrun : run sampleStep { ins := i } ops = some u) (hmeasures : u.ins.Measures r)
    (htime : InTime u.time r) :
    (u.ins.lastSample ∈ u.recorded ∧ TrueRatio u.ins.lastSample r (u.ins.slope r)) ∧
        (u.ins.oldestSample ∈ u.recorded ∧ TrueRatio u.ins.oldestSample r (u.ins.slopeOverall r)) ↔
      Measurable u.ins.lastSample r ∧ u.ins.oldestSample ≠ ⟨0, 0⟩ ∧
        Measurable u.ins.oldestSample r := by
  have hsampled := sampled_run hnew hguard hrun
  obtain ⟨hthreshold, hlast⟩ := hsampled.last hmeasures.2.1
  obtain ⟨hpos, hhigh⟩ := htime.2
  have hlastRange := (hsampled.range _ hlast).1
  have hlong : 0 ≤ r.curTimeUs - u.ins.lastSample.frameSystemTime ∧
      r.curTimeUs - u.ins.lastSample.frameSystemTime < 9223372036854775808 := by
    have hlow : -9223372036854775808 ≤ u.ins.mLastCheckSlopeSystemtime := hlastRange.time_low
    have hhigh' : u.ins.mLastCheckSlopeSystemtime < 9223372036854775808 := hlastRange.time_high
    have hwait := hmeasures.2.2
    show 0 ≤ r.curTimeUs - u.ins.mLastCheckSlopeSystemtime ∧
      r.curTimeUs - u.ins.mLastCheckSlopeSystemtime < 9223372036854775808
    unfold s64 at hwait
    omega
  have hslope : TrueRatio u.ins.lastSample r (u.ins.slope r) ↔ Measurable u.ins.lastSample r :=
    trueRatio_iff hlastRange hlong.1 hlong.2
  have hoverall (hmem : u.ins.oldestSample ∈ u.recorded)
      (hage : 0 < u.ins.oldestSample.frameSystemTime ∧ u.ins.oldestSample.frameSystemTime ≤ u.time) :
      TrueRatio u.ins.oldestSample r (u.ins.slopeOverall r) ↔
        Measurable u.ins.oldestSample r := by
    have hforward := htime.1
    exact trueRatio_iff (hsampled.range _ hmem).1 (by omega) (by omega)
  have hzero : (⟨0, 0⟩ : FrameInfo) ∉ u.recorded := fun hmem => (hsampled.range _ hmem).2 rfl
  have hring : u.ins.oldestSample = ⟨0, 0⟩ ∨ u.ins.oldestSample ∈ u.recorded ∧
      0 < u.ins.oldestSample.frameSystemTime ∧ u.ins.oldestSample.frameSystemTime ≤ u.time :=
    hsampled.ring _
  constructor
  · rintro ⟨⟨-, hfirst⟩, hmem, hsecond⟩
    have hne : u.ins.oldestSample ≠ ⟨0, 0⟩ := fun heq => hzero (heq ▸ hmem)
    exact ⟨hslope.mp hfirst, hne,
      (hoverall hmem (hring.resolve_left hne).2).mp hsecond⟩
  · rintro ⟨hfirst, hne, hsecond⟩
    obtain ⟨hmem, hage⟩ := hring.resolve_left hne
    exact ⟨⟨hlast, hslope.mpr hfirst⟩, hmem, (hoverall hmem hage).mpr hsecond⟩

end

/-- An instance that runs by the PCR, before its first check. -/
def allocated : ClockIns :=
  { mSpeed := ⟨100, 100⟩, mPcrSlope := ⟨100, 100⟩, mSourceClockType := .PCR_CLOCK,
    state := .MEDIASYNC_RUNNING, mSourceClockState := .CLOCK_PROVIDER_NORMAL }

theorem allocated_new : NewInstance allocated where
  last := rfl
  ring := fun _ => rfl

/-- Three seconds, in which the PCR runs at the time. -/
def threeSeconds (seconds : Int) : Readings := ⟨seconds * 1000000, seconds * 90000, 0, 0⟩

theorem slopes_true_iff_threeSeconds : ∃ u,
    run sampleStep { ins := allocated } [.checkPcrSlope (threeSeconds 1)] = some u ∧
      u.ins.oldestSample ∈ u.recorded ∧
      TrueRatio u.ins.oldestSample (threeSeconds 4) (u.ins.slopeOverall (threeSeconds 4)) := by
  have hguard : Guarded sampleStep Timely { ins := allocated } [.checkPcrSlope (threeSeconds 1)] :=
    ⟨by show InTime 0 (threeSeconds 1); exact ⟨by decide, by decide, by decide⟩,
      fun _ _ => trivial⟩
  refine ⟨_, rfl, ((slopes_true_iff allocated_new hguard rfl ?_ ?_).mpr ?_).2⟩
  · exact ⟨by decide, by decide, by decide⟩
  · exact ⟨by decide, by decide, by decide⟩
  · exact ⟨fun _ => ⟨by decide, by decide, by decide⟩, by decide,
      fun _ => ⟨by decide, by decide, by decide⟩⟩

/-- An anchor is set before the first check: this one measures against a sample that nobody took. -/
theorem zeros_measured : ¬ ∀ (i : ClockIns) (ops : List ClockOp) (u : SampleRun) (r : Readings),
    NewInstance i → Guarded sampleStep Timely { ins := i } ops →
    run sampleStep { ins := i } ops = some u → u.ins.Measures r → InTime u.time r →
      (u.ins.lastSample ∈ u.recorded ∧ TrueRatio u.ins.lastSample r (u.ins.slope r)) ∧
        (u.ins.oldestSample ∈ u.recorded ∧
          TrueRatio u.ins.oldestSample r (u.ins.slopeOverall r)) := by
  intro hall
  have hguard : Guarded sampleStep Timely { ins := allocated }
      [.setRefclockinfo ⟨90000, 1000000⟩] :=
    ⟨⟨by decide, by decide⟩, fun _ _ => trivial⟩
  have hmem := (hall allocated _ _ (threeSeconds 4) allocated_new hguard rfl
    ⟨by decide, by decide, by decide⟩ ⟨by decide, by decide, by decide⟩).2.1
  exact absurd hmem (by decide)

end MediaModules.MediaSync
