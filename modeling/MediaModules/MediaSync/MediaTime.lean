import Mathlib.Tactic.Linarith
import Mathlib.Tactic.LinearCombination
import MediaModules.MediaSync.ClockValue
import MediaModules.MediaSync.StcSample

/-!
# The media time

`mediasync_ins_update_mediatime` expects the media time to run with the speed and the slope, as the
clock does, and moves its anchor when it does not. It divides by the denominator of the speed where
the clock divides by the one of the slope. `mediasync_ins_set_paused` moves the anchor to the time of
the call.
-/
namespace MediaModules.MediaSync

open Lib.Run

/-- The time since the anchor, as the branches of the update take it. -/
def elapsed (i : MediatimeIns) (lSystemTime stc systemtime : Int) : Int :=
  if lSystemTime = 0 then
    if i.mSyncMode = MEDIA_SYNC_PCRMASTER ∧ stc ≠ 0 then stc - i.mLastStc
    else systemtime - i.mLastRealTime
  else lSystemTime - i.mLastRealTime

/-- The four branches are one: only the sync mode PCR cannot be forced, and a system time that is
handed in takes the place of the one that is read. -/
theorem updateMediatime_eq (i : MediatimeIns) (lMediaTime lSystemTime : Int) (forceUpdate : Bool)
    (stc systemtime : Int) :
    updateMediatime lMediaTime lSystemTime forceUpdate stc systemtime i =
      { (if movesMediatime i (forceUpdate && i.mSyncMode ≠ MEDIA_SYNC_PCRMASTER)
            (scaled i (elapsed i lSystemTime stc systemtime)) (s64 (lMediaTime - i.mLastMediaTime))
          then
            moveMediatime lMediaTime (if lSystemTime = 0 then systemtime else lSystemTime)
              (if lSystemTime = 0 then stc else stc + lSystemTime - systemtime) i
          else i) with mTrackMediaTime := lMediaTime } := by
  by_cases hmode : i.mSyncMode = MEDIA_SYNC_PCRMASTER <;> by_cases hsystem : lSystemTime = 0 <;>
    by_cases hstc : stc = 0 <;> simp [updateMediatime, elapsed, hmode, hsystem, hstc]

/-! ## The rate -/

/-- `n / d` is the speed and `m / e` the slope, all of them unsigned 32-bit numbers. -/
structure Fractions (n d m e : Int) : Prop where
  n_range : 0 ≤ n ∧ n < 4294967296
  d_range : 0 ≤ d ∧ d < 4294967296
  m_range : 0 ≤ m ∧ m < 4294967296
  e_range : 0 ≤ e ∧ e < 4294967296

/-- The value is what the rate makes of the elapsed time, up to less than a microsecond. -/
def AtRate (n d m e elapsed value : Int) : Prop :=
  |elapsed * (n * m) - d * e * value| < d * e

/-- The product of speed and slope as whole parts of the slope's numerator. -/
def wholeRate (n d m : Int) : Int := u32 (n * m) / d

/-- What the divisions drop and the exchange of the denominators adds over the elapsed time is less
than a microsecond, for the clock (`rounded`) and for the update (`swapped`). -/
structure KeepsRate (n d m e elapsed : Int) : Prop where
  speed_div : d ≠ 0
  slope_div : e ≠ 0
  forward : 0 ≤ elapsed ∨ u32 (n * m) < d
  product : elapsed * wholeRate n d m < 18446744073709551616
  quotient : elapsed * wholeRate n d m / d < 9223372036854775808
  rounded : |elapsed * (n * m - d * wholeRate n d m) + d * (elapsed * wholeRate n d m % e)| < d * e
  swapped : |elapsed * (n * m - e * wholeRate n d m) + e * (elapsed * wholeRate n d m % d)| < d * e

section

variable {n d m e elapsed : Int}

/-- The whole parts are not more than the product. -/
theorem Fractions.wholeRate_bounds (h : Fractions n d m e) (hd : d ≠ 0) :
    0 ≤ wholeRate n d m ∧ wholeRate n d m * d ≤ n * m ∧ (wholeRate n d m = 0 ↔ u32 (n * m) < d) := by
  have hd : 0 < d := by
    have := h.d_range
    omega
  have hprod : 0 ≤ n * m := Int.mul_nonneg h.n_range.1 h.m_range.1
  have hword : 0 ≤ u32 (n * m) ∧ u32 (n * m) ≤ n * m := by
    unfold u32
    omega
  refine ⟨Int.ediv_nonneg hword.1 hd.le, (Int.ediv_mul_le _ hd.ne').trans hword.2, ?_, ?_⟩
  · intro hzero
    have hlt := Int.lt_ediv_add_one_mul_self (u32 (n * m)) hd
    have hzero : u32 (n * m) / d = 0 := hzero
    rw [hzero] at hlt
    omega
  · exact fun hlt => Int.ediv_eq_zero_of_lt hword.1 hlt

/-- The clock has the rate just when its interval does not wrap and the divisions drop less than a
microsecond. -/
theorem clock_atRate_iff (h : Fractions n d m e) (hd : d ≠ 0) (he : e ≠ 0) :
    AtRate n d m e elapsed (u64 (elapsed * wholeRate n d m) / e) ↔
      (0 ≤ elapsed ∨ wholeRate n d m = 0) ∧
        elapsed * wholeRate n d m < 18446744073709551616 ∧
        |elapsed * (n * m - d * wholeRate n d m) + d * (elapsed * wholeRate n d m % e)| < d * e := by
  obtain ⟨hw, hle, -⟩ := h.wholeRate_bounds hd
  have hdpos : 0 < d := lt_of_le_of_ne h.d_range.1 (Ne.symm hd)
  have hepos : 0 < e := lt_of_le_of_ne h.e_range.1 (Ne.symm he)
  have heword := h.e_range.2
  have hde : 0 < d * e := Int.mul_pos hdpos hepos
  generalize wholeRate n d m = w at *
  by_cases hwrap : (0 ≤ elapsed ∨ w = 0) ∧ elapsed * w < 18446744073709551616
  · have hnonneg : 0 ≤ elapsed * w := by
      rcases hwrap.1 with hforward | hzero
      · exact Int.mul_nonneg hforward hw
      · rw [hzero, Int.mul_zero]
    have hsplit : elapsed * (n * m) - d * e * (elapsed * w / e) =
        elapsed * (n * m - d * w) + d * (elapsed * w % e) := by
      have hdiv := Int.mul_ediv_add_emod (elapsed * w) e
      linear_combination (-d) * hdiv
    rw [u64_of_range hnonneg hwrap.2, AtRate, hsplit]
    exact ⟨fun hnear => ⟨hwrap.1, hwrap.2, hnear⟩, fun hnear => hnear.2.2⟩
  · refine ⟨fun hnear => absurd hnear ?_, fun hright => absurd ⟨hright.1, hright.2.1⟩ hwrap⟩
    intro hnear
    have hnear := abs_lt.mp hnear
    have hlow := Int.mul_ediv_self_le (x := u64 (elapsed * w)) he
    have hhigh := Int.lt_mul_ediv_self_add (x := u64 (elapsed * w)) hepos
    have hassoc : d * e * (u64 (elapsed * w) / e) = d * (e * (u64 (elapsed * w) / e)) :=
      Int.mul_assoc _ _ _
    rw [hassoc] at hnear
    generalize e * (u64 (elapsed * w) / e) = v at *
    rcases Int.lt_or_le elapsed 0 with hback | hforward
    · have hw1 : 0 < w := by
        refine lt_of_le_of_ne hw fun hzero => hwrap ⟨Or.inr hzero.symm, ?_⟩
        rw [← hzero, Int.mul_zero]
        decide
      have hx : elapsed * w < 0 := Int.mul_neg_of_neg_of_pos hback hw1
      have hrate : elapsed * (n * m) ≤ d * (elapsed * w) := by
        have := mul_le_mul_of_nonpos_left hle hback.le
        linarith
      have hgap : d * v < d * (e + elapsed * w) := by
        rw [Int.mul_add]
        linarith [hnear.1]
      have hgap := Int.lt_of_mul_lt_mul_left hgap hdpos.le
      unfold u64 at hhigh
      omega
    · have hx : 18446744073709551616 ≤ elapsed * w := by omega
      have hrate : d * (elapsed * w) ≤ elapsed * (n * m) := by
        have := Int.mul_le_mul_of_nonneg_left hle hforward
        linarith
      have hgap : d * (elapsed * w) < d * (e + v) := by
        rw [Int.mul_add]
        linarith [hnear.2]
      have hgap := Int.lt_of_mul_lt_mul_left hgap hdpos.le
      unfold u64 at hlow
      omega

/-- The update has the rate, where the product does not wrap, just when its quotient does not either
and the exchange of the denominators adds less than a microsecond. -/
theorem update_atRate_iff (h : Fractions n d m e) (hd : d ≠ 0) (he : e ≠ 0)
    (hforward : 0 ≤ elapsed ∨ wholeRate n d m = 0)
    (hproduct : elapsed * wholeRate n d m < 18446744073709551616) :
    AtRate n d m e elapsed (s64 (u64 (elapsed * wholeRate n d m) / d)) ↔
      elapsed * wholeRate n d m / d < 9223372036854775808 ∧
        |elapsed * (n * m - e * wholeRate n d m) + e * (elapsed * wholeRate n d m % d)| < d * e := by
  obtain ⟨hw, hle, -⟩ := h.wholeRate_bounds hd
  have hdpos : 0 < d := lt_of_le_of_ne h.d_range.1 (Ne.symm hd)
  have hepos : 0 < e := lt_of_le_of_ne h.e_range.1 (Ne.symm he)
  have heword := h.e_range.2
  generalize wholeRate n d m = w at *
  have hnonneg : 0 ≤ elapsed * w := by
    rcases hforward with hforward | hzero
    · exact Int.mul_nonneg hforward hw
    · rw [hzero, Int.mul_zero]
  have hquot : 0 ≤ elapsed * w / d := Int.ediv_nonneg hnonneg hdpos.le
  rw [u64_of_range hnonneg hproduct]
  by_cases hsigned : elapsed * w / d < 9223372036854775808
  · have hsplit : elapsed * (n * m) - d * e * (elapsed * w / d) =
        elapsed * (n * m - e * w) + e * (elapsed * w % d) := by
      have hdiv := Int.mul_ediv_add_emod (elapsed * w) d
      linear_combination (-e) * hdiv
    rw [s64_of_range (by omega) hsigned, AtRate, hsplit]
    exact ⟨fun hnear => ⟨hsigned, hnear⟩, fun hnear => hnear.2⟩
  · refine ⟨fun hnear => absurd hnear ?_, fun hright => absurd hright.1 hsigned⟩
    intro hnear
    have hnear := abs_lt.mp hnear
    have hle' : elapsed * w / d ≤ elapsed * w := Int.ediv_le_self _ hnonneg
    have hneg : s64 (elapsed * w / d) ≤ 0 := by
      unfold s64
      omega
    have hforward : 0 ≤ elapsed := by
      rcases hforward with hforward | hzero
      · exact hforward
      · rw [hzero, Int.mul_zero, Int.zero_ediv] at hsigned
        exact absurd (by decide) hsigned
    have hrate : d * (elapsed * w) ≤ elapsed * (n * m) := by
      have := Int.mul_le_mul_of_nonneg_left hle hforward
      linarith
    have hbig : d * e ≤ d * (elapsed * w) := Int.mul_le_mul_of_nonneg_left (by omega) hdpos.le
    have hsign : d * e * s64 (elapsed * w / d) ≤ 0 :=
      Int.mul_nonpos_of_nonneg_of_nonpos (Int.mul_pos hdpos hepos).le hneg
    linarith [hnear.2]

end

/-- The fields of one instance, its speed `n / d` and slope `m / e`. -/
structure RunsWith (c : ClockIns) (i : MediatimeIns) (n d m e : Int) : Prop where
  fractions : Fractions n d m e
  speed : c.mSpeed = ⟨n, d⟩
  slope : c.mPcrSlope = ⟨m, e⟩
  numerator : i.mSpeedNumerator = n
  denominator : i.mSpeedDenominator = d
  slopeNumerator : i.mPcrSlopeNumerator = m

/-- A media time that has advanced at exactly the rate moves no anchor. -/
def Steady (i : MediatimeIns) (n d m e lSystemTime stc systemtime : Int) : Prop :=
  ∀ lMediaTime, (lMediaTime - i.mLastMediaTime) * (d * e) =
      elapsed i lSystemTime stc systemtime * (n * m) →
    i.mSyncModeChange ≠ 1 →
    updateMediatime lMediaTime lSystemTime false stc systemtime i =
      { i with mTrackMediaTime := lMediaTime }

/-- Nothing is divided by zero, update and clock have the rate of the fractions, and an advance at
that rate moves no anchor. -/
structure RateRight (c : ClockIns) (i : MediatimeIns) (n d m e lSystemTime stc systemtime : Int) :
    Prop where
  speed_div : d ≠ 0
  slope_div : e ≠ 0
  update : AtRate n d m e (elapsed i lSystemTime stc systemtime)
    (scaled i (elapsed i lSystemTime stc systemtime))
  clock : AtRate n d m e (elapsed i lSystemTime stc systemtime)
    (c.stcInterval (elapsed i lSystemTime stc systemtime))
  steady : Steady i n d m e lSystemTime stc systemtime

section

variable {c : ClockIns} {i : MediatimeIns} {n d m e lSystemTime stc systemtime : Int}

theorem Fractions.divU64_eq (h : Fractions n d m e) :
    divU64 (u32 (n * m)) d = wholeRate n d m := by
  have hword : 0 ≤ u32 (n * m) ∧ u32 (n * m) < 4294967296 := by
    unfold u32
    omega
  rw [divU64, wholeRate, u64_of_range hword.1 (by omega),
    u32_of_range h.d_range.1 h.d_range.2]

theorem RunsWith.scaled_eq (h : RunsWith c i n d m e) (interval : Int) :
    scaled i interval = s64 (u64 (interval * wholeRate n d m) / d) := by
  simp only [scaled]
  rw [h.numerator, h.denominator, h.slopeNumerator, h.fractions.divU64_eq, divU64,
    u32_of_range h.fractions.d_range.1 h.fractions.d_range.2]

theorem RunsWith.stcInterval_eq (h : RunsWith c i n d m e) (interval : Int) :
    c.stcInterval interval = u64 (interval * wholeRate n d m) / e := by
  have hfactor : c.rateFactor = wholeRate n d m := by
    rw [ClockIns.rateFactor, h.speed, h.slope]
    exact h.fractions.divU64_eq
  have hslope : c.mPcrSlope.mDenominator = e := congrArg Speed.mDenominator h.slope
  rw [ClockIns.stcInterval, hfactor, hslope, divU64,
    u32_of_range h.fractions.e_range.1 h.fractions.e_range.2]
  congr 1
  exact Int.emod_emod_of_dvd _ (dvd_refl _)

/-- Where the update has the rate, a media time that advances at it finds no difference. -/
theorem RunsWith.steady (h : RunsWith c i n d m e) (hd : d ≠ 0) (he : e ≠ 0)
    (hrate : AtRate n d m e (elapsed i lSystemTime stc systemtime)
      (scaled i (elapsed i lSystemTime stc systemtime)))
    (hnonneg : 0 ≤ scaled i (elapsed i lSystemTime stc systemtime)) :
    Steady i n d m e lSystemTime stc systemtime := by
  intro lMediaTime hexact hmode
  have hde : 0 < d * e := Int.mul_pos (lt_of_le_of_ne h.fractions.d_range.1 (Ne.symm hd))
    (lt_of_le_of_ne h.fractions.e_range.1 (Ne.symm he))
  have hequal : lMediaTime - i.mLastMediaTime = scaled i (elapsed i lSystemTime stc systemtime) := by
    have hnear := abs_lt.mp hrate
    rw [← hexact] at hnear
    generalize scaled i (elapsed i lSystemTime stc systemtime) = v at *
    have hlow : d * e * (-1) < d * e * (lMediaTime - i.mLastMediaTime - v) := by linarith [hnear.1]
    have hhigh : d * e * (lMediaTime - i.mLastMediaTime - v) < d * e * 1 := by linarith [hnear.2]
    have hlow := Int.lt_of_mul_lt_mul_left hlow hde.le
    have hhigh := Int.lt_of_mul_lt_mul_left hhigh hde.le
    omega
  have hsigned : s64 (scaled i (elapsed i lSystemTime stc systemtime)) =
      scaled i (elapsed i lSystemTime stc systemtime) := by
    rw [h.scaled_eq]
    unfold s64
    omega
  have hkept : ¬ movesMediatime i (false && i.mSyncMode ≠ MEDIA_SYNC_PCRMASTER)
      (scaled i (elapsed i lSystemTime stc systemtime)) (s64 (lMediaTime - i.mLastMediaTime)) := by
    rw [hequal, hsigned, movesMediatime, Int.sub_self]
    have hthreshold : 0 ≤ u64 i.mUpdateTimeThreshold := Int.emod_nonneg _ (by decide)
    rintro (hchange | hforced | hback | ⟨-, hfar⟩)
    · exact hmode hchange
    · exact absurd hforced (by rw [Bool.false_and]; decide)
    · exact absurd hback (Int.not_lt.mpr hnonneg)
    · exact absurd hfar (Int.not_lt.mpr hthreshold)
  rw [updateMediatime_eq, if_neg hkept]

/-- For every accepted speed and slope and every call: the update divides by no zero and expects the
rate of the clock, which is the one of the fractions, just when the denominators are not zero, the
time does not go back, the product fits its word, and the divisions and the exchange of the
denominators make up less than a microsecond. -/
theorem rateRight_iff (h : RunsWith c i n d m e) (lSystemTime stc systemtime : Int) :
    RateRight c i n d m e lSystemTime stc systemtime ↔
      KeepsRate n d m e (elapsed i lSystemTime stc systemtime) := by
  constructor
  · rintro ⟨hd, he, hupdate, hclock, -⟩
    rw [h.stcInterval_eq, clock_atRate_iff h.fractions hd he] at hclock
    obtain ⟨hforward, hproduct, hrounded⟩ := hclock
    rw [h.scaled_eq, update_atRate_iff h.fractions hd he hforward hproduct] at hupdate
    obtain ⟨-, -, hzero⟩ := h.fractions.wholeRate_bounds hd
    exact ⟨hd, he, hforward.imp_right hzero.mp, hproduct, hupdate.1, hrounded, hupdate.2⟩
  · rintro ⟨hd, he, hforward, hproduct, hquotient, hrounded, hswapped⟩
    obtain ⟨hw, -, hzero⟩ := h.fractions.wholeRate_bounds hd
    have hforward := hforward.imp_right hzero.mpr
    have hclock := (clock_atRate_iff h.fractions hd he).mpr ⟨hforward, hproduct, hrounded⟩
    have hupdate := (update_atRate_iff h.fractions hd he hforward hproduct).mpr
      ⟨hquotient, hswapped⟩
    rw [← h.stcInterval_eq] at hclock
    rw [← h.scaled_eq] at hupdate
    refine ⟨hd, he, hupdate, hclock, h.steady hd he hupdate ?_⟩
    have hnonneg : 0 ≤ elapsed i lSystemTime stc systemtime * wholeRate n d m := by
      rcases hforward with hforward | hzero
      · exact Int.mul_nonneg hforward hw
      · rw [hzero, Int.mul_zero]
    have hquot := Int.ediv_nonneg hnonneg h.fractions.d_range.1
    rw [h.scaled_eq, u64_of_range hnonneg hproduct, s64_of_range (by omega) hquotient]
    exact hquot

end

/-- With one denominator that divides the product, only the range of the words is left to ask for. -/
theorem keepsRate_of_dvd {n d m elapsed : Int} (h : Fractions n d m d) (hd : d ≠ 0)
    (hdvd : d ∣ n * m) (hword : n * m < 4294967296) (hforward : 0 ≤ elapsed)
    (hrange : elapsed * (n * m / d) < 9223372036854775808) : KeepsRate n d m d elapsed := by
  have hdpos : 0 < d := lt_of_le_of_ne h.d_range.1 (Ne.symm hd)
  have hwhole : wholeRate n d m = n * m / d := by
    rw [wholeRate, u32_of_range (Int.mul_nonneg h.n_range.1 h.m_range.1) hword]
  have hexact : d * (n * m / d) = n * m := Int.mul_ediv_cancel' hdvd
  have hnonneg : 0 ≤ elapsed * (n * m / d) := Int.mul_nonneg hforward
    (Int.ediv_nonneg (Int.mul_nonneg h.n_range.1 h.m_range.1) hdpos.le)
  have hnear : |elapsed * (n * m - d * (n * m / d)) + d * (elapsed * (n * m / d) % d)| < d * d := by
    have hrem := Int.emod_nonneg (elapsed * (n * m / d)) hd
    rw [hexact, Int.sub_self, Int.mul_zero, Int.zero_add, abs_of_nonneg (Int.mul_nonneg hdpos.le hrem)]
    exact Int.mul_lt_mul_of_pos_left (Int.emod_lt_of_pos _ hdpos) hdpos
  rw [← hwhole] at hnear hrange hnonneg
  have hquot := Int.ediv_le_self d hnonneg
  exact ⟨hd, hd, Or.inl hforward, by omega, by omega, hnear, hnear⟩

/-- An instance that the audio leads, with its anchor at zero. -/
def audioMaster : MediatimeIns :=
  { mSyncMode := MEDIA_SYNC_AMASTER, mSpeedNumerator := 100, mSpeedDenominator := 100,
    mPcrSlopeNumerator := 1000, mUpdateTimeThreshold := 50000 }

/-- The same instance for the clock, with a slope of 1000 / `e`. -/
def audioMasterClock (e : Int) : ClockIns := { mSpeed := ⟨100, 100⟩, mPcrSlope := ⟨1000, e⟩ }

theorem audioMaster_runsWith {e : Int} (he : 0 ≤ e ∧ e < 4294967296) :
    RunsWith (audioMasterClock e) audioMaster 100 100 1000 e where
  fractions := ⟨by decide, by decide, by decide, he⟩
  speed := rfl
  slope := rfl
  numerator := rfl
  denominator := rfl
  slopeNumerator := rfl

/-- At ten times the speed, in hundredths, the update is right after a second. -/
theorem rateRight_iff_hundredths :
    RateRight (audioMasterClock 100) audioMaster 100 100 1000 100 1000000 0 0 :=
  (rateRight_iff (audioMaster_runsWith (by decide)) 1000000 0 0).mpr
    (keepsRate_of_dvd (audioMaster_runsWith (by decide)).fractions (by decide) (by decide)
      (by decide) (by decide) (by decide))

/-- A slope of 1000 / 1000: the update expects ten times the media time, and moves the anchor when the
media time has run exactly with the clock. -/
theorem denominators_exchanged : ¬ ∀ (c : ClockIns) (i : MediatimeIns)
    (n d m e lSystemTime stc systemtime : Int), RunsWith c i n d m e →
      RateRight c i n d m e lSystemTime stc systemtime := by
  intro hall
  have hsteady := (hall (audioMasterClock 1000) audioMaster 100 100 1000 1000 1000000 0 0
    (audioMaster_runsWith (by decide))).steady
  have hmoved := hsteady 1000000 (by decide) (by decide)
  exact absurd (congrArg MediatimeIns.mLastRealTime hmoved) (by decide)

/-! ## Pausing -/

/-- A call of `mediasync_ins_set_paused` with its readings. -/
structure PauseCall where
  sPaused : Int
  r : StcReading
  systemtime : Int
deriving DecidableEq, Repr

/-- An instance with what it depends on, the time of the last call, and how long the instance was not
paused since its anchor. -/
structure PauseRun where
  view : ClockView
  time : Int
  unpaused : Int := 0

def PauseRun.ins (s : PauseRun) : MediatimeIns := s.view.1

/-- The instance at its anchor. -/
def pauseStart (view : ClockView) : PauseRun := { view := view, time := view.1.mLastRealTime }

/-- One call. -/
def pauseStep (s : PauseRun) (call : PauseCall) : Option PauseRun :=
  (viewStep s.view (.setPaused call.sPaused call.r call.systemtime)).map fun view =>
    { view := view
      time := call.systemtime
      unpaused := s.unpaused + if s.ins.mPaused = 0 then call.systemtime - s.time else 0 }

/-- The real time is that of the last call, and the media time is that of the anchor with the time
since then that was not paused. -/
def MediaRight (m : Int) (s : PauseRun) : Prop :=
  s.ins.mLastRealTime = s.time ∧ s.ins.mLastMediaTime = s64 (m + s.unpaused)

/-- The call pauses an instance that plays, or no time has passed since the call before. -/
def PausesOrNow (s : PauseRun) (call : PauseCall) : Prop :=
  s.ins.mPaused = 0 ∧ changesPaused call.sPaused s.ins ∨ call.systemtime = s.time

instance (s : PauseRun) (call : PauseCall) : Decidable (PausesOrNow s call) :=
  inferInstanceAs (Decidable (_ ∨ _))

/-- The audio leads, and the times are right up to a time that is an `s64`. -/
structure AnchorKept (m : Int) (s : PauseRun) : Prop where
  mode : s.ins.mSyncMode = MEDIA_SYNC_AMASTER
  right : MediaRight m s
  word : s64 s.time = s.time

section

variable {m : Int} {s t : PauseRun} {call : PauseCall}

/-- What a call does when the audio leads. -/
theorem pauseStep_eq (hmode : s.ins.mSyncMode = MEDIA_SYNC_AMASTER) (call : PauseCall) :
    ∃ v, pauseStep s call = some v ∧ v.time = call.systemtime ∧
      v.unpaused = s.unpaused + (if s.ins.mPaused = 0 then call.systemtime - s.time else 0) ∧
      v.ins = if changesPaused call.sPaused s.ins then
        setPaused call.sPaused 0 call.systemtime s.ins else s.ins := by
  have hstc : getStcTimeUs s.ins call.r s.view.2.2 = some (0, s.view.2.2) := by
    refine if_pos ?_
    rw [hmode]
    decide
  by_cases hchange : changesPaused call.sPaused s.ins
  · have hread : (SampleOp.setPaused call.sPaused call.r call.systemtime).reading s.view.1 =
        some call.r := if_pos hchange
    have hview : viewStep s.view (.setPaused call.sPaused call.r call.systemtime) = some
        (setPaused call.sPaused 0 call.systemtime s.ins, s.view.2.1 ++ [0], s.view.2.2) := by
      simp only [viewStep, hread]
      show (getStcTimeUs s.ins call.r s.view.2.2).map _ = _
      rw [hstc]
      exact congrArg (fun i => some (i, s.view.2.1 ++ [0], s.view.2.2)) (if_pos hchange)
    rw [pauseStep, hview, if_pos hchange]
    exact ⟨_, rfl, rfl, rfl, rfl⟩
  · have hread : (SampleOp.setPaused call.sPaused call.r call.systemtime).reading s.view.1 = none :=
      if_neg hchange
    have hview : viewStep s.view (.setPaused call.sPaused call.r call.systemtime) =
        some (s.ins, s.view.2.1, s.view.2.2) := by
      simp only [viewStep, hread]
      exact congrArg (fun i => some (i, s.view.2.1, s.view.2.2)) (if_neg hchange)
    rw [pauseStep, hview, if_neg hchange]
    exact ⟨_, rfl, rfl, rfl, rfl⟩

/-- A call that changes the state adds the time since the last one, paused or not. -/
theorem AnchorKept.changed (h : AnchorKept m s) (hchange : changesPaused call.sPaused s.ins)
    (ht : pauseStep s call = some t) : t.ins.mSyncMode = MEDIA_SYNC_AMASTER ∧
      t.ins.mLastRealTime = t.time ∧
      t.ins.mLastMediaTime = s64 (m + s.unpaused + (call.systemtime - s.time)) := by
  obtain ⟨v, hv, htime, -, hins⟩ := pauseStep_eq h.mode call
  obtain rfl := Option.some.inj (hv.symm.trans ht)
  obtain ⟨hreal, hmedia⟩ := h.right
  have hlast : (setPaused call.sPaused 0 call.systemtime s.ins).mLastMediaTime =
      s64 (s.ins.mLastMediaTime + (call.systemtime - s.ins.mLastRealTime)) := if_pos h.mode
  rw [hins, if_pos hchange, htime, hlast, hmedia, hreal]
  refine ⟨h.mode, rfl, ?_⟩
  unfold s64
  omega

theorem AnchorKept.step (h : AnchorKept m s) (hword : s64 call.systemtime = call.systemtime)
    (hok : PausesOrNow s call) (ht : pauseStep s call = some t) : AnchorKept m t := by
  obtain ⟨v, hv, htime, hunpaused, hins⟩ := pauseStep_eq h.mode call
  obtain rfl := Option.some.inj (hv.symm.trans ht)
  have hword' : s64 v.time = v.time := htime ▸ hword
  by_cases hchange : changesPaused call.sPaused s.ins
  · obtain ⟨hmode, hreal, hmedia⟩ := h.changed hchange hv
    refine ⟨hmode, ⟨hreal, ?_⟩, hword'⟩
    rw [hmedia, hunpaused, Int.add_assoc]
    split
    · rfl
    · next hpaused =>
      have hnow := hok.resolve_left fun hplays => hpaused hplays.1
      rw [hnow, Int.sub_self]
  · have hnow := hok.resolve_left fun hplays => hchange hplays.2
    rw [if_neg hchange] at hins
    rw [hnow, Int.sub_self, ite_self, Int.add_zero] at hunpaused
    obtain ⟨hreal, hmedia⟩ := h.right
    refine ⟨hins ▸ h.mode, ⟨?_, ?_⟩, hword'⟩
    · rw [hins, hreal, htime, hnow]
    · rw [hins, hmedia, hunpaused]

/-- A later call breaks the real time when it repeats the state, and else, as it resumes, the media
time. -/
theorem AnchorKept.break (h : AnchorKept m s) (hword : s64 call.systemtime = call.systemtime)
    (hno : ¬ PausesOrNow s call) (ht : pauseStep s call = some t) : ¬ MediaRight m t := by
  obtain ⟨v, hv, htime, hunpaused, hins⟩ := pauseStep_eq h.mode call
  obtain rfl := Option.some.inj (hv.symm.trans ht)
  rintro ⟨hreal, hmedia⟩
  obtain ⟨hplays, hlater⟩ := not_or.mp hno
  by_cases hchange : changesPaused call.sPaused s.ins
  · rw [(h.changed hchange hv).2.2, hunpaused, if_neg fun hplay => hplays ⟨hplay, hchange⟩] at hmedia
    have hword' := h.word
    unfold s64 at hmedia hword hword'
    omega
  · rw [hins, if_neg hchange, h.right.1, htime] at hreal
    exact hlater hreal.symm

/-- When the audio leads, for every sequence of calls: after each of them the media time is that of the
anchor with the time since then that was not paused, and the real time that of the call, just when each
call pauses an instance that plays or comes at the time of the call before. -/
theorem media_time_right_iff {view : ClockView} (hmode : view.1.mSyncMode = MEDIA_SYNC_AMASTER)
    (hmedia : s64 view.1.mLastMediaTime = view.1.mLastMediaTime)
    (hreal : s64 view.1.mLastRealTime = view.1.mLastRealTime) {calls : List PauseCall}
    (hwords : ∀ call ∈ calls, s64 call.systemtime = call.systemtime) :
    Always pauseStep (MediaRight view.1.mLastMediaTime) (pauseStart view) calls ↔
      Guarded pauseStep PausesOrNow (pauseStart view) calls := by
  have hstart : AnchorKept view.1.mLastMediaTime (pauseStart view) := by
    refine ⟨hmode, ⟨rfl, ?_⟩, hreal⟩
    rw [pauseStart, Int.add_zero, hmedia]
    rfl
  have htotal : ∀ (s : PauseRun) (call : PauseCall), s.ins.mSyncMode = MEDIA_SYNC_AMASTER →
      ∃ v, pauseStep s call = some v ∧ v.ins.mSyncMode = MEDIA_SYNC_AMASTER := by
    intro s call hs
    obtain ⟨v, hv, -, -, hins⟩ := pauseStep_eq hs call
    refine ⟨v, hv, ?_⟩
    rw [hins]
    split
    · exact hs
    · exact hs
  obtain ⟨t, ht, -⟩ := run_total htotal (s := pauseStart view) hmode calls
  exact always_iff_guarded (fun _ h => h.right) (fun _ _ _ h hword hok hs => h.step hword hok hs)
    (fun _ _ _ h hword hno hs => h.break hword hno hs) hstart hwords ht

end

/-- The instance at its anchor has not taken a sample. -/
def audioView : ClockView := (audioMaster, [], {})

/-- A call at a time; the clock is not read when the audio leads. -/
def pauseAt (sPaused systemtime : Int) : PauseCall := ⟨sPaused, ⟨systemtime, none⟩, systemtime⟩

/-- Paused, resumed at once, and paused again later. -/
theorem media_time_right_resumed : Always pauseStep (MediaRight 0) (pauseStart audioView)
    [pauseAt 1 10, pauseAt 0 10, pauseAt 1 35] := by
  have hwords : ∀ call ∈ [pauseAt 1 10, pauseAt 0 10, pauseAt 1 35],
      s64 call.systemtime = call.systemtime := by decide
  exact (@media_time_right_iff audioView rfl rfl rfl _ hwords).mpr (by decide)

/-- The call that resumes takes a pause of fifteen microseconds for media time. And the time of a call
that pauses a second time is kept nowhere. -/
theorem paused_twice :
    (∃ t, run pauseStep (pauseStart audioView) [pauseAt 1 10, pauseAt 0 25] = some t ∧
      t.ins.mLastMediaTime = 25 ∧ t.unpaused = 10) ∧
    ¬ Always pauseStep (MediaRight 0) (pauseStart audioView) [pauseAt 1 10, pauseAt 0 25] ∧
    ¬ Always pauseStep (MediaRight 0) (pauseStart audioView) [pauseAt 1 10, pauseAt 1 20] := by
  refine ⟨⟨_, rfl, rfl, rfl⟩, fun hall => ?_, fun hall => ?_⟩
  · exact absurd (always_last hall rfl).2 (by decide)
  · exact absurd (always_last hall rfl).1 (by decide)

end MediaModules.MediaSync
