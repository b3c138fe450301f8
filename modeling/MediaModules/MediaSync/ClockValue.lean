import Mathlib.Algebra.Order.Ring.Abs
import Mathlib.Tactic.Ring
import MediaModules.MediaSync.UpdateInfo

/-!
# The value of the clock

`mediasync_ins_get_stc_time_implementation` and `get_stc` of the policies run the clock from its
anchor. Both take the time since the anchor as an unsigned number, and both first cut the product of
speed and slope down to whole percents.
-/
namespace MediaModules.MediaSync

/-- The factor `k`. -/
def ClockIns.rateFactor (i : ClockIns) : Int :=
  divU64 (u32 (i.mSpeed.mNumerator * i.mPcrSlope.mNumerator)) i.mSpeed.mDenominator

/-- What the clock makes of an interval, in microseconds. -/
def ClockIns.stcInterval (i : ClockIns) (interval : Int) : Int :=
  divU64 (u64 (interval * i.rateFactor)) i.mPcrSlope.mDenominator

/-- `get_stc`; `freerunFrameInfo` and `mCurrentSystemtime` are further fields of the policy. -/
def Policy.getStc (p : Policy) (freerunFrameInfo : FrameInfo) (mCurrentSystemtime : Int)
    (freerun : Bool) : Int :=
  let k := divU64 (u32 (p.mSpeed.mNumerator * p.mPcrSlope.mNumerator)) p.mSpeed.mDenominator
  let anchor := if freerun then freerunFrameInfo else p.anchorFrameInfo
  let interval := u64 (mCurrentSystemtime - anchor.frameSystemTime)
  let interval := divU64 (u64 (interval * k)) p.mPcrSlope.mDenominator
  s64 (u64 (divU64 (u64 (interval * 9)) 100 + anchor.framePts - p.mPtsAdjust - p.mStartThreshold))

section Words

variable {x y k : Int}

theorem u64_mul (x k : Int) : u64 (u64 x * k) = u64 (x * k) := by
  simp only [u64, Int.mul_emod, Int.emod_emod_of_dvd _ (dvd_refl _)]

theorem u64_of_range (h : 0 ≤ x) (hlt : x < 18446744073709551616) : u64 x = x :=
  Int.emod_eq_of_lt h hlt

theorem u32_of_range (h : 0 ≤ x) (hlt : x < 4294967296) : u32 x = x := Int.emod_eq_of_lt h hlt

theorem s64_of_range (h : -9223372036854775808 ≤ x) (hlt : x < 9223372036854775808) :
    s64 x = x := by
  unfold s64
  omega

theorem s64_u64 (x : Int) : s64 (u64 x) = s64 x := by
  unfold s64 u64
  omega

/-- Two numbers are the same `s64` if they differ by whole words. -/
theorem s64_eq_iff : s64 x = s64 y ↔ ∃ j : Int, y = x + 18446744073709551616 * j := by
  unfold s64
  constructor
  · intro h
    exact ⟨(y - x) / 18446744073709551616, by omega⟩
  · rintro ⟨j, rfl⟩
    omega

end Words

/-- The clock runs by its interval. -/
theorem stcTime_eq (i : ClockIns) (now : Int) : i.stcTime now =
    u64 (divU64 (u64 (i.stcInterval (now - i.refClockInfo.frameSystemTime) * 9)) 100
      + i.refClockInfo.framePts - i.mPtsAdjust - i.mStartThreshold) := by
  have hfactor (x : Int) : u64 (x * i.rateFactor) = u64 (u64 x * i.rateFactor) :=
    (u64_mul x i.rateFactor).symm
  rw [ClockIns.stcInterval, hfactor]
  rfl

/-- The clock of a policy is the one of an instance with its parameters. -/
theorem getStc_eq {p : Policy} {i : ClockIns} (hparms : p.parms = i.toStcParm) {fr : FrameInfo}
    {freerun : Bool} (hanchor : (if freerun then fr else p.anchorFrameInfo) = i.refClockInfo)
    (now : Int) : p.getStc fr now freerun = s64 (i.stcTime now) := by
  have hspeed : p.mSpeed = i.mSpeed := congrArg StcParm.mSpeed hparms
  have hslope : p.mPcrSlope = i.mPcrSlope := congrArg StcParm.mPcrSlope hparms
  have hadjust : p.mPtsAdjust = i.mPtsAdjust := congrArg StcParm.mPtsAdjust hparms
  have hstart : p.mStartThreshold = i.mStartThreshold := congrArg StcParm.mStartThreshold hparms
  simp only [Policy.getStc, hanchor, hspeed, hslope, hadjust, hstart]
  rfl

/-! ## Against the exact clock -/

/-- Speed and slope are `n` and `m` percent. -/
structure Percent (i : ClockIns) (n m : Int) : Prop where
  speed : i.mSpeed = ⟨n, 100⟩
  slope : i.mPcrSlope = ⟨m, 100⟩
  n_pos : 0 < n
  n_le : n ≤ 1000
  m_pos : 0 < m
  m_le : m ≤ 1000

/-- A day in microseconds. -/
def DAY : Int := 86400000000

/-- The 64-bit value is within `few` ticks of the exact one, which is given in millionths. -/
def Within (few exact value : Int) : Prop :=
  ∃ v, value = s64 v ∧ |1000000 * v - exact| ≤ few * 1000000

/-- The clock of `n` and `m` percent at `elapsed` microseconds from its anchor, in millionths of a
tick. -/
def exactStc (i : ClockIns) (n m elapsed : Int) : Int :=
  1000000 * (i.refClockInfo.framePts - i.mPtsAdjust - i.mStartThreshold) + 9 * (elapsed * (n * m))

/-- What the three divisions drop, in millionths of a tick. -/
def dropped (n m elapsed : Int) : Int :=
  9 * (elapsed * (n * m % 100)) + 900 * (elapsed * (n * m / 100) % 100)
    + 10000 * (elapsed * (n * m / 100) / 100 * 9 % 100)

section

variable {i : ClockIns} {n m elapsed few : Int}

theorem Percent.mul_bounds (h : Percent i n m) : 0 < n * m ∧ n * m ≤ 1000000 := by
  have hle : n * m ≤ 1000 * 1000 :=
    Int.mul_le_mul h.n_le h.m_le (le_of_lt h.m_pos) (by decide)
  exact ⟨Int.mul_pos h.n_pos h.m_pos, hle⟩

theorem Percent.rateFactor (h : Percent i n m) : i.rateFactor = n * m / 100 := by
  obtain ⟨hpos, hle⟩ := h.mul_bounds
  rw [ClockIns.rateFactor, h.speed, h.slope]
  show u64 (u32 (n * m)) / u32 100 = n * m / 100
  rw [u32_of_range (by omega) (by omega), u64_of_range (by omega) (by omega),
    u32_of_range (by decide) (by decide)]

/-- The clock from its anchor on, less the parameters that are added. -/
def ClockIns.advance (i : ClockIns) (elapsed : Int) : Int :=
  divU64 (u64 (i.stcInterval elapsed * 9)) 100

theorem Percent.advance (h : Percent i n m) (elapsed : Int) : i.advance elapsed =
    u64 (u64 (elapsed * (n * m / 100)) / 100 * 9) / 100 := by
  have hword (x : Int) : 0 ≤ u64 x ∧ u64 x < 18446744073709551616 := by
    unfold u64
    omega
  have hround (x : Int) : u64 (u64 x) = u64 x := u64_of_range (hword x).1 (hword x).2
  have hcent : u32 100 = 100 := u32_of_range (by decide) (by decide)
  rw [ClockIns.advance, ClockIns.stcInterval, h.rateFactor, h.slope]
  simp only [divU64, hround, hcent]

/-- As far as nothing wraps, the clock is the exact one less what is dropped. -/
theorem exact_of_forward (h : Percent i n m) (hday : |elapsed| ≤ DAY)
    (hforward : 0 ≤ elapsed ∨ n * m < 100) :
    9 * (elapsed * (n * m)) = 1000000 * i.advance elapsed + dropped n m elapsed := by
  obtain ⟨hpos, hle⟩ := h.mul_bounds
  have hday := abs_le.mp hday
  unfold DAY at hday
  have hsplit : elapsed * (n * m) = 100 * (elapsed * (n * m / 100)) + elapsed * (n * m % 100) := by
    calc elapsed * (n * m) = elapsed * (100 * (n * m / 100) + n * m % 100) := by
          rw [Int.mul_ediv_add_emod]
      _ = 100 * (elapsed * (n * m / 100)) + elapsed * (n * m % 100) := by ring
  have hrange : 0 ≤ elapsed * (n * m / 100) ∧ elapsed * (n * m / 100) ≤ 864000000000000 := by
    rcases hforward with hfwd | hsmall
    · have hk : n * m / 100 ≤ 10000 := by omega
      have hk0 : 0 ≤ n * m / 100 := by omega
      have hub : elapsed * (n * m / 100) ≤ 86400000000 * 10000 :=
        Int.mul_le_mul hday.2 hk hk0 (by decide)
      exact ⟨Int.mul_nonneg hfwd hk0, hub⟩
    · have hzero : n * m / 100 = 0 := by omega
      rw [hzero, Int.mul_zero]
      exact ⟨le_refl _, by decide⟩
  rw [h.advance, hsplit, dropped]
  obtain ⟨a, ha⟩ : ∃ a, a = elapsed * (n * m / 100) := ⟨_, rfl⟩
  rw [← ha] at hrange ⊢
  rw [u64_of_range hrange.1 (by omega), u64_of_range (by omega) (by omega)]
  omega

/-- Before the anchor the interval wraps, and the clock is thousands of years ahead. -/
theorem advance_of_backward (h : Percent i n m) (hday : |elapsed| ≤ DAY) (hback : elapsed < 0)
    (hfactor : 100 ≤ n * m) :
    16600000000000000 ≤ i.advance elapsed ∧ i.advance elapsed ≤ 16700000000000000 := by
  obtain ⟨hpos, hle⟩ := h.mul_bounds
  have hday := abs_le.mp hday
  unfold DAY at hday
  have hrange : -864000000000000 ≤ elapsed * (n * m / 100) ∧ elapsed * (n * m / 100) ≤ -1 := by
    have hk : n * m / 100 ≤ 10000 := by omega
    have hk1 : 1 ≤ n * m / 100 := by omega
    have hlow : 0 ≤ (elapsed + 86400000000) * (n * m / 100) :=
      Int.mul_nonneg (by omega) (by omega)
    have hhigh : 0 ≤ (-1 - elapsed) * (n * m / 100) := Int.mul_nonneg (by omega) (by omega)
    rw [Int.add_mul] at hlow
    rw [Int.sub_mul] at hhigh
    omega
  rw [h.advance]
  obtain ⟨a, ha⟩ : ∃ a, a = elapsed * (n * m / 100) := ⟨_, rfl⟩
  rw [← ha] at hrange ⊢
  have hwrap : u64 a = 18446744073709551616 + a := by
    unfold u64
    omega
  rw [hwrap, u64_of_range (by omega) (by omega)]
  omega

/-- A number of words besides the anchor is never within rounding of the exact clock. -/
theorem within_iff (i : ClockIns) (n m elapsed few adv : Int) :
    Within few (exactStc i n m elapsed)
        (s64 (adv + i.refClockInfo.framePts - i.mPtsAdjust - i.mStartThreshold)) ↔
      ∃ j : Int, |1000000 * (adv + 18446744073709551616 * j) - 9 * (elapsed * (n * m))| ≤
        few * 1000000 := by
  have hshift (j : Int) : 1000000 * (adv + i.refClockInfo.framePts - i.mPtsAdjust
      - i.mStartThreshold + 18446744073709551616 * j) - exactStc i n m elapsed
      = 1000000 * (adv + 18446744073709551616 * j) - 9 * (elapsed * (n * m)) := by
    rw [exactStc]
    ring
  constructor
  · rintro ⟨v, hv, hclose⟩
    obtain ⟨j, rfl⟩ := s64_eq_iff.mp hv
    exact ⟨j, hshift j ▸ hclose⟩
  · rintro ⟨j, hclose⟩
    exact ⟨_, s64_eq_iff.mpr ⟨j, rfl⟩, (hshift j).symm ▸ hclose⟩

/-- Within a day the exact clock and the one that runs stay far below the range of the word. -/
theorem advance_bounds (h : Percent i n m) (hday : |elapsed| ≤ DAY) :
    (0 ≤ i.advance elapsed ∧ i.advance elapsed < 184467440737095517) ∧
      |elapsed * (n * m)| ≤ 86400000000000000 := by
  obtain ⟨hpos, hle⟩ := h.mul_bounds
  constructor
  · rw [h.advance]
    simp only [u64]
    omega
  · have habs : |n * m| ≤ 1000000 := abs_le.mpr ⟨by omega, hle⟩
    rw [abs_mul]
    exact Int.mul_le_mul hday habs (abs_nonneg _) (by decide)

/-- The clock is right within `few` ticks just when it has not to run backwards and the divisions drop
no more. -/
theorem advance_right_iff (h : Percent i n m) (hday : |elapsed| ≤ DAY) (hfew : few ≤ 1000) :
    (∃ j : Int, |1000000 * (i.advance elapsed + 18446744073709551616 * j)
        - 9 * (elapsed * (n * m))| ≤ few * 1000000) ↔
      (0 ≤ elapsed ∨ n * m < 100) ∧ |dropped n m elapsed| ≤ few * 1000000 := by
  obtain ⟨⟨hlow, hhigh⟩, hexact⟩ := advance_bounds h hday
  have hexact := abs_le.mp hexact
  by_cases hforward : 0 ≤ elapsed ∨ n * m < 100
  · have hsum := exact_of_forward h hday hforward
    constructor
    · rintro ⟨j, hclose⟩
      have hclose := abs_le.mp hclose
      have hj : j = 0 := by omega
      subst hj
      exact ⟨hforward, abs_le.mpr (by omega)⟩
    · rintro ⟨-, hdrop⟩
      have hdrop := abs_le.mp hdrop
      exact ⟨0, abs_le.mpr (by omega)⟩
  · constructor
    · rintro ⟨j, hclose⟩
      have hclose := abs_le.mp hclose
      obtain ⟨hlow', hhigh'⟩ := advance_of_backward h hday (by omega) (by omega)
      rcases lt_trichotomy j 0 with hj | rfl | hj
      · exact absurd hclose.1 (by omega)
      · exact absurd hclose.2 (by omega)
      · exact absurd hclose.2 (by omega)
    · exact fun hright => absurd hright.1 hforward

end

/-- Within a day of its anchor, before it or after it, the clock of the instance and of its policy is
right within a few ticks just when the time does not lie before the anchor, unless speed and slope
come to nothing at all, and the divisions drop no more than that. -/
theorem clock_right_iff {i : ClockIns} {p : Policy} {fr : FrameInfo} {freerun : Bool}
    {n m now few : Int} (h : Percent i n m) (hparms : p.parms = i.toStcParm)
    (hanchor : (if freerun then fr else p.anchorFrameInfo) = i.refClockInfo)
    (hday : |now - i.refClockInfo.frameSystemTime| ≤ DAY) (hfew : few ≤ 1000) :
    let elapsed := now - i.refClockInfo.frameSystemTime
    Within few (exactStc i n m elapsed) (p.getStc fr now freerun) ∧
        Within few (exactStc i n m elapsed) (s64 (i.stcTime now)) ↔
      (0 ≤ elapsed ∨ n * m < 100) ∧ |dropped n m elapsed| ≤ few * 1000000 := by
  dsimp only
  have hvalue : s64 (i.stcTime now) = s64 (i.advance (now - i.refClockInfo.frameSystemTime)
      + i.refClockInfo.framePts - i.mPtsAdjust - i.mStartThreshold) := by
    rw [stcTime_eq, s64_u64]
    rfl
  rw [getStc_eq hparms hanchor, and_self, hvalue, within_iff]
  exact advance_right_iff h hday hfew

/-- An instance at full speed with an anchor of tick 900000 at twenty seconds. -/
def fullSpeed : ClockIns :=
  { refClockInfo := ⟨900000, 20000000⟩, mSpeed := ⟨100, 100⟩, mPcrSlope := ⟨100, 100⟩ }

theorem fullSpeed_percent : Percent fullSpeed 100 100 where
  speed := rfl
  slope := rfl
  n_pos := by decide
  n_le := by decide
  m_pos := by decide
  m_le := by decide

/-- The policy that has read its parameters. -/
def fullSpeedPolicy : Policy := ({} : Policy).updateInfo { fullSpeed with mStcParmUpdateCount := 1 }

/-- A second after the anchor. -/
theorem clock_right_iff_fullSpeed :
    Within 3 (exactStc fullSpeed 100 100 (21000000 - 20000000))
        (fullSpeedPolicy.getStc {} 21000000 false) ∧
      Within 3 (exactStc fullSpeed 100 100 (21000000 - 20000000))
        (s64 (fullSpeed.stcTime 21000000)) :=
  (clock_right_iff fullSpeed_percent rfl rfl (by decide) (by decide)).mpr (by decide)

/-- The resuming policy has put the anchor a second after the time it cached. -/
theorem anchor_ahead : ¬ ∀ (i : ClockIns) (p : Policy) (fr : FrameInfo) (freerun : Bool)
    (n m now : Int), Percent i n m → p.parms = i.toStcParm →
    (if freerun then fr else p.anchorFrameInfo) = i.refClockInfo →
    |now - i.refClockInfo.frameSystemTime| ≤ DAY →
      Within 1000 (exactStc i n m (now - i.refClockInfo.frameSystemTime)) (p.getStc fr now freerun) ∧
        Within 1000 (exactStc i n m (now - i.refClockInfo.frameSystemTime)) (s64 (i.stcTime now)) := by
  intro hall
  have hwithin := (hall fullSpeed fullSpeedPolicy {} false 100 100 19000000 fullSpeed_percent rfl
    rfl (by decide)).2
  have hvalue : s64 (fullSpeed.stcTime 19000000) = s64 (fullSpeed.advance (-1000000)
      + fullSpeed.refClockInfo.framePts - fullSpeed.mPtsAdjust - fullSpeed.mStartThreshold) := by
    rw [stcTime_eq, s64_u64]
    rfl
  rw [hvalue, show (19000000 : Int) - fullSpeed.refClockInfo.frameSystemTime = -1000000 by rfl,
    within_iff, advance_right_iff fullSpeed_percent (by decide) (by decide)] at hwithin
  exact absurd hwithin (by decide)

end MediaModules.MediaSync
