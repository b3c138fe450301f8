import Mathlib.Logic.Function.Basic
import MediaModules.Lib.Projection
import MediaModules.MediaSync.Types

/-!
# The clock sample behind the system time clock

`get_stc_time_us` compares the PCR of the demultiplexer of an instance with the sample it took at
the last call. The sample is kept in two variables of the file, so the last call may have been for
another instance.
-/
namespace MediaModules.MediaSync

open Lib.Run

def MEDIA_SYNC_AMASTER : Int := 1
def MEDIA_SYNC_PCRMASTER : Int := 2

/-- `last_pcr` and `last_system`. -/
structure ClockSample where
  lastPcr : Int := 0
  lastSystem : Int := 0
deriving DecidableEq, Repr

/-- The fields of an instance that the media time is kept with. -/
structure MediatimeIns where
  mSyncMode : Int := 0
  mDemuxId : Int := 0
  mPaused : Int := 0
  mSpeedNumerator : Int := 0
  mSpeedDenominator : Int := 0
  mPcrSlopeNumerator : Int := 0
  mSyncModeChange : Int := 0
  mLastMediaTime : Int := 0
  mLastRealTime : Int := 0
  mLastStc : Int := 0
  mTrackMediaTime : Int := 0
  mUpdateTimeThreshold : Int := 0
  mStcParmUpdateCount : Int := 0
deriving DecidableEq, Repr

/-- The monotonic time, and the answer of `demux_get_pcr` unless it fails. -/
structure StcReading where
  timeus : Int
  pcr : Option Int
deriving DecidableEq, Repr

/-- `get_llabs`. -/
def getLlabs (value : Int) : Int := if value > 0 then value else u64 (-value)

/-- A PCR in microseconds. -/
def pcrUs (pcr : Int) : Int := divU64 (u64 (pcr * 100)) 9

/-- The branch of `get_stc_time_us` with an earlier sample. A division by zero is `none`. -/
def stcFromSample (timeus pcr : Int) (sample : ClockSample) : Option (Int × ClockSample) :=
  let pcrDiff := s64 (pcrUs pcr - sample.lastPcr)
  let timeDiff := s64 (timeus - sample.lastSystem)
  if timeDiff ≠ 0 ∧ u32 (s32 timeDiff) = 0 then none
  else if timeDiff ≠ 0 ∧ divU64 (getLlabs pcrDiff) (s32 timeDiff) > 100 then
    some (timeus, ⟨pcrUs pcr, timeus⟩)
  else
    let stc := if timeDiff ≠ 0 then u64 (sample.lastSystem + pcrDiff) else timeus
    some (stc, ⟨pcrUs pcr, stc⟩)

/-- `get_stc_time_us`: the time and the sample that is kept. -/
def getStcTimeUs (i : MediatimeIns) (r : StcReading) (sample : ClockSample) :
    Option (Int × ClockSample) :=
  if i.mSyncMode ≠ MEDIA_SYNC_PCRMASTER then some (0, sample)
  else if i.mDemuxId < 0 then some (r.timeus, sample)
  else
    match r.pcr with
    | none => some (r.timeus, sample)
    | some pcr =>
      if sample.lastPcr = 0 then some (r.timeus, ⟨pcrUs pcr, r.timeus⟩)
      else stcFromSample r.timeus pcr sample

/-! ## Operations -/

/-- The time that the speed and the slope make of an interval. -/
def scaled (i : MediatimeIns) (interval : Int) : Int :=
  let k := divU64 (u32 (i.mSpeedNumerator * i.mPcrSlopeNumerator)) i.mSpeedDenominator
  s64 (divU64 (interval * k) i.mSpeedDenominator)

/-- The media time is moved: it jumps back, it runs away, or it has to. -/
def movesMediatime (i : MediatimeIns) (forced : Bool) (diffSystemTime diffMediatime : Int) : Prop :=
  i.mSyncModeChange = 1 ∨ forced = true ∨ diffMediatime < 0 ∨
    (diffMediatime > 0 ∧
      getLlabs (s64 (diffSystemTime - diffMediatime)) > u64 i.mUpdateTimeThreshold)

instance (i : MediatimeIns) (forced : Bool) (diffSystemTime diffMediatime : Int) :
    Decidable (movesMediatime i forced diffSystemTime diffMediatime) :=
  inferInstanceAs (Decidable (_ ∨ _ ∨ _ ∨ _))

/-- What the four branches of the update store. -/
def moveMediatime (lMediaTime lRealTime stc : Int) (i : MediatimeIns) : MediatimeIns :=
  { i with
    mLastMediaTime := lMediaTime
    mLastRealTime := lRealTime
    mLastStc := s64 stc
    mSyncModeChange := 0 }

/-- `mediasync_ins_update_mediatime`, after its two readings. Only the other sync modes can be
forced. -/
def updateMediatime (lMediaTime lSystemTime : Int) (forceUpdate : Bool) (stc systemtime : Int)
    (i : MediatimeIns) : MediatimeIns :=
  let diffMediatime := s64 (lMediaTime - i.mLastMediaTime)
  let moved :=
    if i.mSyncMode = MEDIA_SYNC_PCRMASTER then
      if lSystemTime = 0 then
        let diffSystemTime :=
          if stc ≠ 0 then scaled i (stc - i.mLastStc) else scaled i (systemtime - i.mLastRealTime)
        if movesMediatime i false diffSystemTime diffMediatime then
          moveMediatime lMediaTime systemtime stc i
        else i
      else if movesMediatime i false (scaled i (lSystemTime - i.mLastRealTime)) diffMediatime then
        moveMediatime lMediaTime lSystemTime (stc + lSystemTime - systemtime) i
      else i
    else if lSystemTime = 0 then
      if movesMediatime i forceUpdate (scaled i (systemtime - i.mLastRealTime)) diffMediatime then
        moveMediatime lMediaTime systemtime stc i
      else i
    else if movesMediatime i forceUpdate (scaled i (lSystemTime - i.mLastRealTime))
        diffMediatime then
      moveMediatime lMediaTime lSystemTime (stc + lSystemTime - systemtime) i
    else i
  { moved with mTrackMediaTime := lMediaTime }

/-- `mediasync_ins_set_paused` changes nothing for a value that is none, or the present one. -/
def changesPaused (sPaused : Int) (i : MediatimeIns) : Prop :=
  (sPaused = 0 ∨ sPaused = 1) ∧ sPaused ≠ i.mPaused

instance (sPaused : Int) (i : MediatimeIns) : Decidable (changesPaused sPaused i) :=
  inferInstanceAs (Decidable (_ ∧ _))

/-- `mediasync_ins_set_paused`, after its two readings. -/
def setPaused (sPaused stc systemtime : Int) (i : MediatimeIns) : MediatimeIns :=
  { i with
    mPaused := sPaused
    mLastMediaTime :=
      if i.mSyncMode = MEDIA_SYNC_AMASTER then
        s64 (i.mLastMediaTime + (systemtime - i.mLastRealTime))
      else i.mLastMediaTime
    mLastRealTime := systemtime
    mLastStc := s64 stc
    mStcParmUpdateCount := u32 (i.mStcParmUpdateCount + 1) }

/-- The operations that read the clock, each with its readings, and any other one: it works on its
own instance. -/
inductive SampleOp
  | updateMediatime (lMediaTime lSystemTime : Int) (forceUpdate : Bool) (r : StcReading)
    (systemtime : Int)
  | setPaused (sPaused : Int) (r : StcReading) (systemtime : Int)
  | getSystemtime (r : StcReading) (systemtime : Int)
  | own (f : MediatimeIns → MediatimeIns)

/-- What the operation reads with `get_stc_time_us`. -/
def SampleOp.reading (i : MediatimeIns) : SampleOp → Option StcReading
  | .updateMediatime _ _ _ r _ => some r
  | .setPaused sPaused r _ => if changesPaused sPaused i then some r else none
  | .getSystemtime r _ => some r
  | .own _ => none

/-- What the operation leaves of the instance; `stc` is what `get_stc_time_us` returned. -/
def SampleOp.effect (i : MediatimeIns) (stc : Int) : SampleOp → MediatimeIns
  | .updateMediatime lMediaTime lSystemTime forceUpdate _ systemtime =>
    MediaSync.updateMediatime lMediaTime lSystemTime forceUpdate stc systemtime i
  | .setPaused sPaused _ systemtime =>
    if changesPaused sPaused i then MediaSync.setPaused sPaused stc systemtime i else i
  | .getSystemtime _ _ => i
  | .own f => f i

/-! ## Runs of several instances -/

variable {ι : Type*} [DecidableEq ι]

/-- The instances, the sample, and for every instance what `get_stc_time_us` returned for it. -/
structure ClockRun (ι : Type*) where
  ins : ι → MediatimeIns
  sample : ClockSample
  stcs : ι → List Int

/-- What an instance depends on: itself, what was returned for it, and the sample. -/
abbrev ClockView := MediatimeIns × List Int × ClockSample

def ClockRun.view (a : ι) (s : ClockRun ι) : ClockView := (s.ins a, s.stcs a, s.sample)

/-- One operation on one instance. -/
def viewStep (v : ClockView) (op : SampleOp) : Option ClockView :=
  match op.reading v.1 with
  | none => some (op.effect v.1 0, v.2.1, v.2.2)
  | some r => (getStcTimeUs v.1 r v.2.2).map fun done =>
    (op.effect v.1 done.1, v.2.1 ++ [done.1], done.2)

def clockStep (s : ClockRun ι) (ev : ι × SampleOp) : Option (ClockRun ι) :=
  (viewStep (s.view ev.1) ev.2).map fun v =>
    ⟨Function.update s.ins ev.1 v.1, v.2.2, Function.update s.stcs ev.1 v.2.1⟩

/-- The module is loaded with these instances. -/
def clockInit (ins : ι → MediatimeIns) : ClockRun ι := ⟨ins, {}, fun _ => []⟩

/-- The operation reaches the sample: it reads the PCR of an instance that follows it. -/
def TakesSample (i : MediatimeIns) (op : SampleOp) : Prop :=
  ∃ r pcr, op.reading i = some r ∧ i.mSyncMode = MEDIA_SYNC_PCRMASTER ∧ 0 ≤ i.mDemuxId ∧
    r.pcr = some pcr

/-- The time since the last sample is a multiple of 2^32 microseconds. -/
def TimeWraps (i : MediatimeIns) (op : SampleOp) (sample : ClockSample) : Prop :=
  ∃ r, op.reading i = some r ∧ sample.lastPcr ≠ 0 ∧ s64 (r.timeus - sample.lastSystem) ≠ 0 ∧
    u32 (s32 (s64 (r.timeus - sample.lastSystem))) = 0

/-- The samples are all of the instance `a` (`own`) or all of others, and none at a time that wraps. -/
def OwnSample (a : ι) (own : Bool) (s : ClockRun ι) (ev : ι × SampleOp) : Prop :=
  TakesSample (s.ins ev.1) ev.2 → (ev.1 = a ↔ own) ∧ ¬ TimeWraps (s.ins ev.1) ev.2 s.sample

/-- What `a` depends on: without samples of its own not the sample. -/
def ClockRun.seen (a : ι) (own : Bool) (s : ClockRun ι) : ClockView :=
  (s.ins a, s.stcs a, if own then s.sample else {})

section

variable {i : MediatimeIns} {op : SampleOp} {sample : ClockSample} {stcs : List Int}

/-- Without a sample the operation is defined, and neither reads nor writes the one of the others. -/
theorem viewStep_noSample (stcs : List Int) (h : ¬ TakesSample i op) :
    ∃ i' stcs', ∀ sample, viewStep (i, stcs, sample) op = some (i', stcs', sample) := by
  cases hr : op.reading i with
  | none =>
    refine ⟨op.effect i 0, stcs, fun sample => ?_⟩
    simp only [viewStep, hr]
  | some r =>
    have hstc : ∃ stc, ∀ sample, getStcTimeUs i r sample = some (stc, sample) := by
      simp only [getStcTimeUs]
      by_cases hmode : i.mSyncMode ≠ MEDIA_SYNC_PCRMASTER
      · exact ⟨0, fun _ => if_pos hmode⟩
      refine ⟨r.timeus, fun sample => (if_neg hmode).trans ?_⟩
      by_cases hdemux : i.mDemuxId < 0
      · exact if_pos hdemux
      rw [if_neg hdemux]
      cases hp : r.pcr with
      | none => rfl
      | some pcr => exact absurd ⟨r, pcr, hr, not_not.mp hmode, Int.not_lt.mp hdemux, hp⟩ h
    obtain ⟨stc, hstc⟩ := hstc
    refine ⟨op.effect i stc, stcs ++ [stc], fun sample => ?_⟩
    simp only [viewStep, hr, hstc]
    rfl

/-- A sample divides by no zero unless the time wraps. -/
theorem stcFromSample_some {timeus pcr : Int}
    (h : ¬ (s64 (timeus - sample.lastSystem) ≠ 0 ∧
      u32 (s32 (s64 (timeus - sample.lastSystem))) = 0)) :
    ∃ done, stcFromSample timeus pcr sample = some done := by
  unfold stcFromSample
  dsimp only
  rw [if_neg h]
  split_ifs <;> exact ⟨_, rfl⟩

theorem viewStep_some (h : ¬ TimeWraps i op sample) :
    ∃ v, viewStep (i, stcs, sample) op = some v := by
  unfold viewStep
  cases hr : op.reading i with
  | none => exact ⟨_, rfl⟩
  | some r =>
    have hstc : ∃ done, getStcTimeUs i r sample = some done := by
      unfold getStcTimeUs
      cases r.pcr with
      | none => split_ifs <;> exact ⟨_, rfl⟩
      | some pcr =>
        dsimp only
        split_ifs with hmode hdemux hlast
        · exact ⟨_, rfl⟩
        · exact ⟨_, rfl⟩
        · exact ⟨_, rfl⟩
        · exact stcFromSample_some fun hwrap => h ⟨r, hr, hlast, hwrap.1, hwrap.2⟩
    obtain ⟨done, hdone⟩ := hstc
    exact ⟨_, congrArg (Option.map _) hdone⟩

end

theorem clockStep_eq {s : ClockRun ι} {ev : ι × SampleOp} {v : ClockView}
    (h : viewStep (s.view ev.1) ev.2 = some v) : clockStep s ev =
      some ⟨Function.update s.ins ev.1 v.1, v.2.2, Function.update s.stcs ev.1 v.2.1⟩ := by
  unfold clockStep
  rw [h]
  rfl

/-- What an instance depends on changes with its own operations alone. -/
theorem clock_projects (a : ι) (own : Bool) :
    Projects clockStep (fun v (ev : ι × SampleOp) => viewStep v ev.2) (ClockRun.seen a own)
      (OwnSample a own) (fun ev => ev.1 = a) where
  steps := by
    intro s ev hok hmine
    obtain rfl : ev.1 = a := of_decide_eq_true hmine
    have hsome : ∃ v, viewStep (s.view ev.1) ev.2 = some v ∧ viewStep (s.seen ev.1 own) ev.2 =
        some (v.1, v.2.1, if own then v.2.2 else {}) := by
      by_cases htake : TakesSample (s.ins ev.1) ev.2
      · obtain ⟨howner, hwrap⟩ := hok htake
        obtain ⟨v, hv⟩ := viewStep_some hwrap
        refine ⟨v, hv, ?_⟩
        rw [ClockRun.seen, howner.mp rfl]
        exact hv
      · obtain ⟨i', stcs', h⟩ := viewStep_noSample (s.stcs ev.1) htake
        exact ⟨_, h s.sample, h _⟩
    obtain ⟨v, hv, hseen⟩ := hsome
    refine ⟨_, clockStep_eq hv, ?_⟩
    rw [hseen]
    dsimp only [ClockRun.seen]
    rw [Function.update_self, Function.update_self]
  others := by
    intro s ev hok hmine
    have hne : a ≠ ev.1 := fun h => absurd h.symm (of_decide_eq_false hmine)
    have hsome : ∃ v, viewStep (s.view ev.1) ev.2 = some v ∧ (own = true → v.2.2 = s.sample) := by
      by_cases htake : TakesSample (s.ins ev.1) ev.2
      · obtain ⟨howner, hwrap⟩ := hok htake
        obtain ⟨v, hv⟩ := viewStep_some hwrap
        exact ⟨v, hv, fun hown => absurd (howner.mpr hown).symm hne⟩
      · obtain ⟨i', stcs', h⟩ := viewStep_noSample (s.stcs ev.1) htake
        exact ⟨_, h s.sample, fun _ => rfl⟩
    obtain ⟨v, hv, hsample⟩ := hsome
    refine ⟨_, clockStep_eq hv, ?_⟩
    dsimp only [ClockRun.seen]
    rw [Function.update_of_ne hne, Function.update_of_ne hne]
    split
    · next hown => rw [hsample hown]
    · rfl

/-- For every two interleavings with the same operations and readings of the instance `a`: when in each
of them the samples are all of `a` or all of others, and none at a time that wraps, no operation divides
by zero and the clock of `a` is the same in both. -/
theorem clock_independent (a : ι) {ins₁ ins₂ : ι → MediatimeIns} {evs₁ evs₂ : List (ι × SampleOp)}
    (hins : ins₁ a = ins₂ a)
    (hevs : evs₁.filter (fun ev => ev.1 = a) = evs₂.filter (fun ev => ev.1 = a)) {own₁ own₂ : Bool}
    (h₁ : Guarded clockStep (OwnSample a own₁) (clockInit ins₁) evs₁)
    (h₂ : Guarded clockStep (OwnSample a own₂) (clockInit ins₂) evs₂) :
    ∃ t₁ t₂, run clockStep (clockInit ins₁) evs₁ = some t₁ ∧
      run clockStep (clockInit ins₂) evs₂ = some t₂ ∧ t₁.stcs a = t₂.stcs a ∧
      t₁.ins a = t₂.ins a := by
  obtain ⟨t₁, hr₁, hown₁⟩ := (clock_projects a own₁).run h₁
  obtain ⟨t₂, hr₂, hown₂⟩ := (clock_projects a own₂).run h₂
  have hsee : (clockInit ins₁).seen a own₁ = (clockInit ins₂).seen a own₂ := by
    simp only [clockInit, ClockRun.seen, hins, ite_self]
  rw [hsee, hevs] at hown₁
  have hsame : t₁.seen a own₁ = t₂.seen a own₂ := Option.some.inj (hown₁.symm.trans hown₂)
  exact ⟨t₁, t₂, hr₁, hr₂, congrArg (fun v => v.2.1) hsame, congrArg Prod.fst hsame⟩

/-- An instance that follows the PCR of the first demultiplexer. -/
def pcrMaster : MediatimeIns := { mSyncMode := MEDIA_SYNC_PCRMASTER }

/-- The first instance follows the PCR, and the second one does not. -/
def onePcrMaster (n : Nat) : MediatimeIns := if n = 0 then pcrMaster else {}

theorem clock_independent_onePcrMaster :
    ∃ t₁ t₂,
      run clockStep (clockInit onePcrMaster) [(0, .getSystemtime ⟨1000, some 90⟩ 1000)] = some t₁ ∧
      run clockStep (clockInit onePcrMaster) [(1, .getSystemtime ⟨500, some 9000000⟩ 500),
        (0, .getSystemtime ⟨1000, some 90⟩ 1000)] = some t₂ ∧
      t₁.stcs 0 = t₂.stcs 0 ∧ t₁.ins 0 = t₂.ins 0 := by
  have hother : ¬ TakesSample (onePcrMaster 1) (.getSystemtime ⟨500, some 9000000⟩ 500) := by
    rintro ⟨-, -, -, hmode, -⟩
    exact absurd hmode (by decide)
  have hown : Guarded clockStep (OwnSample 0 true) (clockInit onePcrMaster)
      [(1, .getSystemtime ⟨500, some 9000000⟩ 500), (0, .getSystemtime ⟨1000, some 90⟩ 1000)] := by
    refine ⟨fun h => absurd h hother, fun s hs => ⟨fun _ => ⟨by decide, fun h => ?_⟩,
      fun _ _ => trivial⟩⟩
    obtain rfl := Option.some.inj hs
    exact h.choose_spec.2.1 rfl
  have hfirst : Guarded clockStep (OwnSample 0 true) (clockInit onePcrMaster)
      [(0, .getSystemtime ⟨1000, some 90⟩ 1000)] :=
    ⟨fun _ => ⟨by decide, fun h => h.choose_spec.2.1 rfl⟩, fun _ _ => trivial⟩
  exact clock_independent 0 rfl rfl hfirst hown

/-- With a second instance that follows the PCR, the clock of the first one shows another time; and
71 minutes and 35 seconds after a sample a call divides by zero. -/
theorem clock_shared :
    (∃ t₁ t₂, run clockStep (clockInit fun _ : Nat => pcrMaster)
        [(0, .getSystemtime ⟨1000, some 90⟩ 1000), (0, .getSystemtime ⟨2000, some 171⟩ 2000)] =
          some t₁ ∧
      run clockStep (clockInit fun _ : Nat => pcrMaster)
        [(0, .getSystemtime ⟨1000, some 90⟩ 1000), (1, .getSystemtime ⟨1500, some 9000000⟩ 1500),
          (0, .getSystemtime ⟨2000, some 171⟩ 2000)] = some t₂ ∧
      t₁.stcs 0 = [1000, 1900] ∧ t₂.stcs 0 = [1000, 2000]) ∧
    run clockStep (clockInit fun _ : Nat => pcrMaster)
      [(0, .getSystemtime ⟨1000, some 90⟩ 1000),
        (0, .getSystemtime ⟨1000 + 4294967296, some 180⟩ 1000)] = none :=
  ⟨⟨_, _, rfl, rfl, by decide, by decide⟩, rfl⟩

end MediaModules.MediaSync
