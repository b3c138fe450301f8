import MediaModules.FrameInput.Counters

/-!
# The smallest frame duration

`last_duration` takes a gap between two time stamps when the gap is positive and smaller. Nothing
sets it before the first frame, and no gap is smaller than zero.
-/
namespace MediaModules.FrameInput

open MediaModules.Lib.Run

section Keeps
variable {s : VdecInput} {mem : Memory}

theorem nextDuration_zero (h : s.lastDuration = 0) (f : Frame) : s.nextDuration f = 0 := by
  unfold VdecInput.nextDuration
  dsimp only
  split
  · rename_i hgap
    obtain ⟨-, -, -, hpos, hless⟩ := hgap
    rw [h] at hless
    exact absurd (Int32.lt_trans hpos hless) Int32.lt_irrefl
  · exact h

theorem allocNewBlock_lastDuration (s : VdecInput) (phyAddr : UInt64) (size : UInt32) (free : Bool)
    (mem : Memory) : (s.allocNewBlock phyAddr size free mem).1.lastDuration = s.lastDuration := by
  have hcases := allocNewBlock_cases s phyAddr size free mem
  generalize s.allocNewBlock phyAddr size free mem = a at hcases ⊢
  cases hcases with
  | failed errs => rfl
  | fresh block hnew => rfl

theorem allocFreeBlock_lastDuration {size : Int32} {r : VdecInput × Except Errno Nat}
    (hr : s.allocFreeBlock size mem = some r) : r.1.lastDuration = s.lastDuration := by
  unfold VdecInput.allocFreeBlock at hr
  split at hr
  · obtain rfl := Option.some.inj hr
    rfl
  · split at hr
    · obtain rfl := Option.some.inj hr
      rfl
    · obtain ⟨defSize, -, rfl⟩ := Option.map_eq_some_iff.mp hr
      have hsame := allocNewBlock_lastDuration { s with defaultBlockSize := defSize } 0 0 false mem
      generalize VdecInput.allocNewBlock _ 0 0 false mem = a at hsame ⊢
      obtain ⟨t, _ | b⟩ := a
      · exact hsame
      · exact hsame

theorem getFreeBlock_lastDuration {size : Int32} {r : VdecInput × Except Errno Nat}
    (hr : s.getFreeBlock size mem = some r) : r.1.lastDuration = s.lastDuration := by
  unfold VdecInput.getFreeBlock at hr
  split at hr
  · exact allocFreeBlock_lastDuration hr
  · rename_i b bs _
    split at hr
    · exact allocFreeBlock_lastDuration (s := s.delBlockLocked b) hr
    · obtain rfl := Option.some.inj hr
      rfl

theorem recycle_lastDuration (s : VdecInput) (b : Nat) :
    (s.recycle b).lastDuration = s.lastDuration := by
  unfold VdecInput.recycle
  split
  · rfl
  · rfl

theorem chooseBlock_lastDuration {count padding : UInt64} {r : VdecInput × Except Errno Nat}
    (hr : s.chooseBlock count padding mem = some r) : r.1.lastDuration = s.lastDuration := by
  unfold VdecInput.chooseBlock at hr
  dsimp only at hr
  split at hr
  · exact getFreeBlock_lastDuration hr
  · rename_i b _
    split at hr
    · obtain rfl := Option.some.inj hr
      rfl
    · split at hr
      · obtain rfl := Option.some.inj hr
        rfl
      · exact (getFreeBlock_lastDuration hr).trans (recycle_lastDuration s b)

theorem addOutBuf_lastDuration (h : s.lastDuration = 0) (f : Frame) (mem : Memory) :
    (s.addOutBuf f mem).1.lastDuration = 0 := by
  unfold VdecInput.addOutBuf
  dsimp only
  have hsame := allocNewBlock_lastDuration s f.buf
    (pageAlign64 (f.count + hevcPaddingSize + 1)).toUInt32 f.free mem
  generalize s.allocNewBlock f.buf _ f.free mem = a at hsame ⊢
  obtain ⟨t, _ | b⟩ := a
  · exact hsame.trans h
  · dsimp only
    split
    · exact nextDuration_zero (hsame.trans h) f
    · exact hsame.trans h

theorem addCopied_lastDuration (h : s.lastDuration = 0) (f : Frame)
    {r : VdecInput × Except Errno Unit} (hr : s.addCopied f mem = some r) :
    r.1.lastDuration = 0 := by
  unfold VdecInput.addCopied at hr
  dsimp only at hr
  split at hr
  · exact nomatch hr
  · rename_i hchoose
    obtain rfl := Option.some.inj hr
    exact (chooseBlock_lastDuration hchoose).trans h
  · rename_i t b hchoose
    have hset : (if f.free then t.setBlock b fun block => { block with free := true }
        else t).lastDuration = 0 := by
      split
      · exact (chooseBlock_lastDuration hchoose).trans h
      · exact (chooseBlock_lastDuration hchoose).trans h
    split at hr
    · obtain rfl := Option.some.inj hr
      exact nextDuration_zero hset f
    · obtain rfl := Option.some.inj hr
      exact hset

theorem addChunk_lastDuration (h : s.lastDuration = 0) (f : Frame)
    {r : VdecInput × Except Errno Unit} (hr : s.addChunk f mem = some r) :
    r.1.lastDuration = 0 := by
  unfold VdecInput.addChunk at hr
  split at hr
  · obtain rfl := Option.some.inj hr
    exact addOutBuf_lastDuration h f mem
  · split at hr
    · obtain rfl := Option.some.inj hr
      exact h
    · exact addCopied_lastDuration h f hr

theorem settleBlock_lastDuration (s : VdecInput) (b : Nat) :
    (s.settleBlock b).lastDuration = s.lastDuration := by
  unfold VdecInput.settleBlock
  split
  · split
    · rfl
    · rfl
  · split
    · split
      · rfl
      · rfl
    · rfl

theorem releaseChunk_lastDuration {t : VdecInput} {sequence : Nat}
    (hr : s.releaseChunk sequence = some t) : t.lastDuration = s.lastDuration := by
  unfold VdecInput.releaseChunk at hr
  split at hr
  · obtain rfl := Option.some.inj hr
    rfl
  · split at hr
    · obtain rfl := Option.some.inj hr
      exact settleBlock_lastDuration _ _
    · exact nomatch hr

theorem prepareBufs_lastDuration (s : VdecInput) (support4k : Bool) (mem : Nat → Memory) :
    (s.prepareBufs support4k mem).lastDuration = s.lastDuration :=
  prepareBufs_keeps (P := fun t => t.lastDuration = s.lastDuration) (fun _ _ h => h) (fun _ _ h => h)
    (fun _ _ _ h _ => h) rfl support4k mem

theorem freedHandleLoop_lastDuration (bs : List Nat) (s : VdecInput) :
    (VdecInput.freedHandleLoop bs s).1.lastDuration = s.lastDuration := by
  induction bs generalizing s with
  | nil => rfl
  | cons b bs ih =>
    unfold VdecInput.freedHandleLoop
    split
    · exact ih _
    · rfl

theorem getFreedHandle_lastDuration (s : VdecInput) :
    s.getFreedHandle.1.lastDuration = s.lastDuration := by
  unfold VdecInput.getFreedHandle
  split
  · exact freedHandleLoop_lastDuration _ s
  · rfl

end Keeps

/-- No call makes a smallest duration of zero larger. -/
theorem step_lastDuration (s : VdecInput) (op : Op) (t : VdecInput) (h : s.lastDuration = 0)
    (hs : step s op = some t) : t.lastDuration = 0 := by
  cases op with
  | addChunk f mem =>
    obtain ⟨r, hr, rfl⟩ := Option.map_eq_some_iff.mp hs
    exact addChunk_lastDuration h f hr
  | releaseChunk sequence => exact (releaseChunk_lastDuration hs).trans h
  | prepareBufs support4k mem =>
    obtain rfl := Option.some.inj hs
    exact (prepareBufs_lastDuration s support4k mem).trans h
  | getFreedHandle =>
    obtain rfl := Option.some.inj hs
    exact (getFreedHandle_lastDuration s).trans h

theorem run_lastDuration (type : InputType) (secure dmabuf : Bool) {ops : List Op} {t : VdecInput}
    (hr : run step (vdecInputInit type secure dmabuf) ops = some t) : t.lastDuration = 0 :=
  run_invariant step_lastDuration rfl hr

/-- The positive gaps below 2^31 between consecutive chunks with valid time stamps. -/
def gaps : List VframeChunk → List Nat
  | c :: d :: rest =>
    let gap := d.pts64.toNat - c.pts64.toNat
    if c.ptsValid ∧ d.ptsValid ∧ 0 < gap ∧ gap < 2147483648 then gap :: gaps (d :: rest)
    else gaps (d :: rest)
  | _ => []

theorem gaps_pos (chunks : List VframeChunk) : ∀ gap ∈ gaps chunks, 0 < gap := by
  fun_induction gaps chunks with
  | case1 c d rest gap hgap ih =>
    intro g hg
    rcases List.mem_cons.mp hg with rfl | hg
    · exact hgap.2.2.1
    · exact ih g hg
  | case2 c d rest gap hgap ih => exact ih
  | case3 => exact nofun

/-- `last_duration` is the smallest gap seen between the chunks, if there is one. -/
def DurationTracked (s : VdecInput) : Prop :=
  ∀ gap, (gaps s.vframeChunkList).min? = some gap → s.lastDuration.toInt = gap

/-- The calls that queue these frames. -/
def addChunks (frames : List (Frame × Memory)) : List Op :=
  frames.map fun r => .addChunk r.1 r.2

/-- Whatever frames are queued: once two of them have a gap, `last_duration` is not the smallest
one. -/
theorem duration_not_tracked (type : InputType) (secure dmabuf : Bool)
    (frames : List (Frame × Memory)) {t : VdecInput}
    (hr : run step (vdecInputInit type secure dmabuf) (addChunks frames) = some t)
    (hgaps : gaps t.vframeChunkList ≠ []) : ¬ DurationTracked t := by
  intro htracked
  obtain ⟨gap, hmin⟩ := Option.isSome_iff_exists.mp (List.isSome_min?_of_ne_nil hgaps)
  have hpos := gaps_pos _ gap (List.min?_mem hmin)
  have hduration := htracked gap hmin
  rw [run_lastDuration type secure dmabuf hr] at hduration
  have hzero : (0 : Int32).toInt = 0 := rfl
  omega

/-- Two frames of a stream of 25 frames a second. -/
def pacedFrames : List (Frame × Memory) :=
  [({ buf := 0, count := 1000, handle := 0, free := false, ptsValid := true, pts64 := 40000 },
      ⟨true, true, true⟩),
    ({ buf := 0, count := 1000, handle := 0, free := false, ptsValid := true, pts64 := 80000 },
      ⟨true, true, true⟩)]

def pacedInput : VdecInput :=
  (run step (vdecInputInit .frameBlock false false) (addChunks pacedFrames)).get (by decide +kernel)

theorem duration_not_tracked_paced : ¬ DurationTracked pacedInput :=
  duration_not_tracked .frameBlock false false pacedFrames (Option.some_get _).symm
    (by decide +kernel)

/-- The gap of 40 ms between them is not noticed. -/
theorem paced_duration_missed :
    ¬ ∀ (type : InputType) (secure dmabuf : Bool) (frames : List (Frame × Memory)) (t : VdecInput),
      run step (vdecInputInit type secure dmabuf) (addChunks frames) = some t →
        DurationTracked t := by
  intro hall
  have htracked := hall .frameBlock false false pacedFrames pacedInput (Option.some_get _).symm
  have hgap : (gaps pacedInput.vframeChunkList).min? = some 40000 := by decide +kernel
  have hduration := htracked 40000 hgap
  revert hduration
  decide +kernel

end MediaModules.FrameInput
