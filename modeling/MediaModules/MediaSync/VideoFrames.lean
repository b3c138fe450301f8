import Mathlib.Tactic.Common
import MediaModules.Lib.Run

/-!
# Video frames held back for the clock

The receiver peeks and gets frames through this module. A peek asks the policy whether the first
frame of the upstream provider is due and keeps the answer in `frameStatus`; the get trusts it. The
answer is about a frame, and the flag is not tied to one.
-/
namespace MediaModules.MediaSync

open Lib.Run

/-- The policies of `mediasync_video_policy`. -/
inductive VideoPolicy
  | MEDIASYNC_VIDEO_UNKNOWN | MEDIASYNC_VIDEO_NORMAL_OUTPUT | MEDIASYNC_VIDEO_HOLD
  | MEDIASYNC_VIDEO_DROP | MEDIASYNC_VIDEO_EXIT
deriving DecidableEq, Repr

/-- The fields of `struct vframe_s` that are read. -/
structure Vframe where
  pts : UInt32
  ptsUs64 : UInt64
  duration : UInt32
deriving DecidableEq, Repr

/-- `DUR2US`. -/
def dur2us (x : UInt32) : UInt32 := x * 1000 / 96

/-- `mediasync_vf_dev`, less its names, threads and registrations. -/
structure VfDev where
  frameStatus : Int := 0
  isVideoHold : Bool := false
  lastVpts : Int64 := 0
  outCount : UInt32 := 0
  getCountSysTimeUs : Int64 := 0
  getSysTimeUs : Int64 := 0
deriving DecidableEq, Repr

/-- The timestamp of a frame; one without it follows the last frame. -/
def vptsOf (dev : VfDev) (vf : Vframe) : Int64 :=
  if vf.pts = 0 then dev.lastVpts + (dur2us vf.duration).toUInt64.toInt64
  else vf.ptsUs64.toInt64

/-- `mediasync_drop_frame_func`: the first frame goes back to the provider, whichever it is. -/
def mediasyncDropFrameFunc (upstream : List Vframe) : List Vframe := upstream.tail

/-- What `mediasync_video_process` answers for a timestamp and a duration. -/
abbrev VideoProcess := Int64 → UInt32 → VideoPolicy

/-- `mediasync_vf_peek`: the device and the upstream frames after it, the frame that is returned,
and the answer of the policy if it was asked. -/
def mediasyncVfPeek (process : VideoProcess) (dev : VfDev) (upstream : List Vframe) :
    VfDev × List Vframe × Option Vframe × Option VideoPolicy :=
  match upstream.head? with
  | none => (dev, upstream, none, none)
  | some vf =>
    if dev.frameStatus = 1 then
      if dev.isVideoHold = true then (dev, mediasyncDropFrameFunc upstream, none, none)
      else (dev, upstream, some vf, none)
    else
      let policy := process (vptsOf dev vf) (dur2us vf.duration)
      if policy = .MEDIASYNC_VIDEO_HOLD then (dev, upstream, none, some policy)
      else if dev.isVideoHold = true then
        (dev, mediasyncDropFrameFunc upstream, none, some policy)
      else ({ dev with frameStatus := 1 }, upstream, some vf, some policy)

/-- The device after a frame was given out. -/
def frameOut (systemtime : Int64) (vf : Vframe) (dev : VfDev) : VfDev :=
  let lastVpts := vptsOf dev vf
  let dev :=
    if systemtime - dev.getCountSysTimeUs > 1000000 ∨ dev.outCount = 0 then
      { dev with outCount := 0, getCountSysTimeUs := systemtime }
    else dev
  { dev with
    outCount := dev.outCount + 1
    lastVpts := lastVpts
    frameStatus := 0
    getSysTimeUs := systemtime }

/-- `mediasync_vf_get`. -/
def mediasyncVfGet (systemtime : Int64) (dev : VfDev) (upstream : List Vframe) :
    VfDev × List Vframe × Option Vframe :=
  if dev.frameStatus = 0 then (dev, upstream, none)
  else
    match upstream with
    | [] => (dev, [], none)
    | vf :: rest => (frameOut systemtime vf dev, rest, some vf)

/-- `mediasync_vf_set_video_hold`. -/
def mediasyncVfSetVideoHold (flag : Bool) (dev : VfDev) : VfDev := { dev with isVideoHold := flag }

/-- `VFRAME_EVENT_PROVIDER_REG`. -/
def providerReg (systemtime : Int64) (dev : VfDev) : VfDev :=
  { dev with frameStatus := 0, lastVpts := -1, getSysTimeUs := systemtime, outCount := 0 }

/-! ## Runs -/

/-- What the receiver, the user and the upstream provider do. -/
inductive VfmOp
  | peek (process : VideoProcess)
  | get (systemtime : Int64)
  | setVideoHold (flag : Bool)
  | providerReg (systemtime : Int64)
  | arrive (vf : Vframe)
  | upstreamDrop (i : Nat)

/-- The device and the upstream frames. `approved` tells whether the policy let the first frame pass
since it became the first, and `shown` holds the frames that were returned, with what `approved`
was for each. -/
structure VfmRun where
  dev : VfDev
  upstream : List Vframe
  approved : Bool
  shown : List (Vframe × Bool)

/-- The policy was asked and did not hold the frame back. -/
def passes (answer : Option VideoPolicy) : Bool := answer.any (· ≠ .MEDIASYNC_VIDEO_HOLD)

/-- After a peek. The first frame is the same one if none was taken. -/
def peeked (s : VfmRun) (done : VfDev × List Vframe × Option Vframe × Option VideoPolicy) : VfmRun :=
  { s with
    dev := done.1
    upstream := done.2.1
    approved := done.2.1.length = s.upstream.length && (s.approved || passes done.2.2.2) }

/-- After a get. A frame that is returned leaves another first frame behind. -/
def got (s : VfmRun) (done : VfDev × List Vframe × Option Vframe) : VfmRun where
  dev := done.1
  upstream := done.2.1
  approved := done.2.2.isNone && s.approved
  shown := s.shown ++ done.2.2.toList.map fun vf => (vf, s.approved)

def vfmStep (s : VfmRun) : VfmOp → Option VfmRun
  | .peek process => some (peeked s (mediasyncVfPeek process s.dev s.upstream))
  | .get systemtime => some (got s (mediasyncVfGet systemtime s.dev s.upstream))
  | .setVideoHold flag => some { s with dev := mediasyncVfSetVideoHold flag s.dev }
  | .providerReg systemtime => some { s with dev := providerReg systemtime s.dev }
  | .arrive vf =>
    some { s with upstream := s.upstream ++ [vf], approved := !s.upstream.isEmpty && s.approved }
  | .upstreamDrop i =>
    some { s with upstream := s.upstream.eraseIdx i, approved := i ≠ 0 && s.approved }

/-- A new device in front of these frames. -/
def vfmInit (upstream : List Vframe) : VfmRun := ⟨{}, upstream, false, []⟩

/-- Every frame that was returned had passed the policy as the first one. -/
def ShownApproved (s : VfmRun) : Prop := ∀ p ∈ s.shown, p.2 = true

/-- While an answer is kept, its frame is not dropped. -/
def AnsweredKept (s : VfmRun) (op : VfmOp) : Prop :=
  s.dev.frameStatus = 1 →
    match op with
    | .peek _ => s.dev.isVideoHold = false
    | .upstreamDrop i => i ≠ 0
    | _ => True

/-- The flag stands for an answer about the frame that is first. -/
structure FlagInv (s : VfmRun) : Prop where
  status : s.dev.frameStatus = 0 ∨ s.dev.frameStatus = 1
  head : s.dev.frameStatus = 1 → s.upstream ≠ [] ∧ s.approved = true
  shown : ShownApproved s

section

variable {s s' : VfmRun}

theorem peek_flagInv {process : VideoProcess} (h : FlagInv s)
    (hok : AnsweredKept s (.peek process)) (hs : vfmStep s (.peek process) = some s') :
    FlagInv s' := by
  obtain rfl := Option.some.inj hs
  unfold mediasyncVfPeek
  cases hhead : s.upstream.head? with
  | none =>
    have hnil := List.head?_eq_none_iff.mp hhead
    exact ⟨h.status, fun h1 => absurd hnil (h.head h1).1, h.shown⟩
  | some vf =>
    have hne : s.upstream ≠ [] := by
      intro hnil
      rw [hnil] at hhead
      exact nomatch hhead
    dsimp only
    by_cases h1 : s.dev.frameStatus = 1
    · have hhold : ¬ s.dev.isVideoHold = true := Bool.eq_false_iff.mp (hok h1)
      rw [if_pos h1, if_neg hhold]
      refine ⟨h.status, fun _ => ⟨hne, ?_⟩, h.shown⟩
      simp only [peeked, (h.head h1).2, Bool.true_or, Bool.and_true, decide_true]
    rw [if_neg h1]
    by_cases hpolicy : process (vptsOf s.dev vf) (dur2us vf.duration) = .MEDIASYNC_VIDEO_HOLD
    · rw [if_pos hpolicy]
      exact ⟨h.status, fun hc => absurd hc h1, h.shown⟩
    rw [if_neg hpolicy]
    by_cases hhold : s.dev.isVideoHold = true
    · rw [if_pos hhold]
      exact ⟨h.status, fun hc => absurd hc h1, h.shown⟩
    · rw [if_neg hhold]
      have hpass : passes (some (process (vptsOf s.dev vf) (dur2us vf.duration))) = true :=
        decide_eq_true hpolicy
      refine ⟨.inr rfl, fun _ => ⟨hne, ?_⟩, h.shown⟩
      simp only [peeked, hpass, Bool.or_true, Bool.and_true, decide_true]

theorem get_flagInv {systemtime : Int64} (h : FlagInv s)
    (hs : vfmStep s (.get systemtime) = some s') : FlagInv s' := by
  obtain rfl := Option.some.inj hs
  unfold mediasyncVfGet
  by_cases h0 : s.dev.frameStatus = 0
  · rw [if_pos h0]
    refine ⟨h.status, fun h1 => absurd (h0.symm.trans h1) (by decide), fun p hp => ?_⟩
    exact h.shown p (List.append_nil s.shown ▸ hp)
  · obtain ⟨hne, happroved⟩ := h.head (h.status.resolve_left h0)
    obtain ⟨vf, rest, hl⟩ := List.exists_cons_of_ne_nil hne
    rw [if_neg h0, hl]
    have hzero : (frameOut systemtime vf s.dev).frameStatus = 0 := rfl
    refine ⟨.inl hzero, fun hc => absurd (hzero.symm.trans hc) (by decide), fun p hp => ?_⟩
    rcases List.mem_append.mp hp with hp | hp
    · exact h.shown p hp
    · rw [List.mem_singleton.mp hp]
      exact happroved

theorem vfmStep_flagInv {op : VfmOp} (h : FlagInv s) (hok : AnsweredKept s op)
    (hs : vfmStep s op = some s') : FlagInv s' := by
  cases op with
  | peek process => exact peek_flagInv h hok hs
  | get systemtime => exact get_flagInv h hs
  | setVideoHold flag =>
    obtain rfl := Option.some.inj hs
    exact ⟨h.status, h.head, h.shown⟩
  | providerReg systemtime =>
    obtain rfl := Option.some.inj hs
    exact ⟨.inl rfl, fun hc => absurd hc Int.zero_ne_one, h.shown⟩
  | arrive vf =>
    obtain rfl := Option.some.inj hs
    refine ⟨h.status, fun h1 => ⟨List.append_ne_nil_of_right_ne_nil _ (List.cons_ne_nil vf []), ?_⟩,
      h.shown⟩
    obtain ⟨hne, happroved⟩ := h.head h1
    show (!s.upstream.isEmpty && s.approved) = true
    rw [happroved, Bool.and_true, List.isEmpty_eq_false_iff.mpr hne]
    rfl
  | upstreamDrop i =>
    obtain rfl := Option.some.inj hs
    refine ⟨h.status, fun h1 => ?_, h.shown⟩
    obtain ⟨hne, happroved⟩ := h.head h1
    have hi : i ≠ 0 := hok h1
    obtain ⟨vf, rest, hl⟩ := List.exists_cons_of_ne_nil hne
    obtain ⟨j, rfl⟩ := Nat.exists_eq_succ_of_ne_zero hi
    refine ⟨?_, ?_⟩
    · show s.upstream.eraseIdx (j + 1) ≠ []
      rw [hl]
      exact List.cons_ne_nil vf _
    · show (decide (j + 1 ≠ 0) && s.approved) = true
      rw [happroved, Bool.and_true]
      exact decide_eq_true hi

/-- For every interleaving: while no frame is dropped whose answer is kept, every frame that is
returned had passed the policy as the first one. -/
theorem shown_approved (upstream : List Vframe) (ops : List VfmOp)
    (hg : Guarded vfmStep AnsweredKept (vfmInit upstream) ops) :
    Always vfmStep ShownApproved (vfmInit upstream) ops := by
  have hinit : FlagInv (vfmInit upstream) :=
    ⟨.inl rfl, fun hc => absurd hc Int.zero_ne_one,
      fun _ hp => (nomatch hp)⟩
  exact (always_of_guarded (fun _ _ _ h hok hs => vfmStep_flagInv h hok hs) hinit hg).imp
    fun _ h => h.shown

/-- Two frames, of which the first one is due. -/
def twoFrames : List Vframe := [⟨100, 1000, 1600⟩, ⟨200, 2000, 1600⟩]

/-- The frame with this timestamp is due, and every other one is held back. -/
def dueAt (due : Int64) : VideoProcess := fun vpts _ =>
  if vpts = due then .MEDIASYNC_VIDEO_NORMAL_OUTPUT else .MEDIASYNC_VIDEO_HOLD

theorem shown_approved_oneFrame :
    Always vfmStep ShownApproved (vfmInit twoFrames) [.peek (dueAt 1000), .get 5, .get 6] :=
  shown_approved twoFrames _ ⟨fun _ => rfl, fun _ _ => ⟨fun _ => trivial, fun _ _ =>
    ⟨fun _ => trivial, fun _ _ => trivial⟩⟩⟩

/-- With the hold switched on between the peek and the get, the first frame is dropped and the
second one, which the policy holds back, is returned. -/
theorem heldFrame_shown : ∃ t, run vfmStep (vfmInit twoFrames)
    [.peek (dueAt 1000), .setVideoHold true, .peek (dueAt 1000), .setVideoHold false, .get 5] =
      some t ∧ t.shown = [(⟨200, 2000, 1600⟩, false)] ∧ ¬ ShownApproved t := by
  refine ⟨_, rfl, rfl, fun h => ?_⟩
  exact absurd (h (⟨200, 2000, 1600⟩, false) (List.mem_singleton_self _)) (by decide)

end

end MediaModules.MediaSync
