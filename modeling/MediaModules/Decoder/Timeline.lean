import MediaModules.Lib.Run
import Mathlib.Data.List.Basic
import Mathlib.Algebra.Order.Ring.Int

/-!
# The fences of a timeline

A fence is signalled when the value of its timeline reaches its number. The number of a new fence is
one more than the timeline's value, or than the number of the last fence on the list; but fences
leave the list when they are released.
-/
namespace MediaModules.Timeline

open Lib.Run

/-- `struct sync_pt` with its fence. `signaled` and `enabled` are the flags of the fence that
say it is signalled and has its signalling enabled. -/
structure SyncPt where
  seqno : Nat := 0
  timestamp : Nat := 0
  signaled : Bool := false
  enabled : Bool := false
deriving DecidableEq, Repr

/-- `struct sync_timeline`. -/
structure SyncTimeline where
  value : Nat := 0
  timestamp : Nat := 0
  ptList : List Nat := []
  activeList : List Nat := []
deriving DecidableEq, Repr

/-- How the creation of a fence ends: without memory, without a file descriptor, without a sync file,
or well. -/
inductive Creation
  | noMemory
  | noFd
  | noSyncFile
  | done
deriving DecidableEq

/-- The timeline with its fences, the fences given to callers, the latest first, and the number of
increases so far. -/
structure State where
  timeline : SyncTimeline := {}
  pts : Nat → SyncPt := fun _ => {}
  next : Nat := 0
  given : List Nat := []
  increases : Nat := 0

/-- 2^32, the values of a `u32`. -/
def U32 : Nat := 4294967296

/-- Half of them: as far as two numbers may be apart to be compared. -/
def HALF : Nat := 2147483648

section Model

-- `__dma_fence_is_later` for the fences of one timeline
variable (isLater : Nat → Nat → Bool)

namespace State

variable (s : State)

/-- `timeline_fence_signaled`. -/
def timelineFenceSignaled (p : Nat) : Bool :=
  !isLater (s.pts p).seqno s.timeline.value && !((s.pts p).timestamp > s.timeline.timestamp)

/-- `dma_fence_is_signaled`. -/
def isSignaled (p : Nat) : Bool := (s.pts p).signaled || s.timelineFenceSignaled isLater p

/-- The number of the next fence, in `vdec_timeline_create_fence`. -/
def nextSeqno : Nat :=
  let value := (s.timeline.value + 1) % U32
  match s.timeline.ptList.getLast? with
  | none => value
  | some pt => if value ≤ (s.pts pt).seqno then ((s.pts pt).seqno + 1) % U32 else value

/-- `sync_pt_create`. -/
def syncPtCreate (value : Nat) : State :=
  { s with
    pts := fun q => if q = s.next then { seqno := value } else s.pts q
    timeline := { s.timeline with ptList := s.timeline.ptList ++ [s.next] }
    next := s.next + 1 }

/-- `vdec_timeline_create_fence` with `timeline_create_fence`. Without a file descriptor the new
fence stays on the list, without a sync file it is freed. -/
def vdecTimelineCreateFence (now : Nat) : Creation → State
  | .noMemory => s
  | .noFd => s.syncPtCreate s.nextSeqno
  | .noSyncFile => { s with next := s.next + 1 }
  | .done =>
    let t := s.syncPtCreate s.nextSeqno
    { t with
      pts := fun q => if q = s.next then { t.pts q with timestamp := now } else t.pts q
      given := s.next :: s.given }

/-- `timeline_fence_release`, when the last holder puts the fence. -/
def timelineFenceRelease (p : Nat) : State :=
  { s with timeline := { s.timeline with
    ptList := s.timeline.ptList.erase p
    activeList := s.timeline.activeList.erase p } }

/-- The fence is found to be signalled. -/
def markSignaled (ps : List Nat) : State :=
  { s with pts := fun q => if q ∈ ps then { s.pts q with signaled := true } else s.pts q }

/-- A holder waits for the fence: `timeline_fence_enable_signaling` is called once. -/
def enableSignaling (p : Nat) : State :=
  if (s.pts p).signaled || (s.pts p).enabled then s
  else
    let t := { s with pts := fun q => if q = p then { s.pts q with enabled := true } else s.pts q }
    if s.timelineFenceSignaled isLater p then t.markSignaled [p]
    else { t with timeline := { t.timeline with activeList := t.timeline.activeList ++ [p] } }

/-- `sync_timeline_signal`. -/
def syncTimelineSignal (inc : Nat) : State :=
  let s := { s with timeline := { s.timeline with value := (s.timeline.value + inc) % U32 } }
  let done := s.timeline.activeList.filter (s.isSignaled isLater)
  { s.markSignaled done with timeline := { s.timeline with
    activeList := s.timeline.activeList.filter fun p => !s.isSignaled isLater p } }

/-- `vdec_timeline_increase`. -/
def vdecTimelineIncrease (now inc : Nat) : State :=
  { s with timeline := { s.timeline with timestamp := now } }.syncTimelineSignal isLater inc

end State

inductive Op
  | create (now : Nat) (outcome : Creation)
  | release (p : Nat)
  | wait (p : Nat)
  | increase (now : Nat)

/-- One call. A fence can be released or waited for only while it is on the list. -/
def step (s : State) : Op → Option State
  | .create now outcome => some (s.vdecTimelineCreateFence now outcome)
  | .release p => if p ∈ s.timeline.ptList then some (s.timelineFenceRelease p) else none
  | .wait p => if p ∈ s.timeline.ptList then some (s.enableSignaling isLater p) else none
  | .increase now =>
    some { s.vdecTimelineIncrease isLater now 1 with increases := s.increases + 1 }

end Model

/-! ## Numbers and increases -/

/-- The numbers of the fences strictly increase, and a fence is signalled no earlier than the
increase of its rank. -/
structure InOrder (isLater : Nat → Nat → Bool) (s : State) : Prop where
  increasing : ∀ p older, p :: older <:+ s.given → ∀ q ∈ older, (s.pts q).seqno < (s.pts p).seqno
  signaled : ∀ p older, p :: older <:+ s.given → s.isSignaled isLater p = true →
    older.length + 1 ≤ s.increases

/-- The last fence created is still on the list, or the timeline has reached its number; and the
numbers do not run round. -/
def Numbering (s : State) : Op → Prop
  | .create _ .done =>
    (∀ p, s.given.head? = some p → (s.pts p).seqno ≤ s.timeline.value ∨
      ∃ q, s.timeline.ptList.getLast? = some q ∧ (s.pts p).seqno ≤ (s.pts q).seqno) ∧
    s.timeline.value + 1 < U32 ∧ ∀ q, s.timeline.ptList.getLast? = some q →
      (s.pts q).seqno + 1 < U32 ∧ (s.pts q).seqno + 1 < s.timeline.value + HALF
  | _ => True

/-- What the numbers and the value of the timeline have to do with the increases. -/
structure Numbered (s : State) : Prop where
  value_lt : s.timeline.value < U32
  value_eq : s.increases < U32 → s.timeline.value = s.increases
  given_lt : ∀ p ∈ s.given, p < s.next
  small : ∀ p ∈ s.given, (s.pts p).seqno < U32
  increasing : ∀ p older, p :: older <:+ s.given → ∀ q ∈ older, (s.pts q).seqno < (s.pts p).seqno
  counted : ∀ p older, p :: older <:+ s.given → older.length < (s.pts p).seqno
  near : s.increases < U32 → ∀ p ∈ s.given, (s.pts p).seqno < s.timeline.value + HALF
  flagged : ∀ p older, p :: older <:+ s.given → (s.pts p).signaled = true →
    older.length + 1 ≤ s.increases

section Steps

variable {isLater : Nat → Nat → Bool} {s t : State}

/-- A signalled fence has a rank the increases have reached. -/
theorem Numbered.rank_le (hlater : ∀ a b, a < U32 → b < a → a < b + HALF → isLater a b = true)
    (h : Numbered s) {p : Nat} {older : List Nat} (hp : p :: older <:+ s.given)
    (hs : s.isSignaled isLater p = true) : older.length + 1 ≤ s.increases := by
  have hcount := h.counted p older hp
  have hmem : p ∈ s.given := hp.subset List.mem_cons_self
  have hsmall := h.small p hmem
  rcases Bool.or_eq_true_iff.mp hs with hflag | hvalue
  · exact h.flagged p older hp hflag
  · by_contra hlt
    have hinc : s.increases < U32 := by omega
    have heq := h.value_eq hinc
    have hnot := (Bool.and_eq_true_iff.mp hvalue).1
    rw [hlater _ _ hsmall (by omega) (h.near hinc p hmem)] at hnot
    exact absurd hnot (by decide)

theorem Numbered.inOrder (hlater : ∀ a b, a < U32 → b < a → a < b + HALF → isLater a b = true)
    (h : Numbered s) : InOrder isLater s :=
  ⟨h.increasing, fun _ _ hp hs => h.rank_le hlater hp hs⟩

/-- Nothing but flags and lists changes. -/
theorem Numbered.keep (h : Numbered s) (hvalue : t.timeline.value = s.timeline.value)
    (hgiven : t.given = s.given) (hinc : t.increases = s.increases) (hnext : s.next ≤ t.next)
    (hseqno : ∀ p ∈ s.given, (t.pts p).seqno = (s.pts p).seqno)
    (hflag : ∀ p older, p :: older <:+ s.given → (t.pts p).signaled = true →
      older.length + 1 ≤ s.increases) : Numbered t := by
  have hmem {p : Nat} {older : List Nat} (hp : p :: older <:+ s.given) : p ∈ s.given :=
    hp.subset List.mem_cons_self
  refine ⟨hvalue ▸ h.value_lt, fun hlt => ?_, fun p hp => ?_, fun p hp => ?_,
    fun p older hp q hq => ?_, fun p older hp => ?_, fun hlt p hp => ?_, fun p older hp hf => ?_⟩
  · rw [hvalue, hinc]
    exact h.value_eq (hinc ▸ hlt)
  · exact Nat.lt_of_lt_of_le (h.given_lt p (hgiven ▸ hp)) hnext
  · rw [hgiven] at hp
    rw [hseqno p hp]
    exact h.small p hp
  · rw [hgiven] at hp
    rw [hseqno p (hmem hp), hseqno q (hp.subset (List.mem_cons_of_mem p hq))]
    exact h.increasing p older hp q hq
  · rw [hgiven] at hp
    rw [hseqno p (hmem hp)]
    exact h.counted p older hp
  · rw [hgiven] at hp
    rw [hseqno p hp, hvalue]
    exact h.near (hinc ▸ hlt) p hp
  · rw [hinc]
    exact hflag p older (hgiven ▸ hp) hf

theorem Numbered.markSignaled
    (hlater : ∀ a b, a < U32 → b < a → a < b + HALF → isLater a b = true) (h : Numbered s)
    (ps : List Nat) (hps : ∀ p ∈ ps, s.isSignaled isLater p = true) :
    Numbered (s.markSignaled ps) := by
  refine h.keep rfl rfl rfl (Nat.le_refl _) (fun p _ => ?_) fun p older hp hf => ?_
  · unfold State.markSignaled
    dsimp only
    split <;> rfl
  · unfold State.markSignaled at hf
    dsimp only at hf
    split at hf
    · next hmem => exact h.rank_le hlater hp (hps p hmem)
    · exact h.flagged p older hp hf

theorem Numbered.increase (h : Numbered s) (now : Nat) :
    Numbered { s with
      timeline := { s.timeline with value := (s.timeline.value + 1) % U32, timestamp := now }
      increases := s.increases + 1 } := by
  have hpos : 0 < U32 := by decide
  have hvalue (hlt : s.increases + 1 < U32) :
      (s.timeline.value + 1) % U32 = s.timeline.value + 1 := by
    have heq := h.value_eq (by omega)
    exact Nat.mod_eq_of_lt (by omega)
  refine ⟨Nat.mod_lt _ hpos, fun hlt => ?_, h.given_lt, h.small, h.increasing, h.counted,
    fun hlt p hp => ?_, fun p older hp hf => ?_⟩
  · dsimp only at hlt ⊢
    rw [hvalue hlt, h.value_eq (by omega)]
  · dsimp only at hlt ⊢
    rw [hvalue hlt]
    have hnear := h.near (by omega) p hp
    omega
  · have hle := h.flagged p older hp hf
    exact Nat.le_succ_of_le hle

/-- The number of the next fence when the numbers do not run round. -/
theorem nextSeqno_spec (hvalue : s.timeline.value + 1 < U32)
    (hlast : ∀ q, s.timeline.ptList.getLast? = some q →
      (s.pts q).seqno + 1 < U32 ∧ (s.pts q).seqno + 1 < s.timeline.value + HALF) :
    s.timeline.value < s.nextSeqno ∧ s.nextSeqno < U32 ∧
      s.nextSeqno < s.timeline.value + HALF ∧
      ∀ q, s.timeline.ptList.getLast? = some q → (s.pts q).seqno < s.nextSeqno := by
  have hhalf : 1 < HALF := by decide
  unfold State.nextSeqno
  dsimp only
  rw [Nat.mod_eq_of_lt hvalue]
  cases hq : s.timeline.ptList.getLast? with
  | none =>
    show s.timeline.value < s.timeline.value + 1 ∧ s.timeline.value + 1 < U32 ∧
      s.timeline.value + 1 < s.timeline.value + HALF ∧ _
    exact ⟨by omega, hvalue, by omega, nofun⟩
  | some q =>
    obtain ⟨h1, h2⟩ := hlast q hq
    dsimp only
    rw [Nat.mod_eq_of_lt h1]
    split
    · refine ⟨by omega, h1, h2, fun r hr => ?_⟩
      rw [← Option.some.inj hr]
      exact Nat.lt_succ_self _
    · refine ⟨by omega, hvalue, by omega, fun r hr => ?_⟩
      rw [← Option.some.inj hr]
      omega

/-- A fence created under the condition gets a number above all others. -/
theorem Numbered.create (h : Numbered s) (now : Nat) (hok : Numbering s (.create now .done)) :
    Numbered (s.vdecTimelineCreateFence now .done) := by
  obtain ⟨hhead, hvalue, hlast⟩ := hok
  obtain ⟨hgt, hsmall, hnear, habove⟩ := nextSeqno_spec hvalue hlast
  -- the latest number is below the new one
  have hlatest : ∀ p, s.given.head? = some p → (s.pts p).seqno < s.nextSeqno := by
    intro p hp
    rcases hhead p hp with hle | ⟨q, hq, hle⟩
    · omega
    · exact Nat.lt_of_le_of_lt hle (habove q hq)
  have hall : ∀ q ∈ s.given, (s.pts q).seqno < s.nextSeqno := by
    intro q hq
    cases hg : s.given with
    | nil => exact absurd (hg ▸ hq) List.not_mem_nil
    | cons p older =>
      have hp := hlatest p (by rw [hg]; rfl)
      rcases List.mem_cons.mp (hg ▸ hq) with rfl | hmem
      · exact hp
      · exact Nat.lt_trans (h.increasing p older (hg ▸ List.suffix_refl _) q hmem) hp
  have hcount : s.given.length < s.nextSeqno := by
    cases hg : s.given with
    | nil => exact Nat.lt_of_le_of_lt (Nat.zero_le _) hgt
    | cons p older =>
      have hp := hlatest p (by rw [hg]; rfl)
      have hc := h.counted p older (hg ▸ List.suffix_refl _)
      rw [List.length_cons]
      omega
  have hnew : (s.vdecTimelineCreateFence now .done).pts s.next =
      { seqno := s.nextSeqno, timestamp := now } := by
    unfold State.vdecTimelineCreateFence State.syncPtCreate
    simp
  have hold {q : Nat} (hq : q ∈ s.given) :
      (s.vdecTimelineCreateFence now .done).pts q = s.pts q := by
    have hne : q ≠ s.next := Nat.ne_of_lt (h.given_lt q hq)
    unfold State.vdecTimelineCreateFence State.syncPtCreate
    simp [hne]
  have hsplit {p : Nat} {older : List Nat} (hp : p :: older <:+ s.next :: s.given) :
      (p = s.next ∧ older = s.given) ∨ p :: older <:+ s.given := by
    rcases List.suffix_cons_iff.mp hp with heq | hp
    · exact Or.inl (List.cons.inj heq)
    · exact Or.inr hp
  refine ⟨h.value_lt, h.value_eq, fun p hp => ?_, fun p hp => ?_, fun p older hp q hq => ?_,
    fun p older hp => ?_, fun hlt p hp => ?_, fun p older hp hf => ?_⟩
  · show p < s.next + 1
    rcases List.mem_cons.mp hp with rfl | hp
    · exact Nat.lt_succ_self _
    · exact Nat.lt_succ_of_lt (h.given_lt p hp)
  · rcases List.mem_cons.mp hp with rfl | hp
    · rw [hnew]
      exact hsmall
    · rw [hold hp]
      exact h.small p hp
  · rcases hsplit hp with ⟨rfl, rfl⟩ | hp
    · rw [hnew, hold hq]
      exact hall q hq
    · rw [hold (hp.subset List.mem_cons_self), hold (hp.subset (List.mem_cons_of_mem p hq))]
      exact h.increasing p older hp q hq
  · rcases hsplit hp with ⟨rfl, rfl⟩ | hp
    · rw [hnew]
      exact hcount
    · rw [hold (hp.subset List.mem_cons_self)]
      exact h.counted p older hp
  · rcases List.mem_cons.mp hp with rfl | hp
    · rw [hnew]
      exact hnear
    · rw [hold hp]
      exact h.near hlt p hp
  · rcases hsplit hp with ⟨rfl, rfl⟩ | hp
    · rw [hnew] at hf
      exact absurd hf (by simp)
    · rw [hold (hp.subset List.mem_cons_self)] at hf
      exact h.flagged p older hp hf

/-- A holder begins to wait. -/
theorem Numbered.enableSignaling
    (hlater : ∀ a b, a < U32 → b < a → a < b + HALF → isLater a b = true) (h : Numbered s)
    (p : Nat) : Numbered (s.enableSignaling isLater p) := by
  unfold State.enableSignaling
  have hen : Numbered { s with
      pts := fun q => if q = p then { s.pts q with enabled := true } else s.pts q } := by
    refine h.keep rfl rfl rfl (Nat.le_refl _) (fun q _ => ?_) fun q older hq hf => ?_
    · dsimp only
      split <;> rfl
    · apply h.flagged q older hq
      dsimp only at hf
      split at hf <;> exact hf
  split
  · exact h
  · dsimp only
    split
    · next hs =>
      apply hen.markSignaled hlater [p]
      intro q hq
      rw [List.mem_singleton.mp hq]
      refine Bool.or_eq_true_iff.mpr (Or.inr ?_)
      rw [← hs]
      unfold State.timelineFenceSignaled
      simp only [if_true]
    · exact hen.keep rfl rfl rfl (Nat.le_refl _) (fun _ _ => rfl) hen.flagged

theorem Numbered.vdecTimelineIncrease
    (hlater : ∀ a b, a < U32 → b < a → a < b + HALF → isLater a b = true) (h : Numbered s)
    (now : Nat) :
    Numbered { s.vdecTimelineIncrease isLater now 1 with increases := s.increases + 1 } := by
  have hmark := (h.increase now).markSignaled hlater
    (s.timeline.activeList.filter (State.isSignaled isLater { s with
      timeline := { s.timeline with value := (s.timeline.value + 1) % U32, timestamp := now } }))
    fun p hp => (List.mem_filter.mp hp).2
  exact hmark.keep rfl rfl rfl (Nat.le_refl _) (fun _ _ => rfl) hmark.flagged

/-- Every call keeps the numbers in order, when it meets the condition. -/
theorem numbered_step (hlater : ∀ a b, a < U32 → b < a → a < b + HALF → isLater a b = true)
    (op : Op) (h : Numbered s) (hok : Numbering s op) (hstep : step isLater s op = some t) :
    Numbered t := by
  cases op with
  | create now outcome =>
    have ht := Option.some.inj hstep
    subst ht
    cases outcome with
    | noMemory => exact h
    | noFd =>
      have hold {q : Nat} (hq : q ∈ s.given) : (s.syncPtCreate s.nextSeqno).pts q = s.pts q :=
        if_neg (Nat.ne_of_lt (h.given_lt q hq))
      refine h.keep rfl rfl rfl (Nat.le_succ _) (fun p hp => ?_) fun p older hp hf => ?_
      · exact congrArg SyncPt.seqno (hold hp)
      · apply h.flagged p older hp
        rw [← hf]
        exact (congrArg SyncPt.signaled (hold (hp.subset List.mem_cons_self))).symm
    | noSyncFile =>
      exact h.keep rfl rfl rfl (Nat.le_succ _) (fun _ _ => rfl) h.flagged
    | done => exact h.create now hok
  | release p =>
    obtain ⟨-, ht⟩ := Option.ite_none_right_eq_some.mp hstep
    have ht := Option.some.inj ht
    subst ht
    exact h.keep rfl rfl rfl (Nat.le_refl _) (fun _ _ => rfl) h.flagged
  | wait p =>
    obtain ⟨-, ht⟩ := Option.ite_none_right_eq_some.mp hstep
    have ht := Option.some.inj ht
    subst ht
    exact h.enableSignaling hlater p
  | increase now =>
    have ht := Option.some.inj hstep
    subst ht
    exact h.vdecTimelineIncrease hlater now

theorem numbered_start : Numbered {} := by
  refine ⟨by decide, fun _ => rfl, nofun, nofun, fun p older hp => ?_, fun p older hp => ?_,
    fun _ => nofun, fun p older hp => ?_⟩ <;>
  exact absurd (List.suffix_nil.mp hp) (List.cons_ne_nil p older)

/-- As long as the last number stays known at each creation and no number runs round, the numbers
increase and no fence is signalled early. -/
theorem fences_in_order
    (hlater : ∀ a b, a < U32 → b < a → a < b + HALF → isLater a b = true) (ops : List Op)
    (hok : Guarded (step isLater) Numbering {} ops) :
    Always (step isLater) (InOrder isLater) {} ops :=
  (always_of_guarded (fun _ op _ h hop hstep => numbered_step hlater op h hop hstep)
    numbered_start hok).imp fun _ h => h.inOrder hlater

end Steps

/-- The comparison of the low 32 bits of two numbers. -/
def laterSeqno (a b : Nat) : Bool :=
  let d := (a + U32 - b % U32) % U32
  0 < d && d < HALF

theorem laterSeqno_of_lt (a b : Nat) (ha : a < U32) (hlt : b < a) (hnear : a < b + HALF) :
    laterSeqno a b = true := by
  have hb : b % U32 = b := Nat.mod_eq_of_lt (Nat.lt_trans hlt ha)
  have hd : (a + U32 - b) % U32 = a - b := by
    rw [show a + U32 - b = a - b + U32 by omega, Nat.add_mod_right]
    exact Nat.mod_eq_of_lt (by omega)
  unfold laterSeqno
  rw [hb, hd]
  simp only [Bool.and_eq_true, decide_eq_true_eq]
  omega

/-- A fence, the increase that signals it, its release, and the next fence. -/
theorem fences_in_order_released : ∃ t,
    run (step laterSeqno) {} [.create 1 .done, .increase 2, .release 0, .create 3 .done] = some t ∧
      InOrder laterSeqno t := by
  refine ⟨_, rfl, always_last (fences_in_order laterSeqno_of_lt
    [.create 1 .done, .increase 2, .release 0, .create 3 .done] ?_) rfl⟩
  refine ⟨⟨nofun, by decide, nofun⟩, fun s1 h1 => ⟨trivial, fun s2 h2 => ⟨trivial, fun s3 h3 => ?_⟩⟩⟩
  rw [← Option.some.inj h1] at h2
  rw [← Option.some.inj h2] at h3
  rw [← Option.some.inj h3]
  refine ⟨⟨fun p hp => Or.inl ?_, by decide, nofun⟩, fun _ _ => trivial⟩
  rw [← Option.some.inj hp]
  decide

/-- A fence released before the timeline reaches it leaves its number to the next. -/
theorem released_number_again : ¬ ∀ ops, Always (step laterSeqno) (InOrder laterSeqno) {} ops := by
  intro h
  have hrun := always_last (h [.create 1 .done, .release 0, .create 2 .done]) rfl
  exact absurd (hrun.increasing 1 [0] (List.suffix_refl _) 0 List.mem_cons_self) (by decide)

end MediaModules.Timeline
