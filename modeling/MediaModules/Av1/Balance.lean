import MediaModules.Av1.FrameBuffers

/-!
# The balance of the AV1 reference counts

The counts survive every step that meets a short condition: the next map is empty whenever it is
filled or reset, a header has at most eight refresh flags, and a slot that is created anew finds a
free buffer.
-/
namespace MediaModules.Av1

open MediaModules.Lib.RefCount
open MediaModules.Lib.Run
open scoped BigOperators

/-- The references to a buffer. -/
def refs (s : Decoder) (b : Nat) : Int :=
  names s.refFrameMap b + names s.nextRefFrameMap b + named s.curFrame b + named s.outputFrame b

def Counted (s : Decoder) : Prop := ∀ b, s.refCount b = refs s b

def NextEmpty (s : Decoder) : Prop := ∀ k, s.nextRefFrameMap k = none

/-- The state of a header before its slots are created. -/
def beforeSlots (s : Decoder) (p : Params) : Decoder :=
  readRefreshFlags (startFrame (if s.seqParams.reducedStillPictureHdr then s
    else { s with showExistingFrame := false, resetDecoderState := false }) p) p

/-- A slot that loses its buffer finds a free one. -/
def SlotOk (p : Params) (s : Decoder) (k : Fin REF_FRAMES) : Prop :=
  s.Missing p k → s.refFrameMap k ≠ none →
    getFreeFb (decreaseRefCount s (s.refFrameMap k)) ≠ none

/-- The condition on a frame shown again: a key frame fills the next map. -/
def ShowOk (s : Decoder) (p : Params) : Prop :=
  ∀ buf ∈ s.refFrameMap p.existingFrameIdx, s.frameType buf = .key → NextEmpty s

/-- The condition on a frame to decode. -/
def DecodeOk (s : Decoder) (p : Params) : Prop :=
  NextEmpty s ∧ (beforeSlots s p).refreshFrameFlags < 256 ∧
    ((beforeSlots s p).ReadsHints →
      Guarded (fun s k => some (createSlot s p k)) (SlotOk p) (beforeSlots s p)
        (List.finRange REF_FRAMES))

/-- The condition on a header for which a buffer was taken. -/
def FrameOk (s : Decoder) (p : Params) : Prop :=
  if s.seqParams.reducedStillPictureHdr = false ∧ p.showExistingFrame = true then ShowOk s p
  else DecodeOk s p

/-- A frame header finds the next map empty if it fills it, has at most eight refresh flags, and
finds a free buffer for every slot it creates anew. -/
def EventOk (s : System) : Event → Prop
  | .process p obu =>
    (assignCurFrameNewFb (releaseOutput s.decoder)).curFrame ≠ none → obu ≠ .redundantFrameHeader →
      FrameOk (assignCurFrameNewFb (releaseOutput s.decoder)) p
  | _ => True

instance (s : Decoder) : Decidable (NextEmpty s) := inferInstanceAs (Decidable (∀ _, _))

instance (p : Params) (s : Decoder) (k : Fin REF_FRAMES) : Decidable (SlotOk p s k) :=
  inferInstanceAs (Decidable (_ → _ → _))

instance (s : Decoder) (p : Params) : Decidable (ShowOk s p) :=
  inferInstanceAs (Decidable (∀ buf ∈ s.refFrameMap p.existingFrameIdx, _ → _))

instance (s : Decoder) (p : Params) : Decidable (DecodeOk s p) :=
  inferInstanceAs (Decidable (_ ∧ _ ∧ (_ → _)))

instance (s : Decoder) (p : Params) : Decidable (FrameOk s p) :=
  inferInstanceAs (Decidable (if s.seqParams.reducedStillPictureHdr = false ∧
    p.showExistingFrame = true then ShowOk s p else DecodeOk s p))

instance (s : System) : (event : Event) → Decidable (EventOk s event)
  | .sequenceHeader _ => .isTrue trivial
  | .process _ _ => inferInstanceAs (Decidable (_ → _ → _))
  | .postproc _ => .isTrue trivial
  | .display _ => .isTrue trivial

section Operations
variable {s t : Decoder} {p : Params}

theorem getFreeFb_spec {i : Nat} (h : getFreeFb s = some i) : s.IsFree i := by
  have hfree := List.find?_some (p := fun i => decide (s.IsFree i)) h
  exact of_decide_eq_true hfree

theorem names_nextEmpty (h : NextEmpty s) (b : Nat) : names s.nextRefFrameMap b = 0 :=
  names_eq_zero.mpr fun k hk => by rw [h k] at hk; cases hk

theorem releaseOutput_counted (h : Counted s) : Counted (releaseOutput s) := by
  intro b
  have hb := h b
  simp only [refs] at hb
  simp only [releaseOutput, decreaseRefCount, refs, bump_named, named_none, hb]
  omega

/-- Dropping the current frame. -/
theorem dropCurFrame_counted (h : Counted s) :
    Counted { decreaseRefCount s s.curFrame with curFrame := none } := by
  intro b
  have hb := h b
  simp only [refs] at hb
  simp only [decreaseRefCount, refs, bump_named, named_none, hb]
  omega

theorem assignCurFrameNewFb_counted (h : Counted s) : Counted (assignCurFrameNewFb s) := by
  have hdrop := dropCurFrame_counted h
  rw [assignCurFrameNewFb]
  split
  · exact hdrop
  · rename_i i hi
    intro b
    have hfree := (getFreeFb_spec hi).1
    rw [hdrop] at hfree
    have hb := hdrop b
    simp only [refs, named_none] at hfree hb
    simp only [refs, takeFb]
    by_cases he : b = i
    · rw [if_pos he, he, named_self]
      omega
    · have hne : named (some i) b = 0 := if_neg fun h => he (Option.some.inj h).symm
      rw [if_neg he, hne]
      exact hb

theorem assignFrameBufferP_counted (h : Counted s) (buf : Nat) :
    Counted (assignFrameBufferP s buf) := by
  intro b
  have hb := h b
  simp only [refs] at hb
  simp only [assignFrameBufferP, refs, bump_named, hb]
  omega

theorem resetRefFrameMap_counted (h : Counted s) : Counted (resetRefFrameMap s) := by
  intro b
  have hb := h b
  simp only [refs] at hb
  simp only [resetRefFrameMap, refs, foldl_bump, names_none, hb]
  omega

theorem resetFrameBuffers_counted (h : Counted s) (hnext : NextEmpty s) :
    Counted (resetFrameBuffers s) := by
  have hsame : { s with nextRefFrameMap := fun _ => none } = s := by
    have he : s.nextRefFrameMap = fun _ => none := funext hnext
    rw [← he]
  rw [resetFrameBuffers, hsame]
  exact fun b => resetRefFrameMap_counted h b

theorem generate_counted (h : Counted s) (hnext : NextEmpty s)
    (hflags : s.refreshFrameFlags < 256) :
    ∃ t, generateNextRefFrameMap s = some t ∧ Counted t ∧ t.curFrame = s.curFrame ∧
      t.refreshFrameFlags = s.refreshFrameFlags := by
  refine ⟨_, if_pos hflags, fun b => ?_, rfl, rfl⟩
  have hb := h b
  rw [refs, names_nextEmpty hnext] at hb
  simp only [refs, foldl_bump, hb]
  omega

end Operations

/-- In the middle of a header: the counts are right, the next map is empty, and `cur` is decoded. -/
structure Ready (cur : Option Nat) (s : Decoder) : Prop where
  counted : Counted s
  empty : NextEmpty s
  cur : s.curFrame = cur

section Headers
variable {s t : Decoder} {p : Params} {cur : Option Nat}

theorem Ready.resync (h : Ready cur s) : Ready cur (resync s) := by
  unfold Av1.resync
  split
  · exact ⟨fun b => resetRefFrameMap_counted h.counted b, h.empty, h.cur⟩
  · exact h

theorem Ready.startSequence (h : Ready cur s) : Ready cur (startSequence s) := by
  unfold Av1.startSequence
  split
  · have hset : Counted { s with sequenceHeaderChanged := false } := h.counted
    exact ⟨resetFrameBuffers_counted hset h.empty, fun _ => rfl, h.cur⟩
  · exact h

theorem Ready.startFrame (h : Ready cur s) : Ready cur (startFrame s p) := by
  unfold Av1.startFrame
  split
  · have hset : Ready cur { s with
        showExistingFrame := false, showFrame := true, curFrameType := .key } :=
      ⟨h.counted, h.empty, h.cur⟩
    exact ⟨hset.startSequence.counted, hset.startSequence.empty, hset.startSequence.cur⟩
  · have hset : Ready cur { s with curFrameType := p.frameType } := ⟨h.counted, h.empty, h.cur⟩
    exact ⟨hset.startSequence.counted, hset.startSequence.empty, hset.startSequence.cur⟩

theorem Ready.readRefreshFlags (h : Ready cur s) : Ready cur (readRefreshFlags s p) := by
  have hflags : ∀ flags, Ready cur { s with refreshFrameFlags := flags } := fun flags =>
    ⟨h.counted, h.empty, h.cur⟩
  unfold Av1.readRefreshFlags
  split
  · exact (hflags _).resync
  · exact (hflags _).resync
  · split
    · exact h
    · exact hflags _
  · split
    · exact h
    · exact hflags _

/-- A slot that is created anew gives its reference to the old buffer back and names a new one. -/
theorem Ready.createSlot (h : Ready cur s) {k : Fin REF_FRAMES} (hok : SlotOk p s k) :
    Ready cur (createSlot s p k) := by
  unfold Av1.createSlot
  split
  · rename_i hmissing
    dsimp only
    split
    · rename_i hfull
      have hnone : s.refFrameMap k = none := by
        by_contra hne
        exact hok hmissing hne hfull
      refine ⟨fun b => ?_, h.empty, h.cur⟩
      have hb := h.counted b
      simp only [decreaseRefCount, hnone, bump_named, named_none, Int.mul_zero, Int.add_zero]
      exact hb
    · rename_i i hi
      refine ⟨fun b => ?_, h.empty, h.cur⟩
      have hfree := (getFreeFb_spec hi).1
      have hb := h.counted b
      have hupdate := names_update s.refFrameMap k (some i) b
      simp only [decreaseRefCount, bump_named, h.counted i, refs] at hfree
      simp only [refs] at hb
      simp only [refs, takeFb, decreaseRefCount, bump_named]
      by_cases he : b = i
      · rw [he, named_self] at hupdate
        rw [if_pos he, he]
        omega
      · have hne : named (some i) b = 0 := if_neg fun h => he (Option.some.inj h).symm
        rw [if_neg he]
        omega
  · exact h

theorem Ready.createSlots (h : Ready cur s)
    (hok : s.ReadsHints → Guarded (fun s k => some (Av1.createSlot s p k)) (SlotOk p) s
      (List.finRange REF_FRAMES)) : Ready cur (createSlots s p) := by
  unfold Av1.createSlots
  split
  · rename_i hreads
    exact foldl_of_guarded (fun s k h hok => h.createSlot hok) h (hok hreads)
  · exact h

theorem createSlot_flags (s : Decoder) (p : Params) (k : Fin REF_FRAMES) :
    (createSlot s p k).refreshFrameFlags = s.refreshFrameFlags := by
  unfold createSlot
  split
  · dsimp only
    split <;> rfl
  · rfl

theorem createSlots_flags (s : Decoder) (p : Params) :
    (createSlots s p).refreshFrameFlags = s.refreshFrameFlags := by
  have hfold : ∀ (l : List (Fin REF_FRAMES)) (s : Decoder),
      (l.foldl (fun s k => createSlot s p k) s).refreshFrameFlags = s.refreshFrameFlags := by
    intro l
    induction l with
    | nil => exact fun _ => rfl
    | cons k l ih => exact fun s => (ih (createSlot s p k)).trans (createSlot_flags s p k)
  unfold createSlots
  split
  · exact hfold _ s
  · rfl

theorem resync_flags (s : Decoder) : (resync s).refreshFrameFlags = s.refreshFrameFlags := by
  unfold resync
  split <;> rfl

/-- What a header leaves when it is done. -/
structure Decoded (s : Decoder) : Prop where
  counted : Counted s
  flags : s.refreshFrameFlags < 256
  cur : s.curFrame ≠ none

theorem Ready.generate (h : Ready cur s) (hflags : s.refreshFrameFlags < 256) (hcur : cur ≠ none) :
    ∃ t, generateNextRefFrameMap s = some t ∧ Decoded t := by
  obtain ⟨t, ht, hcounted, hc, hf⟩ := generate_counted h.counted h.empty hflags
  refine ⟨t, ht, hcounted, hf.trans_lt hflags, ?_⟩
  rw [hc, h.cur]
  exact hcur

/-- A frame that is shown again is filled into all slots if it is a key frame. -/
theorem showExisting_decoded (h : Decoded s)
    (hok : ∀ buf, s.refFrameMap p.existingFrameIdx = some buf → s.frameType buf = .key →
      NextEmpty s) : ∃ t, showExisting s p = some t ∧ Decoded t := by
  unfold showExisting
  split
  · exact ⟨s, rfl, h⟩
  · rename_i buf hbuf
    have hassign := assignFrameBufferP_counted h.counted buf
    by_cases hkey : s.frameType buf = FrameType.key
    · have hready : Ready (some buf) { assignFrameBufferP s buf with
          resetDecoderState := true, showFrame := true, curFrameType := .key,
          refreshFrameFlags := 255 } := ⟨hassign, hok buf hbuf hkey, rfl⟩
      have hfew : (255 : Nat) < 256 := by decide
      obtain ⟨t, ht, hdec⟩ := hready.resync.generate (by rw [resync_flags]; exact hfew)
        (Option.some_ne_none buf)
      refine ⟨t, ?_, hdec⟩
      have hset : decide (s.frameType buf = FrameType.key) = true := decide_eq_true hkey
      simp only [hset, if_true]
      exact ht
    · have hset : decide (s.frameType buf = FrameType.key) = false := decide_eq_false hkey
      simp only [hset]
      exact ⟨_, rfl, hassign, Nat.zero_lt_succ 255, Option.some_ne_none buf⟩

/-- A header for which a buffer was taken. -/
theorem decode_decoded (h : Decoded s) (hok : FrameOk s p) :
    ∃ t, av1DecodeFrameHeadersAndSetup s p = some t ∧ Decoded t := by
  unfold FrameOk at hok
  unfold av1DecodeFrameHeadersAndSetup
  split at hok
  · rename_i hshow
    rw [if_pos hshow]
    have hset : Decoded { s with showExistingFrame := true, resetDecoderState := false } :=
      ⟨h.counted, h.flags, h.cur⟩
    exact showExisting_decoded hset hok
  · rename_i hshow
    obtain ⟨hempty, hflags, hslots⟩ := hok
    rw [if_neg hshow]
    have hstart : Ready s.curFrame (if s.seqParams.reducedStillPictureHdr then s
        else { s with showExistingFrame := false, resetDecoderState := false }) := by
      split <;> exact ⟨h.counted, hempty, rfl⟩
    have hbefore : Ready s.curFrame (beforeSlots s p) := hstart.startFrame.readRefreshFlags
    have hcreated := hbefore.createSlots hslots
    have hset : Ready s.curFrame { createSlots (beforeSlots s p) p with
        orderHint := fun b => if (createSlots (beforeSlots s p) p).curFrame = some b then
          (createSlots (beforeSlots s p) p).curOrderHint
          else (createSlots (beforeSlots s p) p).orderHint b
        frameType := fun b => if (createSlots (beforeSlots s p) p).curFrame = some b then
          (createSlots (beforeSlots s p) p).curFrameType
          else (createSlots (beforeSlots s p) p).frameType b } :=
      ⟨hcreated.counted, hcreated.empty, hcreated.cur⟩
    have hfl : (createSlots (beforeSlots s p) p).refreshFrameFlags < 256 := by
      rw [createSlots_flags]
      exact hflags
    exact hset.generate hfl h.cur

end Headers

section Runs
variable {s : Decoder}

theorem releaseOutput_flags (s : Decoder) :
    (assignCurFrameNewFb (releaseOutput s)).refreshFrameFlags = s.refreshFrameFlags := by
  unfold assignCurFrameNewFb
  dsimp only
  split <;> rfl

/-- A frame header keeps the counts, and leaves a frame to finish unless it returns -1. -/
theorem process_counted {p : Params} {obu : ObuType} (h : Counted s)
    (hflags : s.refreshFrameFlags < 256)
    (hok : (assignCurFrameNewFb (releaseOutput s)).curFrame ≠ none → obu ≠ .redundantFrameHeader →
      FrameOk (assignCurFrameNewFb (releaseOutput s)) p) :
    ∃ r, av1BufmgrProcess s p obu = some r ∧ Counted r.2 ∧ r.2.refreshFrameFlags < 256 ∧
      (r.1 ≠ -1 → r.2.curFrame ≠ none) := by
  have hassign := assignCurFrameNewFb_counted (releaseOutput_counted h)
  have hfl := (releaseOutput_flags s).trans_lt hflags
  unfold av1BufmgrProcess
  dsimp only
  split
  · exact ⟨_, rfl, hassign, hfl, fun hne => absurd rfl hne⟩
  · rename_i hcur
    split
    · exact ⟨_, rfl, hassign, hfl, fun hne => absurd rfl hne⟩
    · rename_i hobu
      obtain ⟨t, ht, hdec⟩ := decode_decoded ⟨hassign, hfl, hcur⟩ (hok hcur hobu)
      rw [ht, Option.map_some]
      split
      · exact ⟨_, rfl, hdec.counted, hdec.flags, fun _ => hdec.cur⟩
      · exact ⟨_, rfl, hdec.counted, hdec.flags, fun _ => hdec.cur⟩

theorem swapMaps_counted (h : Counted s) (hflags : s.refreshFrameFlags < 256) :
    ∃ t, swapMaps s = some t ∧ Counted t ∧ t.refreshFrameFlags = s.refreshFrameFlags ∧
      t.curFrame = s.curFrame := by
  refine ⟨_, if_pos hflags, fun b => ?_, rfl, rfl⟩
  have hb := h b
  -- a slot that is exchanged gives up its old name, and the next map gives it the new one
  have hslots : names s.refFrameMap b + names s.nextRefFrameMap b =
      names (fun k => if s.Walked k then s.nextRefFrameMap k else s.refFrameMap k) b +
        names (fun k => if s.Walked k then none else s.nextRefFrameMap k) b +
        names (fun k => if s.Walked k then s.refFrameMap k else none) b := by
    simp only [names, ← Finset.sum_add_distrib]
    apply Finset.sum_congr rfl
    intro k _
    split
    · rw [named_none]
      omega
    · rw [named_none]
      omega
  simp only [refs] at hb
  simp only [refs, foldl_bump, hb]
  omega

theorem outputCurFrame_counted (h : Counted s) (hcur : s.curFrame ≠ none) :
    Counted { outputCurFrame s with curFrame := none } := by
  by_cases hshow : s.showExistingFrame = true ∨ s.showFrame = true
  · have hout : outputCurFrame s =
        { decreaseRefCount s s.outputFrame with outputFrame := s.curFrame } := by
      rw [outputCurFrame, if_pos hshow]
      exact if_neg hcur
    rw [hout]
    intro b
    have hb := h b
    simp only [refs] at hb
    simp only [decreaseRefCount, refs, bump_named, named_none, hb]
    omega
  · have hout : outputCurFrame s = decreaseRefCount s s.curFrame := by
      rw [outputCurFrame, if_neg hshow]
    rw [hout]
    exact dropCurFrame_counted h

theorem swapFrameBuffers_counted (h : Counted s) (hflags : s.refreshFrameFlags < 256)
    (hcur : s.curFrame ≠ none) (frameDecoded : Bool) :
    ∃ t, swapFrameBuffers s frameDecoded = some t ∧ Counted t ∧ t.refreshFrameFlags < 256 := by
  cases frameDecoded with
  | false => exact ⟨_, rfl, dropCurFrame_counted h, hflags⟩
  | true =>
    obtain ⟨t, ht, hcounted, hfl, hc⟩ := swapMaps_counted h hflags
    have hout : (outputCurFrame t).refreshFrameFlags = t.refreshFrameFlags := by
      unfold outputCurFrame
      dsimp only
      split
      · split <;> rfl
      · rfl
    refine ⟨{ outputCurFrame t with curFrame := none }, ?_, outputCurFrame_counted hcounted ?_, ?_⟩
    · rw [swapFrameBuffers, if_pos rfl, ht, Option.map_some]
    · rw [hc]
      exact hcur
    · show (outputCurFrame t).refreshFrameFlags < 256
      rw [hout, hfl]
      exact hflags

/-- Between two calls: the counts are right, and a frame that is due is there. -/
structure Sound (s : System) : Prop where
  counted : Counted s.decoder
  flags : s.decoder.refreshFrameFlags < 256
  due : s.due = true → s.decoder.curFrame ≠ none

theorem Sound.balanced {s : System} (h : Sound s) : Balanced s.decoder := by
  refine ⟨h.counted, fun i hi k hk => ?_, fun b _ href hnext hcur hout hvf => ⟨?_, hvf⟩⟩
  · have hzero := (getFreeFb_spec hi).1
    have hpos := names_pos hk
    have hnext := names_nonneg s.decoder.nextRefFrameMap i
    have hcur := named_nonneg s.decoder.curFrame i
    have hout := named_nonneg s.decoder.outputFrame i
    rw [h.counted i, refs] at hzero
    omega
  · rw [h.counted b, refs, names_eq_zero.mpr href, names_eq_zero.mpr hnext]
    have hcur' : named s.decoder.curFrame b = 0 := if_neg hcur
    have hout' : named s.decoder.outputFrame b = 0 := if_neg hout
    omega

theorem start_sound : Sound {} where
  counted b := by simp [refs]
  flags := by decide
  due h := by cases h

theorem step_sound {s : System} {event : Event} (h : Sound s) (horder : InOrder s event)
    (hok : EventOk s event) : ∃ s', step s event = some s' ∧ Sound s' := by
  cases event with
  | sequenceHeader hdr =>
    have hreleased := releaseOutput_counted h.counted
    refine ⟨_, rfl, ?_, ?_, fun hdue => ?_⟩
    · cases hdr <;> exact hreleased
    · cases hdr <;> exact h.flags
    · rw [show s.due = false from horder] at hdue
      cases hdue
  | process p obu =>
    obtain ⟨r, hr, hcounted, hfl, hcur⟩ := process_counted h.counted h.flags hok
    refine ⟨_, by rw [step, hr, Option.map_some], hcounted, hfl, fun hdue => ?_⟩
    exact hcur (of_decide_eq_true hdue)
  | postproc frameDecoded =>
    obtain ⟨t, ht, hcounted, hfl⟩ :=
      swapFrameBuffers_counted h.counted h.flags (h.due horder) frameDecoded
    refine ⟨_, by rw [step, ht, Option.map_some], hcounted, hfl, fun hdue => ?_⟩
    cases hdue
  | display d => cases d <;> exact ⟨_, rfl, h.counted, h.flags, h.due⟩

/-- Over any calls in order that meet the condition, the count of every buffer is the number of its
references after every call. -/
theorem counts_match (events : List Event) (horder : Guarded step InOrder {} events)
    (hok : Guarded step EventOk {} events) :
    (∃ t, run step {} events = some t) ∧ Always step (fun s => Balanced s.decoder) {} events := by
  have hboth := defined_of_guarded (P := Sound)
    (fun s event h hboth => step_sound h hboth.1 hboth.2) start_sound
    (guarded_and.mpr ⟨horder, hok⟩)
  exact ⟨hboth.1, hboth.2.imp fun _ h => h.balanced⟩

/-- A key frame that is shown. -/
def keyFrame : Params :=
  { showExistingFrame := false, existingFrameIdx := ⟨0, by decide⟩, frameType := .key,
    showFrame := true, errorResilientMode := false, refreshFrameFlags := 0, orderHint := 0,
    refOrderHint := fun _ => 0 }

/-- A sequence, a key frame, and an error resilient frame that creates seven slots anew. -/
def createdSlots : List Event :=
  [.sequenceHeader (some { enableOrderHint := true }), .process keyFrame .frame, .postproc true,
   .process { keyFrame with
     frameType := .inter, errorResilientMode := true, refreshFrameFlags := 1, orderHint := 9
     refOrderHint := fun k => k.val } .frame, .postproc true]

theorem counts_match_created :
    (∃ t, run step {} createdSlots = some t) ∧
      Always step (fun s => Balanced s.decoder) {} createdSlots :=
  counts_match createdSlots (by decide +kernel) (by decide +kernel)

/-- A key frame that is not decoded, and another one. -/
def undecodedFrame : List Event :=
  [.sequenceHeader (some {}), .process keyFrame .frame, .postproc false, .process keyFrame .frame]

/-- The references of the next map are overwritten: buffer 0 keeps a count of 8 that nothing stands
for. -/
theorem next_map_overwritten :
    Guarded step InOrder {} undecodedFrame ∧
      (run step {} undecodedFrame).map (fun t => (t.decoder.refCount 0, refs t.decoder 0)) =
        some (8, 0) ∧
      ¬ ((∃ t, run step {} undecodedFrame = some t) ∧
        Always step (fun s => Balanced s.decoder) {} undecodedFrame) := by
  have hread : (run step {} undecodedFrame).map (fun t =>
      (t.decoder.refCount 0, refs t.decoder 0)) = some (8, 0) := by decide +kernel
  refine ⟨by decide +kernel, hread, ?_⟩
  rintro ⟨⟨t, ht⟩, halways⟩
  have hlast := read_of_run _ hread ht
  simp only [Prod.mk.injEq] at hlast
  have hcount := (always_last halways ht).counts 0
  rw [hlast.1] at hcount
  have hrefs := hlast.2
  rw [refs] at hrefs
  omega

end Runs

end MediaModules.Av1
