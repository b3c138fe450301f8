import MediaModules.H264Dpb.Pairing
import MediaModules.H264Dpb.Slices
import MediaModules.Lib.Handover

/-!
# Every frame store is shown once

`pre_output` and `is_output` are all the buffer remembers of a hand-over. Putting the second field
of a pair into its store rewrites both, so a store whose first field was handed over already is
handed over again. Between two such slips a store is handed to `prepare_display_buf` at most once
from its insertion to its removal.
-/
namespace MediaModules.H264Dpb

open MediaModules.Lib.Handover (Entry Once Balanced sinceClosed)

/-- What an event is to a frame store: it is handed over, or its turn ends. -/
def Event.entry : Event → Option (Entry Nat)
  | .handed i => some (.handed i)
  | .removed i => some (.closed i)
  | .noPicture => none

/-- What the hand-overs depend on. -/
structure Custody where
  used : List Nat
  waiting : Nat → Bool
  log : List (Entry Nat)
  answers : List Display
  withoutDisplay : Bool

namespace Custody

/-- A frame store may be handed over some day: it waits, or it is free for another picture. -/
def Pending (c : Custody) (i : Nat) : Prop := i ∉ c.used ∨ c.waiting i = true

/-- No pending store was handed over in its turn, and the display takes and shows every frame. -/
structure Sound (c : Custody) : Prop where
  balanced : Balanced c.Pending c.log
  accepted : ∀ d ∈ c.answers, d.accepted = true ∧ d.showFrame = true
  displayed : c.withoutDisplay = false

/-- Nothing is handed over and no store becomes pending. -/
structure Calm (c c' : Custody) : Prop where
  used : c'.used = c.used
  waiting : ∀ i, c'.waiting i = true → c.waiting i = true
  log : c'.log = c.log
  answers : c'.answers = c.answers
  withoutDisplay : c'.withoutDisplay = c.withoutDisplay

variable {c c' c'' : Custody}

theorem Calm.refl (c : Custody) : Calm c c := ⟨rfl, fun _ h => h, rfl, rfl, rfl⟩

theorem Calm.trans (h : Calm c c') (h' : Calm c' c'') : Calm c c'' where
  used := h'.used.trans h.used
  waiting i hi := h.waiting i (h'.waiting i hi)
  log := h'.log.trans h.log
  answers := h'.answers.trans h.answers
  withoutDisplay := h'.withoutDisplay.trans h.withoutDisplay

theorem Sound.calm (h : c.Sound) (hc : Calm c c') : c'.Sound := by
  refine ⟨?_, hc.answers ▸ h.accepted, hc.withoutDisplay ▸ h.displayed⟩
  rw [hc.log]
  apply h.balanced.mono
  intro i hi
  rcases hi with hi | hi
  · exact Or.inl (hc.used ▸ hi)
  · exact Or.inr (hc.waiting i hi)

end Custody

namespace Dpb

open MediaModules.H264Dpb

/-- The log without the pictures asked for in vain. -/
theorem log_happens (trace : List Event) :
    (trace.filter Event.happens).filterMap Event.entry = trace.filterMap Event.entry := by
  rw [List.filterMap_filter]
  apply List.filterMap_congr
  intro e _
  cases e <;> rfl

def custody (s : Dpb) : Custody where
  used := s.used
  waiting := s.waiting
  log := s.trace.filterMap Event.entry
  answers := s.answers
  withoutDisplay := s.config.withoutDisplayMode

variable {s t : Dpb}

theorem custody_of_unmarked (h : t.unmarked = s.unmarked) : t.custody = s.custody :=
  show t.unmarked.custody = s.unmarked.custody from congrArg custody h

theorem custody_modifyPic (s : Dpb) (p : Option Nat) (f : StorablePicture → StorablePicture) :
    (s.modifyPic p f).custody = s.custody := by
  cases p <;> rfl

theorem custody_modifyStore (s : Dpb) {f : FrameStore → FrameStore}
    (h : ∀ fs, ((f fs).isOutput, (f fs).preOutput) = (fs.isOutput, fs.preOutput)) (i : Nat) :
    (s.modifyStore i f).custody = s.custody := by
  have hwaiting : (s.modifyStore i f).waiting = s.waiting := by
    funext j
    have hflags := modifyStore_read s (fun fs => (fs.isOutput, fs.preOutput)) h i j
    rw [Prod.mk.injEq] at hflags
    unfold waiting
    rw [hflags.1, hflags.2]
  exact congrArg (fun waiting => { s.custody with waiting := waiting }) hwaiting

/-! ## Handing over -/

theorem calm_setFrameOutputFlag (s : Dpb) (index : Nat) :
    Custody.Calm s.custody (s.setFrameOutputFlag index).custody := by
  refine ⟨rfl, fun i hi => ?_, rfl, rfl, rfl⟩
  have hi : (!((s.setFrameOutputFlag index).stores i).isOutput &&
    !((s.setFrameOutputFlag index).stores i).preOutput) = true := hi
  unfold setFrameOutputFlag at hi
  rw [modifyStore_stores] at hi
  split at hi
  · exact absurd (show false = true from hi) (by decide)
  · exact hi

theorem calm_returned (s : Dpb) (returned : List Nat) :
    Custody.Calm s.custody (returned.foldl setFrameOutputFlag s).custody := by
  induction returned generalizing s with
  | nil => exact .refl _
  | cons i rest ih => exact (calm_setFrameOutputFlag s i).trans (ih _)

/-- A store the display shows, or has returned, is one it shows or has returned whatever else it
returns. -/
theorem shown_returned {i : Nat} (returned : List Nat)
    (h : (s.stores i).isOutput = true ∨ (s.stores i).showFrame = true) :
    ((returned.foldl setFrameOutputFlag s).stores i).isOutput = true ∨
      ((returned.foldl setFrameOutputFlag s).stores i).showFrame = true := by
  induction returned generalizing s with
  | nil => exact h
  | cons j rest ih =>
    apply ih
    unfold setFrameOutputFlag
    rw [modifyStore_stores]
    split
    · exact Or.inl rfl
    · exact h

theorem custody_markFirstOutput (s : Dpb) (i : Nat) :
    (s.markFirstOutput i).custody = s.custody := by
  unfold markFirstOutput
  split
  · split
    · rw [custody_modifyStore]
      exact fun _ => rfl
    · split <;> rfl
  · rfl

theorem calm_modifyStore (s : Dpb) {f : FrameStore → FrameStore}
    (h : ∀ fs, (f fs).isOutput = fs.isOutput ∧ (fs.preOutput = true → (f fs).preOutput = true))
    (i : Nat) : Custody.Calm s.custody (s.modifyStore i f).custody := by
  refine ⟨rfl, fun j hj => ?_, rfl, rfl, rfl⟩
  have hj : (s.modifyStore i f).waiting j = true := hj
  show s.waiting j = true
  unfold waiting at hj ⊢
  rw [modifyStore_stores] at hj
  split at hj
  · next hji =>
    obtain ⟨hout, hpre⟩ := h (s.stores i)
    rw [hout, Bool.and_eq_true, Bool.not_eq_true', Bool.not_eq_true'] at hj
    rw [hji, hj.1, Bool.not_false, Bool.true_and, Bool.not_eq_true']
    exact Bool.eq_false_iff.mpr fun hp => by
      rw [hpre hp] at hj
      exact absurd hj.2 (by decide)
  · exact hj

/-- The end of a hand-over the display accepts: a frame it shows and has not returned is marked. -/
theorem handed_marked {i : Nat}
    (hshown : (s.stores i).isOutput = true ∨ (s.stores i).showFrame = true)
    (hdisplay : s.config.withoutDisplayMode = false)
    (ht : t = if !s.config.withoutDisplayMode && (s.stores i).showFrame then
        s.modifyStore i fun fs => { fs with preOutput := true } else s) :
    t.waiting i = false ∧ Custody.Calm s.custody t.custody := by
  rw [hdisplay] at ht
  cases hshow : (s.stores i).showFrame with
  | false =>
    rw [hshow] at ht hshown
    have hs : t = s := ht
    have hout := hshown.resolve_right (by decide)
    rw [hs]
    exact ⟨by simp [waiting, hout], .refl _⟩
  | true =>
    rw [hshow] at ht
    have hs : t = s.modifyStore i fun fs => { fs with preOutput := true } := ht
    rw [hs]
    refine ⟨?_, ?_⟩
    · unfold waiting
      rw [modifyStore_stores, if_pos rfl]
      exact Bool.and_false _
    · apply calm_modifyStore
      exact fun _ => ⟨rfl, fun _ => rfl⟩

theorem sound_prepareDisplayBuf {i : Nat} {d : Display} {rest : List Display}
    (hs : s.custody.Sound) (hi : i ∈ s.used) (hw : s.waiting i = true)
    (ha : s.answers = d :: rest) (hv : Custody.Calm { s.custody with
      log := .handed i :: s.custody.log, answers := rest } t.custody)
    (ht : t.waiting i = false) : t.custody.Sound := by
  refine ⟨?_, fun d' hd => ?_, hv.withoutDisplay.trans hs.displayed⟩
  · have hused : t.custody.used = s.used := hv.used
    rw [hv.log]
    apply hs.balanced.hand (Or.inr hw)
    intro j hj
    rcases hj with hj | hj
    · rw [hused] at hj
      exact ⟨Or.inl hj, fun hji => hj (hji ▸ hi)⟩
    · refine ⟨Or.inr (hv.waiting j hj), fun hji => ?_⟩
      have hj : t.waiting i = true := hji ▸ hj
      rw [ht] at hj
      exact absurd hj (by decide)
  · rw [show t.custody.answers = rest from hv.answers] at hd
    apply hs.accepted d'
    show d' ∈ s.answers
    rw [ha]
    exact List.mem_cons_of_mem d hd

theorem sound_handOver {i : Nat} (poc : Int) (hs : s.custody.Sound) (hi : i ∈ s.used)
    (hw : s.waiting i = true) : (s.handOver i poc).2.custody.Sound := by
  have hmark := custody_markFirstOutput s i
  have hi : i ∈ (s.markFirstOutput i).custody.used := by
    rw [hmark]
    exact hi
  have hw : (s.markFirstOutput i).custody.waiting i = true := by
    rw [hmark]
    exact hw
  rw [← hmark] at hs
  unfold handOver
  generalize s.markFirstOutput i = u at hs hi hw
  unfold prepareDisplayBuf
  cases ha : u.answers with
  | nil => exact hs
  | cons d rest =>
    have hmem : d ∈ u.custody.answers := by
      show d ∈ u.answers
      rw [ha]
      exact List.mem_cons_self
    obtain ⟨haccept, hshow⟩ := hs.accepted d hmem
    dsimp only
    rw [haccept, if_pos rfl]
    generalize hx : ({ u with answers := rest, trace := .handed i :: u.trace } : Dpb).modifyStore i
      (fun fs => { fs with
        showFrame := d.showFrame
        dataFlag := if d.errorFlag then fs.dataFlag ||| ERROR_FLAG else fs.dataFlag }) = x
    have hcx : x.custody = { u.custody with
        log := .handed i :: u.custody.log, answers := rest } := by
      rw [← hx, custody_modifyStore]
      · rfl
      · exact fun _ => rfl
    have hsx : (x.stores i).showFrame = true := by
      rw [← hx, modifyStore_stores, if_pos rfl]
      exact hshow
    have hcalm := calm_returned x d.returned
    have hshown := shown_returned d.returned (Or.inr hsx)
    rw [hcx] at hcalm
    generalize d.returned.foldl setFrameOutputFlag x = v at hcalm hshown
    obtain ⟨hwait, hlast⟩ := handed_marked hshown (hcalm.withoutDisplay.trans hs.displayed) rfl
    exact sound_prepareDisplayBuf hs hi hw ha (hcalm.trans hlast) hwait

/-- `get_smallest_poc` finds a used store that waits. -/
theorem getSmallestPoc_spec {i : Nat} {poc : Int} (h : s.getSmallestPoc = (some i, poc)) :
    i ∈ s.used ∧ s.waiting i = true := by
  have hloop (xs : List Nat) (hxs : ∀ x ∈ xs, x ∈ s.used) (r : Option Nat × Int)
      (hr : ∀ j, r.1 = some j → j ∈ s.used ∧ s.waiting j = true) :
      ∀ j, (xs.foldl (fun r i =>
        if r.2 > (s.stores i).poc ∧ s.waiting i then (some i, (s.stores i).poc) else r) r).1 =
          some j → j ∈ s.used ∧ s.waiting j = true := by
    induction xs generalizing r with
    | nil => exact hr
    | cons x xs ih =>
      rw [List.foldl_cons]
      apply ih (fun y hy => hxs y (List.mem_cons_of_mem x hy)) _
      intro j hj
      split at hj
      · next hx => exact Option.some.inj hj ▸ ⟨hxs x List.mem_cons_self, hx.2⟩
      · exact hr j hj
  exact hloop s.used (fun _ hx => hx) (none, INT_MAX) nofun i (congrArg Prod.fst h)

theorem sound_outputSmallest (hs : s.custody.Sound) : s.outputSmallest.2.custody.Sound := by
  unfold outputSmallest
  split
  · exact hs
  · next i poc hi =>
    obtain ⟨hused, hwait⟩ := getSmallestPoc_spec hi
    exact sound_handOver poc hs hused hwait

theorem sound_outputFrames (flushFlag : Bool) (hs : s.custody.Sound) :
    (s.outputFrames flushFlag).2.custody.Sound := by
  have hallowed : s.outputAllowed.2.custody.Sound := hs
  unfold outputFrames
  split
  · exact sound_outputSmallest hs
  · split
    · exact hs
    · dsimp only
      split
      · exact sound_outputSmallest hallowed
      · exact hallowed

/-! ## Removing -/

theorem custody_freeStore (s : Dpb) (i : Nat) : (s.freeStore i).custody = s.custody := by
  have hfree (s : Dpb) (c : Prop) [Decidable c] (p : Option Nat) :
      (if c then s.freePicture p else s).custody = s.custody := by
    rw [apply_ite custody]
    exact (congrArg (ite c · _) (custody_modifyPic s p _)).trans (ite_self _)
  unfold freeStore
  dsimp only
  rw [custody_modifyStore]
  · rw [hfree, hfree, hfree]
  · exact fun _ => rfl

theorem sound_remove {pos i : Nat} (hb : s.frames.Buffered) (hpos : s.used[pos]? = some i)
    (hs : s.custody.Sound) : (s.removeFrameFromDpb pos).custody.Sound := by
  have hcustody : (s.removeFrameFromDpb pos).custody =
      { s.custody with
        used := (s.removeFrameFromDpb pos).used
        log := .closed i :: s.custody.log } := by
    rw [← custody_freeStore s i]
    unfold removeFrameFromDpb
    rw [fs_of_used hpos]
    rfl
  rw [hcustody]
  refine ⟨hs.balanced.close fun j hj => ?_, hs.accepted, hs.displayed⟩
  rcases hj with hj | hj
  · by_cases hji : j = i
    · exact Or.inr hji
    · exact Or.inl (Or.inl fun hmem => hj ((mem_used_remove hb hpos).mpr ⟨hmem, hji⟩))
  · exact Or.inl (Or.inr hj)

theorem sound_move {d : Option Nat} (hm : Move d s t) (hb : s.frames.Buffered)
    (hs : s.custody.Sound) : t.custody.Sound := by
  cases hm with
  | steer ht =>
    have hcustody : t.custody = s.custody :=
      show t.unsteered.custody = s.unsteered.custody by rw [ht]
    exact hcustody ▸ hs
  | unmark i => exact custody_of_unmarked (unmarked_unmarkForReference s i) ▸ hs
  | unmarkLong i => exact custody_of_unmarked (unmarked_unmarkForLongTermReference s i) ▸ hs
  | command p m hd =>
    have hcustody : (s.memoryManagementControl p m).custody = s.custody :=
      show (s.memoryManagementControl p m).unmarked.custody = s.unmarked.custody by
        rw [unmarked_memoryManagementControl]
        rfl
    exact hcustody ▸ hs
  | refList => exact hs
  | ltrefList => exact hs
  | current p f hd hf => exact custody_modifyPic s (some p) f ▸ hs
  | forget => exact hs
  | remove pos i hpos => exact sound_remove hb hpos hs
  | output flushFlag => exact sound_outputFrames flushFlag hs
  | flag index => exact hs.calm (calm_setFrameOutputFlag s index)
  | lone p =>
    have hcustody : (s.showLoneField p).custody = s.custody := by
      unfold showLoneField
      split
      · rfl
      · split
        · rw [custody_modifyStore]
          exact fun _ => rfl
        · rfl
    exact hcustody ▸ hs

theorem sound_moves {d : Option Nat} (hm : Moves d s t) (hp : s.frames.Pooled d)
    (hs : s.custody.Sound) : t.custody.Sound :=
  (hm.keep (P := fun s => s.frames.Pooled d ∧ s.custody.Sound) (fun _ _ hmove h =>
    ⟨pooled_move hmove h.1, sound_move hmove h.1.buffered h.2⟩) ⟨hp, hs⟩).2

theorem sound_outputAll (flushFlag : Bool) (hs : s.custody.Sound) :
    (s.outputAll flushFlag).custody.Sound := by
  have hloop (fuel : Nat) (s : Dpb) (hs : s.custody.Sound) :
      (outputLoop flushFlag fuel s).custody.Sound := by
    induction fuel generalizing s with
    | zero => exact hs
    | succ fuel ih =>
      unfold outputLoop
      dsimp only
      split
      · exact ih _ (sound_outputFrames flushFlag hs)
      · exact sound_outputFrames flushFlag hs
  exact hloop _ s hs

/-! ## Inserting -/

/-- Putting a picture into a store concerns the hand-overs of no other store. -/
theorem custody_insertPicture (s : Dpb) (i p : Nat) (dataFlag : UInt8) :
    (s.insertPictureInDpb i p dataFlag).custody =
        { s.custody with waiting := (s.insertPictureInDpb i p dataFlag).waiting } ∧
      ∀ j, j ≠ i → (s.insertPictureInDpb i p dataFlag).waiting j = s.waiting j := by
  have hbeside := beside_insertPicture s i p dataFlag
  generalize s.insertPictureInDpb i p dataFlag = t at hbeside
  have hlog (s : Dpb) : s.trace.filterMap Event.entry =
      (s.beside i).trace.filterMap Event.entry := (log_happens s.trace).symm
  have hused : t.used = s.used := show (t.beside i).used = (s.beside i).used by rw [hbeside]
  have hanswers : t.answers = s.answers :=
    show (t.beside i).answers = (s.beside i).answers by rw [hbeside]
  have hconfig : t.config = s.config :=
    show (t.beside i).config = (s.beside i).config by rw [hbeside]
  refine ⟨?_, fun j hj => ?_⟩
  · unfold custody
    rw [hlog t, hbeside, ← hlog s, hused, hanswers, hconfig]
  · have hstore : t.stores j = s.stores j := by
      have h : (t.beside i).stores j = (s.beside i).stores j := by rw [hbeside]
      exact (if_neg hj).symm.trans (h.trans (if_neg hj))
    unfold waiting
    rw [hstore]

/-- Rewriting the flags of a store that was not handed over breaks nothing. -/
theorem sound_insertPicture {i : Nat} (p : Nat) (dataFlag : UInt8) (hs : s.custody.Sound)
    (hi : sinceClosed i s.custody.log = 0) :
    (s.insertPictureInDpb i p dataFlag).custody.Sound := by
  obtain ⟨hcustody, hothers⟩ := custody_insertPicture s i p dataFlag
  rw [hcustody]
  refine ⟨⟨hs.balanced.once, fun j hj => ?_⟩, hs.accepted, hs.displayed⟩
  by_cases hji : j = i
  · exact hji ▸ hi
  · exact hs.balanced.fresh j (hj.imp id fun hw => (hothers j hji).symm.trans hw)

/-! ## Storing -/

theorem sound_countStore (i p : Nat) (hs : s.custody.Sound) : (s.countStore i p).custody.Sound := by
  refine ⟨hs.balanced.mono fun j hj => hj.imp (fun hnot hmem => hnot ?_) id, hs.accepted,
    hs.displayed⟩
  have hsub : s.fs.take s.usedSize <+: s.fs.take (s.usedSize + 1) :=
    List.take_prefix_take_left (Nat.le_succ _)
  exact hsub.subset hmem

theorem sound_appendStore {i : Nat} (p : Nat) (dataFlag : UInt8) (hb : s.frames.Buffered)
    (hi : s.fs[s.usedSize]? = some i) (hs : s.custody.Sound) :
    (s.appendStore i p dataFlag).custody.Sound := by
  have hfresh := hs.balanced.fresh i (Or.inl (hb.used_next hi).2)
  have hcount := sound_countStore i p (sound_insertPicture p dataFlag hs hfresh)
  unfold appendStore outputAfterStore
  dsimp only
  split
  · exact sound_outputAll _ hcount
  · exact hcount

theorem sound_storeFirstField {p : Nat} (dataFlag : UInt8) (hp : s.frames.Pooled (some p))
    (hs : s.custody.Sound) : (s.storeFirstField p dataFlag).2.custody.Sound := by
  have hmoves := (moves_makeRoom s rfl).trans (moves_dropDuplicates (some p) _ p)
  have hpool := pooled_moves hmoves hp
  have hroom := sound_moves hmoves hp hs
  unfold storeFirstField
  dsimp only
  split
  · exact hroom
  · split
    · exact hroom
    · next i hi => exact sound_appendStore p dataFlag hpool.buffered hi hroom

theorem sound_storeSecondField {i : Nat} (p : Nat) (dataFlag : UInt8) (hs : s.custody.Sound)
    (hi : sinceClosed i s.custody.log = 0) :
    (s.storeSecondField i p dataFlag).custody.Sound := by
  have hinsert := sound_insertPicture p dataFlag hs hi
  unfold storeSecondField outputAfterPair
  dsimp only
  split
  · exact sound_outputAll false hinsert
  · exact hinsert

/-- Without a reset the marking does not concern the hand-overs. -/
theorem custody_storeMarking {p : Nat} (hidr : (s.pics p).idrFlag = false)
    (hr : s.resets p = false) : (s.storeMarking p).custody = s.custody := by
  rcases storeMarking_cases hidr with ⟨-, hs | hs⟩ | ⟨hr', -⟩
  · rw [hs]
    rfl
  · rw [hs]
    show ((s.notePicture p).afterCommands p).unmarked.custody = s.unmarked.custody
    rw [unmarked_afterCommands]
    rfl
  · rw [hr] at hr'
    exact absurd hr' (by decide)

theorem sound_storePicture {p : Nat} (dataFlag : UInt8) (hp : s.frames.Pooled (some p))
    (hs : s.custody.Sound)
    (hpair : ∀ i, s.Completes p i → sinceClosed i s.custody.log = 0 ∧ s.resets p = false) :
    (s.storePictureInDpb p dataFlag).2.custody.Sound := by
  have hmoves := moves_storeMarking s (d := some p) rfl
  have hmark := sound_moves hmoves hp hs
  unfold storePictureInDpb
  dsimp only
  split
  · next i hi =>
    have hcomplete := completes_of_paired hp hi
    obtain ⟨hfresh, hr⟩ := hpair i hcomplete
    apply sound_storeSecondField p dataFlag hmark
    rw [custody_storeMarking hcomplete.2.1 hr]
    exact hfresh
  · exact sound_storeFirstField dataFlag (pooled_moves hmoves hp) hmark

/-! ## Runs -/

/-- The display takes and shows every frame. -/
def Shows : Op → Prop
  | .store _ answers => ∀ d ∈ answers, d.accepted = true ∧ d.showFrame = true
  | .flush answers => ∀ d ∈ answers, d.accepted = true ∧ d.showFrame = true
  | .output _ answers => ∀ d ∈ answers, d.accepted = true ∧ d.showFrame = true
  | .configure c _ => c.withoutDisplayMode = false
  | _ => True

/-- A second field is stored only while its first field was not handed over, and does not carry
operation 5. -/
def PairFresh (s : Dpb) : Op → Prop
  | .store _ _ => ∀ p i, s.mVideo.decPicture = some p → s.Completes p i →
      sinceClosed i (s.trace.filterMap Event.entry) = 0 ∧ s.resets p = false
  | _ => True

/-- Each frame store was handed over at most once in each of its turns. -/
def HandedOnce (s : Dpb) : Prop := Once (s.trace.filterMap Event.entry)

theorem custody_slice (s : Dpb) (h : SliceParam) (bufs : Bool) :
    (s.h264SliceHeaderProcess h bufs).2.custody = s.custody := by
  have hbare (s : Dpb) : s.bare.custody = s.custody :=
    congrArg (fun log => { s.custody with log := log }) (log_happens s.trace)
  rw [← hbare, bare_slice, hbare]

theorem sound_answers {answers : List Display} (hs : s.custody.Sound)
    (ha : ∀ d ∈ answers, d.accepted = true ∧ d.showFrame = true) :
    ({ s with answers := answers } : Dpb).custody.Sound :=
  ⟨hs.balanced, ha, hs.displayed⟩

theorem custody_releaseCurrent (s : Dpb) : s.releaseCurrent.custody = s.custody := by
  unfold releaseCurrent
  split
  · rfl
  · exact custody_modifyPic s _ _

theorem sound_storeCurrent {d : Option Nat} (dataFlag : UInt8) (hp : s.frames.Pooled d)
    (hs : s.custody.Sound) (hpair : ∀ p i, s.mVideo.decPicture = some p → s.Completes p i →
      sinceClosed i s.custody.log = 0 ∧ s.resets p = false)
    (hstep : s.storeCurrent dataFlag = some t) : t.custody.Sound := by
  unfold storeCurrent at hstep
  split at hstep
  · exact absurd hstep nofun
  · next p hcur =>
    have hd : d = some p := hp.current.symm.trans hcur
    have hstored := sound_storePicture dataFlag (hd ▸ hp) hs fun i => hpair p i hcur
    dsimp only at hstep
    split at hstep
    · rw [← Option.some.inj hstep, custody_releaseCurrent]
      exact hstored
    · have hpost : (s.storePictureInDpb p dataFlag).2.bufmgrPost.dropCurrent.custody =
          (s.storePictureInDpb p dataFlag).2.custody := by
        unfold bufmgrPost
        split <;> rfl
      rw [← Option.some.inj hstep, hpost]
      exact hstored

/-- The hand-overs stay sound in every call. -/
theorem sound_step {op : Op} (hp : ∃ d, s.frames.Pooled d) (hs : s.custody.Sound)
    (hshows : Shows op) (hpair : s.PairFresh op) (hstep : step s op = some t) :
    t.custody.Sound := by
  obtain ⟨d, hp⟩ := hp
  cases op with
  | slice h bufs =>
    rw [← Option.some.inj hstep, custody_slice]
    exact hs
  | store dataFlag answers =>
    refine sound_storeCurrent (s := { s with answers := answers }) dataFlag hp
      (sound_answers hs hshows) (fun p i hcur hc => ?_) hstep
    exact hpair p i hcur ((completes_answers answers).mp hc)
  | release =>
    rw [← Option.some.inj hstep, custody_releaseCurrent]
    exact hs
  | flush answers =>
    exact Option.some.inj hstep ▸ sound_moves (moves_flush d { s with answers := answers }) hp
      (sound_answers hs hshows)
  | removeUnused => exact Option.some.inj hstep ▸ sound_moves (moves_removeUnused d s) hp hs
  | bufmgrRemoveUnused f =>
    exact Option.some.inj hstep ▸ sound_moves (moves_bufmgrRemoveUnused d s f) hp hs
  | output flushFlag answers =>
    exact Option.some.inj hstep ▸ sound_outputFrames flushFlag (sound_answers hs hshows)
  | setFrameOutputFlag index =>
    exact Option.some.inj hstep ▸ hs.calm (calm_setFrameOutputFlag s index)
  | configure c frameMbsOnlyFlag =>
    exact Option.some.inj hstep ▸ ⟨hs.balanced, hs.accepted, hshows⟩

theorem custody_makeNoReferencePicture (s : Dpb) :
    s.makeNoReferencePicture.custody = s.custody := by
  unfold makeNoReferencePicture getNewPic
  split
  · dsimp only
    cases s.freePic with
    | none => rfl
    | some p => rfl
  · rfl

theorem sound_initial (size : Nat) (sps : SPSParameters) {c : Config} (first : FirstInsertFrm)
    (hc : c.withoutDisplayMode = false) : (initial size sps c first).custody.Sound := by
  have hempty : (({ mSPS := sps, config := c, firstInsertFrame := first } : Dpb).freeDpb.emptyDpb
      size).custody.Sound := ⟨.nil, nofun, hc⟩
  rw [← custody_makeNoReferencePicture] at hempty
  exact hempty

/-- Each frame store is handed over at most once in each of its turns, in every run in which a
second field is stored only while its first field was not handed over and without operation 5. -/
theorem handed_once (size : Nat) (sps : SPSParameters) (c : Config) (first : FirstInsertFrm)
    (ops : List Op) (hsize : size ≤ DPB_SIZE_MAX) (hc : c.withoutDisplayMode = false)
    (hshows : ∀ op ∈ ops, Shows op)
    (hpair : Lib.Run.Guarded step PairFresh (initial size sps c first) ops) :
    Lib.Run.Always step HandedOnce (initial size sps c first) ops := by
  have hguard : Lib.Run.Guarded step (fun s op => Shows op ∧ s.PairFresh op)
      (initial size sps c first) ops :=
    Lib.Run.guarded_and.mpr ⟨Lib.Run.guarded_of_forall hshows, hpair⟩
  have hall := Lib.Run.always_of_guarded (P := fun s => (∃ d, s.frames.Pooled d) ∧ s.custody.Sound)
    (fun s op t h hok hstep => ⟨pooled_step op h.1 hstep, sound_step h.1 h.2 hok.1 hok.2 hstep⟩)
    ⟨⟨none, pooled_initial hsize sps c first⟩, sound_initial size sps first hc⟩ hguard
  exact hall.imp fun s h => h.2.balanced.once

/-- The two fields of a frame. The display is ready to take a frame after each of them. -/
def fieldPair : List Op :=
  [.slice { nalReferenceIdc := 1, picStructure := .topField } true, .store 0 [{}],
    .slice { nalReferenceIdc := 1, picStructure := .bottomField } true, .store 0 [{}]]

theorem shows_fieldPair : ∀ op ∈ fieldPair, Shows op := by
  simp [fieldPair, Shows]

/-- With one frame to reorder the first field waits for the second one, and the frame is shown
once. -/
theorem handed_once_pair : ∃ s,
    Lib.Run.run step (initial 4 {} { reorderOutput := 1, decDpbSize := 4 } .idle) fieldPair =
      some s ∧ s.used = [0] ∧ s.trace = [.handed 0] ∧ s.HandedOnce := by
  have hrun : (Lib.Run.run step (initial 4 {} { reorderOutput := 1, decDpbSize := 4 } .idle)
      fieldPair).map (fun s => (s.used, s.trace)) = some ([0], [.handed 0]) := by
    decide +kernel
  obtain ⟨s, hs, hread⟩ := Option.map_eq_some_iff.mp hrun
  refine ⟨s, hs, congrArg Prod.fst hread, congrArg Prod.snd hread, Lib.Run.always_last
    (handed_once 4 {} { reorderOutput := 1, decDpbSize := 4 } .idle fieldPair (by decide) rfl
      shows_fieldPair ?_) hs⟩
  refine ⟨trivial, fun s1 h1 => ⟨fun p i _ hc => ?_, fun s2 h2 => ⟨trivial, fun s3 h3 =>
    ⟨fun p i hcur _ => ?_, fun _ _ => trivial⟩⟩⟩⟩
  · have hlast : s1.lastPicture = none := Option.some.inj h1 ▸ by decide +kernel
    exact absurd (hlast.symm.trans hc.1) nofun
  · have h123 : Lib.Run.run step (initial 4 {} { reorderOutput := 1, decDpbSize := 4 } .idle)
        (fieldPair.take 3) = some s3 :=
      Lib.Run.run_cons_some.mpr ⟨s1, h1, Lib.Run.run_cons_some.mpr ⟨s2, h2,
        Lib.Run.run_cons_some.mpr ⟨s3, h3, rfl⟩⟩⟩
    have hlog := Lib.Run.read_of_run (fun s => s.trace) (a := []) (by decide +kernel) h123
    have hcommands := Lib.Run.read_of_run (fun s => s.mSlice.decRefPicMarkingBuffer) (a := [])
      (by decide +kernel) h123
    refine ⟨by rw [hlog]; rfl, ?_⟩
    unfold resets
    rw [hcommands]
    exact Bool.and_false _

/-- In the fast output mode the first field is shown at once, and its frame once more with the
second field. -/
theorem pair_handed_twice :
    (∀ op ∈ fieldPair, Shows op) ∧
    ¬ Lib.Run.Always step HandedOnce
      (initial 4 {} { fastOutputEnable := 8, decDpbSize := 4 } .idle) fieldPair := by
  refine ⟨shows_fieldPair, fun hall => ?_⟩
  have hrun : (Lib.Run.run step (initial 4 {} { fastOutputEnable := 8, decDpbSize := 4 } .idle)
      fieldPair).map (fun s => s.trace) = some [.handed 0, .handed 0] := by
    decide +kernel
  obtain ⟨s, hs, htrace⟩ := Option.map_eq_some_iff.mp hrun
  have honce : s.HandedOnce := Lib.Run.always_last hall hs
  unfold HandedOnce at honce
  rw [htrace] at honce
  exact absurd (honce.now 0) (by decide)

end Dpb

end MediaModules.H264Dpb
