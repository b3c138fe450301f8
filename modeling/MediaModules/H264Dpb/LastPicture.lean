import MediaModules.H264Dpb.ForcedRemoval
import MediaModules.H264Dpb.Pairing
import MediaModules.H264Dpb.SlidingWindow
import Mathlib.Data.List.Find

/-!
# The buffer in order

The frame stores in use stand in front of the others in every run, and a picture that was stored
leaves both lists of references up to date. `last_picture` names the store of a first field that
waits for the second one. No removal looks at it: when the store of a field that was displayed alone
is removed, `last_picture` goes on naming it.
-/
namespace MediaModules.H264Dpb

namespace Dpb

open MediaModules.H264Dpb

variable {s t : Dpb} {d : Option Nat} {i p : Nat}

/-- The frame stores are those of the buffer in some order, and the used ones come first. -/
structure StoresOrdered (s : Dpb) : Prop where
  fs_perm : s.fs.Perm (List.range s.size)
  used_le : s.usedSize ≤ s.size
  used_iff : ∀ i, i ∈ s.used ↔ (s.stores i).isUsed ≠ .empty

/-- The lists hold the used stores with references of their kind, in the order of the buffer, each
of them once. -/
structure ListsReferences (s : Dpb) : Prop where
  listed : s.Listed
  short_once : s.fsRef.Nodup
  long_once : s.fsLtref.Nodup

/-- `last_picture` is NULL or a store in use. -/
def LastUsed (s : Dpb) : Prop := ∀ i, s.lastPicture = some i → i ∈ s.used

/-- The test of `remove_unused_frame_from_dpb`. -/
def removable (s : Dpb) (i : Nat) : Bool := (s.stores i).isOutput && !s.isUsedForReference i

/-- To store the picture does not remove the frame store: the picture is an IDR picture, which ends
the waiting of a first field, or it completes the frame of the store, or it is no reference and the
store is one, or the store was not displayed, nor is it while operation 5 flushes the buffer. -/
def StoreSpares (s : Dpb) (p i : Nat) (answers : List Display) : Prop :=
  (s.pics p).idrFlag = true ∨ (s.resets p = false ∧ s.Completes p i) ∨
    ((s.pics p).usedForReference = false ∧ s.isUsedForReference i = true) ∨
    ((s.stores i).isOutput = false ∧ (s.resets p = true → ∀ a ∈ answers, i ∉ a.returned))

/-- The call does not remove the frame store. -/
def Spares (s : Dpb) (i : Nat) : Op → Prop
  | .store _ answers => ∀ p ∈ s.mVideo.decPicture, s.StoreSpares p i answers
  | .flush _ => (s.stores i).isOutput = false
  | .removeUnused => s.used.find? s.removable ≠ some i
  | .bufmgrRemoveUnused forceFlag => s.removable i = false ∧
      (forceFlag = 1 ∨ forceFlag = 2 → s.unusedPos = none → s.forcedStore forceFlag ≠ some i)
  | _ => True

/-- The call does not remove the store of the first field that waits. -/
def SparesLast (s : Dpb) (op : Op) : Prop := ∀ i ∈ s.lastPicture, s.Spares i op

instance (s : Dpb) (p i : Nat) : Decidable (s.Completes p i) :=
  inferInstanceAs (Decidable (_ ∧ _))

instance (s : Dpb) (p i : Nat) (answers : List Display) : Decidable (s.StoreSpares p i answers) :=
  inferInstanceAs (Decidable (_ ∨ _))

instance (s : Dpb) (i : Nat) : (op : Op) → Decidable (s.Spares i op)
  | .slice _ _ | .release | .output _ _ | .setFrameOutputFlag _ | .configure _ _ => .isTrue trivial
  | .store _ _ => inferInstanceAs (Decidable (∀ p ∈ s.mVideo.decPicture, _))
  | .flush _ => inferInstanceAs (Decidable (_ = _))
  | .removeUnused => inferInstanceAs (Decidable (_ ≠ _))
  | .bufmgrRemoveUnused _ => inferInstanceAs (Decidable (_ ∧ _))

instance (s : Dpb) (op : Op) : Decidable (s.SparesLast op) :=
  inferInstanceAs (Decidable (∀ i ∈ s.lastPicture, _))

/-! ## Removing -/

theorem Untouched.removable (h : s.Untouched t i) : t.removable i = s.removable i := by
  unfold Dpb.removable
  rw [h.store, h.isUsedForReference]

theorem removable_of_undisplayed (h : (s.stores i).isOutput = false) : s.removable i = false := by
  unfold removable
  rw [h, Bool.false_and]

/-- One removal takes the first store that can be removed. -/
theorem removeUnused_keeps (h : s.frames.Pooled d) (hi : i ∈ s.used)
    (hne : s.used.find? s.removable ≠ some i) :
    i ∈ s.removeUnusedFrameFromDpb.2.used ∧ s.Untouched s.removeUnusedFrameFromDpb.2 i := by
  unfold removeUnusedFrameFromDpb
  split
  · next pos hpos =>
    obtain ⟨j, hj, -, -⟩ := used_of_unusedPos hpos
    have hfirst : s.used.find? s.removable = some j := by
      have hpos : s.used.findIdx? s.removable = some pos := hpos
      rw [List.find?_eq_bind_findIdx?_getElem?, hpos]
      exact hj
    have hij : i ≠ j := fun hij => hne (hij ▸ hfirst)
    exact ⟨(mem_used_remove h.buffered hj).mpr ⟨hi, hij⟩, removeFrame_untouched h hj hi hij⟩
  · exact ⟨hi, .refl s i⟩

theorem removeAllUnused_keeps (h : s.frames.Pooled d) (hi : i ∈ s.used)
    (hr : s.removable i = false) :
    i ∈ s.removeAllUnused.2.used ∧ s.Untouched s.removeAllUnused.2 i := by
  have hloop (fuel : Nat) (s : Dpb) (h : s.frames.Pooled d) (hi : i ∈ s.used)
      (hr : s.removable i = false) :
      i ∈ (removeUnusedLoop fuel s).2.used ∧ s.Untouched (removeUnusedLoop fuel s).2 i := by
    induction fuel generalizing s with
    | zero => exact ⟨hi, .refl s i⟩
    | succ fuel ih =>
      have hone := removeUnused_keeps h hi fun hfirst => by
        rw [List.find?_some hfirst] at hr
        exact absurd hr (by decide)
      unfold removeUnusedLoop
      dsimp only
      split
      · have hrest := ih s.removeUnusedFrameFromDpb.2 (pooled_moves (moves_removeUnused d s) h)
          hone.1 (hone.2.removable.trans hr)
        exact ⟨hrest.1, hone.2.trans hrest.2⟩
      · exact hone
  exact hloop _ s h hi hr

/-- The display knows nothing of a store's use. -/
theorem used_of_undisplayed (h : t.undisplayed = s.undisplayed) : t.used = s.used :=
  show t.undisplayed.used = s.undisplayed.used by rw [h]

theorem isOutput_of_unmarked (h : t.unmarked = s.unmarked) (i : Nat) :
    (t.stores i).isOutput = (s.stores i).isOutput :=
  show (t.unmarked.stores i).isOutput = (s.unmarked.stores i).isOutput by rw [h]

/-- With all displayed stores unmarked the first one of them is the first that can be removed. -/
theorem find_removable_unmarked (s : Dpb) :
    s.used.find? ((s.used.filter s.displayed).foldl unmarkForReference s).updateRefList.removable =
      s.used.find? s.displayed := by
  have hun : ((s.used.filter s.displayed).foldl unmarkForReference s).unmarked = s.unmarked :=
    foldl_read unmarked (fun s i => unmarked_unmarkForReference s i) _ s
  apply List.find?_congr
  intro j hj
  have hout : (((s.used.filter s.displayed).foldl unmarkForReference s).updateRefList.stores
      j).isOutput = s.displayed j := isOutput_of_unmarked hun j
  unfold removable
  rw [hout]
  cases hd : s.displayed j with
  | false => rfl
  | true =>
    have hclear : ((s.used.filter s.displayed).foldl unmarkForReference
        s).updateRefList.isUsedForReference j = false :=
      unmarkAll_clears (List.mem_filter.mpr ⟨hj, hd⟩) s
    rw [hclear]
    rfl

theorem forced_displayed_keeps (h : s.frames.Pooled d) (hnone : s.unusedPos = none)
    (hi : i ∈ s.used) (hne : s.used.find? s.displayed ≠ some i) :
    i ∈ (s.bufmgrH264RemoveUnusedFrame 2).used := by
  have hun : ((s.used.filter s.displayed).foldl unmarkForReference s).unmarked = s.unmarked :=
    foldl_read unmarked (fun s i => unmarked_unmarkForReference s i) _ s
  have hfirst := find_removable_unmarked s
  rw [forced_displayed hnone]
  split
  · exact hi
  · generalize hu : ((s.used.filter s.displayed).foldl unmarkForReference s).updateRefList = u
    rw [hu] at hfirst
    have hused : u.used = s.used := hu ▸ used_of_unmarked hun
    have hpool : u.frames.Pooled d := by
      rw [← hu]
      show ((s.used.filter s.displayed).foldl unmarkForReference s).frames.Pooled d
      rw [frames_of_unmarked hun]
      exact h
    rw [← hused] at hi hfirst hne
    exact (removeUnused_keeps hpool hi (hfirst ▸ hne)).1

/-- Force flag 1 takes the first displayed store with an error. -/
theorem forced_error_keeps (h : s.frames.Pooled d) (hnone : s.unusedPos = none)
    (hi : i ∈ s.used) (hne : s.used.find? s.displayedError ≠ some i) :
    i ∈ (s.bufmgrH264RemoveUnusedFrame 1).used := by
  rw [forced_error hnone]
  split
  · next j hj =>
    exact (unmark_remove_spares h hnone j i hi fun hji => hne (hj.trans hji)).1
  · exact hi

theorem bufmgrRemoveUnused_keeps (h : s.frames.Pooled d) (hi : i ∈ s.used) {forceFlag : Nat}
    (hr : s.removable i = false)
    (hforce : forceFlag = 1 ∨ forceFlag = 2 → s.unusedPos = none →
      s.forcedStore forceFlag ≠ some i) :
    i ∈ (s.bufmgrH264RemoveUnusedFrame forceFlag).used := by
  cases hpos : s.unusedPos with
  | some pos =>
    have hremoved : s.removeAllUnused.1 = true := by
      unfold removeAllUnused removeUnusedLoop removeUnusedFrameFromDpb
      rw [hpos]
      rfl
    unfold bufmgrH264RemoveUnusedFrame
    dsimp only
    rw [if_pos hremoved]
    exact (removeAllUnused_keeps h hi hr).1
  | none =>
    by_cases h1 : forceFlag = 1
    · subst h1
      exact forced_error_keeps h hpos hi (hforce (Or.inl rfl) hpos)
    · by_cases h2 : forceFlag = 2
      · subst h2
        exact forced_displayed_keeps h hpos hi (hforce (Or.inr rfl) hpos)
      · unfold bufmgrH264RemoveUnusedFrame
        dsimp only
        rw [removeAllUnused_none hpos, if_neg Bool.false_ne_true, if_neg h2, if_neg h1]
        exact hi

/-! ## Handing over -/

/-- The display does not return the store. -/
def NotReturned (s : Dpb) (i : Nat) : Prop := ∀ a ∈ s.answers, i ∉ a.returned

theorem isOutput_returned {returned : List Nat} (hi : i ∉ returned) (s : Dpb) :
    ((returned.foldl setFrameOutputFlag s).stores i).isOutput = (s.stores i).isOutput := by
  induction returned generalizing s with
  | nil => rfl
  | cons j rest ih =>
    rw [List.mem_cons, not_or] at hi
    refine (ih hi.2 _).trans ?_
    unfold setFrameOutputFlag
    rw [modifyStore_stores, if_neg hi.1]

/-- From the one state to the other the store was not returned, nor is it to be. -/
structure KeptBack (s t : Dpb) (i : Nat) : Prop where
  isOutput : (t.stores i).isOutput = (s.stores i).isOutput
  notReturned : t.NotReturned i

namespace KeptBack

theorem refl (h : s.NotReturned i) : s.KeptBack s i := ⟨rfl, h⟩

theorem trans {u : Dpb} (h : s.KeptBack t i) (h' : t.KeptBack u i) : s.KeptBack u i :=
  ⟨h'.isOutput.trans h.isOutput, h'.notReturned⟩

theorem modifyStore (h : s.NotReturned i) {f : FrameStore → FrameStore}
    (hf : ∀ fs, (f fs).isOutput = fs.isOutput) (j : Nat) : s.KeptBack (s.modifyStore j f) i :=
  ⟨modifyStore_read s FrameStore.isOutput hf j i, h⟩

end KeptBack

theorem keptBack_prepareDisplayBuf (h : s.NotReturned i) (j : Nat) :
    s.KeptBack (s.prepareDisplayBuf j).2 i := by
  unfold prepareDisplayBuf
  split
  · exact .refl h
  · next a rest hanswers =>
    have hmem (b : Display) (hb : b ∈ a :: rest) : i ∉ b.returned := h b (hanswers ▸ hb)
    have hrest : ({ s with answers := rest, trace := .handed j :: s.trace } : Dpb).NotReturned i :=
      fun b hb => hmem b (List.mem_cons_of_mem a hb)
    dsimp only
    generalize hu : ({ s with answers := rest, trace := .handed j :: s.trace } : Dpb).modifyStore j
      (fun fs => { fs with
        showFrame := a.showFrame
        dataFlag := if a.errorFlag then fs.dataFlag ||| ERROR_FLAG else fs.dataFlag }) = u
    have hshow : s.KeptBack u i := by
      have htake : s.KeptBack { s with answers := rest, trace := .handed j :: s.trace } i :=
        ⟨rfl, hrest⟩
      rw [← hu]
      refine htake.trans (KeptBack.modifyStore hrest ?_ j)
      exact fun _ => rfl
    have hanswers : (a.returned.foldl setFrameOutputFlag u).answers = u.answers :=
      foldl_read (f := setFrameOutputFlag) Dpb.answers (fun _ _ => rfl) a.returned u
    refine hshow.trans ⟨isOutput_returned (hmem a List.mem_cons_self) u, ?_⟩
    unfold NotReturned
    rw [hanswers]
    exact hshow.notReturned

theorem keptBack_markFirstOutput (h : s.NotReturned i) (j : Nat) :
    s.KeptBack (s.markFirstOutput j) i := by
  unfold markFirstOutput
  split
  · split
    · apply KeptBack.modifyStore h
      exact fun _ => rfl
    · split
      · exact ⟨rfl, h⟩
      · exact .refl h
  · exact .refl h

theorem keptBack_handOver (h : s.NotReturned i) (j : Nat) (poc : Int) :
    s.KeptBack (s.handOver j poc).2 i := by
  have hmark := keptBack_markFirstOutput h j
  have hprep := hmark.trans (keptBack_prepareDisplayBuf hmark.notReturned j)
  unfold handOver
  dsimp only
  split
  · split
    · have hshown := KeptBack.modifyStore (f := fun fs => { fs with preOutput := true })
        hprep.notReturned (fun _ => rfl) j
      have hall := hprep.trans hshown
      exact ⟨hall.isOutput, hall.notReturned⟩
    · exact ⟨hprep.isOutput, hprep.notReturned⟩
  · exact hprep

theorem keptBack_outputSmallest (h : s.NotReturned i) : s.KeptBack s.outputSmallest.2 i := by
  unfold outputSmallest
  split
  · exact .refl h
  · exact keptBack_handOver h _ _

theorem keptBack_outputFrames (h : s.NotReturned i) (flushFlag : Bool) :
    s.KeptBack (s.outputFrames flushFlag).2 i := by
  have hscan : s.KeptBack s.outputAllowed.2 i := ⟨rfl, h⟩
  unfold outputFrames
  split
  · exact keptBack_outputSmallest h
  · split
    · exact .refl h
    · dsimp only
      split
      · exact hscan.trans (keptBack_outputSmallest hscan.notReturned)
      · exact hscan

theorem keptBack_outputAll (h : s.NotReturned i) (flushFlag : Bool) :
    s.KeptBack (s.outputAll flushFlag) i := by
  have hloop (fuel : Nat) (s : Dpb) (h : s.NotReturned i) :
      s.KeptBack (outputLoop flushFlag fuel s) i := by
    induction fuel generalizing s with
    | zero => exact .refl h
    | succ fuel ih =>
      have hone := keptBack_outputFrames h flushFlag
      unfold outputLoop
      dsimp only
      split
      · exact hone.trans (ih _ hone.notReturned)
      · exact hone
  exact hloop _ s h

/-! ## Flushing -/

/-- A flush removes no store that was not displayed before. -/
theorem flush_keeps (h : s.frames.Pooled d) (hi : i ∈ s.used)
    (hout : (s.stores i).isOutput = false) : i ∈ s.flushDpb.used ∧
      (s.NotReturned i → s.KeptBack s.flushDpb i) := by
  unfold flushDpb
  split
  · have hun : (s.used.foldl unmarkForReference s).unmarked = s.unmarked :=
      foldl_read unmarked (fun s i => unmarked_unmarkForReference s i) _ s
    generalize s.used.foldl unmarkForReference s = u at hun
    have hu : i ∈ u.used := used_of_unmarked hun ▸ hi
    have hout : (u.stores i).isOutput = false := (isOutput_of_unmarked hun i).trans hout
    have hpool : u.frames.Pooled d := frames_of_unmarked hun ▸ h
    obtain ⟨hkept, hsame⟩ := removeAllUnused_keeps hpool hu (removable_of_undisplayed hout)
    refine ⟨(used_of_undisplayed (undisplayed_outputAll _ true)).symm ▸ hkept, fun hret => ?_⟩
    have hanswers : u.removeAllUnused.2.answers = s.answers := by
      show u.removeAllUnused.2.unstored.answers = s.unmarked.answers
      rw [unstored_removeAllUnused, ← hun]
      rfl
    have hremoved : s.KeptBack u.removeAllUnused.2 i := by
      refine ⟨?_, ?_⟩
      · rw [hsame.store]
        exact isOutput_of_unmarked hun i
      · unfold NotReturned
        rw [hanswers]
        exact hret
    have hall := hremoved.trans (keptBack_outputAll hremoved.notReturned true)
    exact ⟨hall.isOutput, hall.notReturned⟩
  · exact ⟨hi, .refl⟩

/-! ## Storing -/

theorem lastUsed_of_frames (h : t.frames = s.frames) (hs : s.LastUsed) : t.LastUsed := by
  intro i hi
  have hlast : t.frames.lastPicture = some i := hi
  rw [h] at hlast
  show i ∈ t.frames.used
  rw [h]
  exact hs i hlast

/-- A call that names no other store and leaves this one in the buffer. -/
theorem last_moves (hm : Moves d s t) (hp : s.frames.Pooled d) (ht : t.lastPicture = some i) :
    s.lastPicture = some i := by
  have hkeep := hm.keep (P := fun t => t.frames.Pooled d ∧
    (t.lastPicture = some i → s.lastPicture = some i)) (fun t u hmove h => ?_) ⟨hp, id⟩
  · exact hkeep.2 ht
  · refine ⟨pooled_move hmove h.1, fun hu => h.2 ?_⟩
    rcases fades_move hmove h.1 with hfades | rfl | rfl | ⟨p, m, -, rfl⟩
    · exact hfades.last i hu
    · exact hu
    · exact hu
    · have hframes := congrArg Frames.lastPicture (frames_memoryManagementControl t p m)
      exact hframes.symm.trans hu

/-- The marking without operation 5, and the commands before its flush. -/
theorem afterCommands_keeps (s : Dpb) (p i : Nat) :
    (s.afterCommands p).used = s.used ∧
      ((s.afterCommands p).stores i).isOutput = (s.stores i).isOutput ∧
      (s.afterCommands p).answers = s.answers := by
  have hun := unmarked_afterCommands s p
  refine ⟨?_, ?_, ?_⟩
  · show (s.afterCommands p).unmarked.used = s.used
    rw [hun]
    rfl
  · show ((s.afterCommands p).unmarked.stores i).isOutput = (s.stores i).isOutput
    rw [hun]
    rfl
  · show (s.afterCommands p).unmarked.answers = s.answers
    rw [hun]
    rfl

theorem storeMarking_keeps (h : s.frames.Pooled (some p)) (hidr : (s.pics p).idrFlag = false)
    (hi : i ∈ s.used) (hout : (s.stores i).isOutput = false)
    (hret : s.resets p = true → s.NotReturned i) :
    i ∈ (s.storeMarking p).used ∧ ((s.storeMarking p).stores i).isOutput = false := by
  obtain ⟨hused, hcout, hanswers⟩ := afterCommands_keeps (s.notePicture p) p i
  rcases storeMarking_cases hidr with ⟨-, hs | hs⟩ | ⟨hr, hs⟩
  · rw [hs]
    exact ⟨hi, hout⟩
  · rw [hs, hused, hcout]
    exact ⟨hi, hout⟩
  · rw [hs]
    generalize hu : ((s.notePicture p).afterCommands p).modifyPic (some p) resetPicture = u
    have hpool : u.frames.Pooled (some p) := by
      have hmoves : Moves (some p) (s.notePicture p) ((s.notePicture p).afterCommands p) :=
        (Relation.ReflTransGen.single (.steer rfl)).trans (moves_adaptiveLoop _ rfl _)
      rw [← hu]
      exact pooled_move (.current _ p resetPicture rfl resetPicture_isUsed)
        (pooled_moves hmoves h)
    have hui : i ∈ u.used := by
      rw [← hu]
      show i ∈ ((s.notePicture p).afterCommands p).used
      rw [hused]
      exact hi
    have huout : (u.stores i).isOutput = false := by
      rw [← hu]
      exact hcout.trans hout
    have huret : u.NotReturned i := by
      have huanswers : u.answers = s.answers := by
        rw [← hu]
        exact hanswers
      unfold NotReturned
      rw [huanswers]
      exact hret hr
    obtain ⟨hkept, hback⟩ := flush_keeps hpool hui huout
    exact ⟨hkept, (hback huret).isOutput.trans huout⟩

theorem unmarked_slideWindow (s : Dpb) (p : Nat) : (s.slideWindow p).unmarked = s.unmarked := by
  unfold slideWindow
  rw [apply_ite unmarked, unmarked_slidingWindow, ite_self]

/-- What comes before the insertion leaves a store in the buffer that cannot be removed. -/
theorem makeRoom_keeps (h : s.frames.Pooled (some p)) (hi : i ∈ s.used)
    (hr : (s.slideWindow p).removable i = false) : i ∈ ((s.makeRoom p).dropDuplicates p).2.used := by
  have hslide : i ∈ (s.slideWindow p).used := used_of_unmarked (unmarked_slideWindow s p) ▸ hi
  have hkept := (removeAllUnused_keeps (pooled_moves (moves_slideWindow s rfl) h) hslide hr).1
  rw [used_of_unmarked (unmarked_dropDuplicates _ p)]
  unfold makeRoom
  rw [used_of_undisplayed (undisplayed_outputAll _ false),
    used_of_undisplayed (undisplayed_showLoneField _ p)]
  exact hkept

/-- The appended store is in use, and it is the one that `last_picture` names, if any. -/
theorem lastUsed_appendStore (dataFlag : UInt8) (h : s.frames.Pooled (some p))
    (hi : s.fs[s.usedSize]? = some i) : (s.appendStore i p dataFlag).LastUsed := by
  obtain ⟨new, x, last, -, -, -, -, hlast, hg⟩ := frames_appendStore (p := p) dataFlag h.room
    (h.buffered.shape_next hi)
  intro j hj
  have hj : (s.appendStore i p dataFlag).frames.lastPicture = some j := hj
  show j ∈ (s.appendStore i p dataFlag).frames.used
  rw [hg] at hj ⊢
  show j ∈ s.frames.fs.take (s.frames.usedSize + 1)
  rw [(h.buffered.used_next hi).1, hlast j hj]
  exact List.mem_append_right _ List.mem_cons_self

theorem lastUsed_storeFirstField (dataFlag : UInt8) (h : s.frames.Pooled (some p))
    (hlast : ∀ i, s.lastPicture = some i → i ∈ s.used ∧ (s.slideWindow p).removable i = false) :
    (s.storeFirstField p dataFlag).2.LastUsed := by
  have hmoves := (moves_makeRoom s rfl).trans (moves_dropDuplicates (some p) _ p)
  have hroom : ((s.makeRoom p).dropDuplicates p).2.LastUsed := fun i hi =>
    makeRoom_keeps h (hlast i (last_moves hmoves h hi)).1 (hlast i (last_moves hmoves h hi)).2
  unfold storeFirstField
  dsimp only
  split
  · exact hroom
  · split
    · exact hroom
    · next i hi => exact lastUsed_appendStore dataFlag (pooled_moves hmoves h) hi

/-- The tests read the same of the store and of the picture. -/
theorem isSecondField_congr (hstore : (t.stores i).pairKey = (s.stores i).pairKey)
    (hpic : (t.pics p).pairKey = (s.pics p).pairKey) :
    t.isSecondField i p = s.isSecondField i p := by
  simp only [FrameStore.pairKey, Prod.mk.injEq] at hstore
  simp only [StorablePicture.pairKey, Prod.mk.injEq] at hpic
  unfold isSecondField
  rw [hstore.1, hstore.2.1, hstore.2.2, hpic.1, hpic.2.1, hpic.2.2]

/-- A second field without operation 5 still is one after the marking. -/
theorem paired_of_completes (h : s.frames.Pooled (some p)) (hr : s.resets p = false)
    (hc : s.Completes p i) : (s.storeMarking p).pairedStore p = some i := by
  obtain ⟨hlast, hidr, hsecond⟩ := hc
  rw [hr, if_neg Bool.false_ne_true] at hsecond
  rcases storeMarking_cases hidr with ⟨-, hs | hs⟩ | ⟨hr', -⟩
  · rw [hs]
    exact Option.filter_eq_some_iff.mpr ⟨hlast, hsecond⟩
  · have hun := unmarked_afterCommands (s.notePicture p) p
    have hafter : ((s.notePicture p).afterCommands p).lastPicture = s.lastPicture := by
      show ((s.notePicture p).afterCommands p).unmarked.lastPicture = s.lastPicture
      rw [hun]
      rfl
    have hstore : (((s.notePicture p).afterCommands p).stores i).pairKey =
        (s.stores i).pairKey := by
      show (((s.notePicture p).afterCommands p).unmarked.stores i).pairKey = (s.stores i).pairKey
      rw [hun]
      rfl
    have hpic : (((s.notePicture p).afterCommands p).pics p).pairKey = (s.pics p).pairKey :=
      (samePair_afterCommands (i := i) (s := s.notePicture p) (loose_current h)).pic
    rw [hs]
    exact Option.filter_eq_some_iff.mpr
      ⟨hafter.trans hlast, (isSecondField_congr hstore hpic).trans hsecond⟩
  · exact absurd (hr.symm.trans hr') (by decide)

/-- A picture that is no reference leaves the marks alone. -/
theorem storeMarking_unreferenced (hidr : (s.pics p).idrFlag = false)
    (href : (s.pics p).usedForReference = false) : s.storeMarking p = s.notePicture p := by
  have hnote : (s.notePicture p).pics p = s.pics p := rfl
  unfold storeMarking
  dsimp only
  rw [hnote, hidr, href, if_neg Bool.false_ne_true, Bool.false_and, if_neg Bool.false_ne_true]

theorem slideWindow_unreferenced (href : (s.pics p).usedForReference = false) :
    s.slideWindow p = s := by
  unfold slideWindow
  rw [href, Bool.and_false, Bool.false_and, if_neg Bool.false_ne_true]

/-- A call that spares the store has it in the buffer when the window slides. -/
theorem spared_beforeRoom (h : s.frames.Pooled (some p)) (hi : i ∈ s.used)
    (hspare : s.StoreSpares p i s.answers) (hlast : (s.storeMarking p).lastPicture = some i)
    (hnone : (s.storeMarking p).pairedStore p = none) : i ∈ (s.storeMarking p).used ∧
      ((s.storeMarking p).slideWindow p).removable i = false := by
  cases hidr : (s.pics p).idrFlag with
  | true => exact absurd ((storeMarking_idr_last hidr).symm.trans hlast) nofun
  | false =>
    rcases hspare with hid | ⟨hr, hc⟩ | ⟨href, hused⟩ | ⟨hout, hret⟩
    · exact absurd (hidr.symm.trans hid) (by decide)
    · exact absurd (hnone.symm.trans (paired_of_completes h hr hc)) nofun
    · rw [storeMarking_unreferenced hidr href]
      refine ⟨hi, ?_⟩
      rw [slideWindow_unreferenced (s := s.notePicture p) href]
      have hused : (s.notePicture p).isUsedForReference i = true := hused
      unfold removable
      rw [hused]
      exact Bool.and_false _
    · obtain ⟨hkept, hkout⟩ := storeMarking_keeps h hidr hi hout hret
      refine ⟨hkept, removable_of_undisplayed ?_⟩
      exact (isOutput_of_unmarked (unmarked_slideWindow _ p) i).trans hkout

theorem lastUsed_storePicture (dataFlag : UInt8) (h : s.frames.Pooled (some p)) (hs : s.LastUsed)
    (hspare : ∀ i, s.lastPicture = some i → s.StoreSpares p i s.answers) :
    (s.storePictureInDpb p dataFlag).2.LastUsed := by
  have hmoves := moves_storeMarking s (d := some p) rfl
  unfold storePictureInDpb
  dsimp only
  split
  · next i hi =>
    intro j hj
    have hnone : ((s.storeMarking p).storeSecondField i p dataFlag).undisplayed.lastPicture =
        none := by
      unfold storeSecondField
      rw [undisplayed_outputAfterPair]
      rfl
    exact absurd (hnone.symm.trans hj) nofun
  · next hnone =>
    apply lastUsed_storeFirstField dataFlag (pooled_moves hmoves h)
    intro i hi
    have hbefore := last_moves hmoves h hi
    exact spared_beforeRoom h (hs i hbefore) (hspare i hbefore) hi hnone

/-! ## The calls -/

theorem lastUsed_storeCurrent (dataFlag : UInt8) (h : s.frames.Pooled d) (hs : s.LastUsed)
    (hspare : ∀ i ∈ s.lastPicture, ∀ p ∈ s.mVideo.decPicture, s.StoreSpares p i s.answers)
    (hstep : s.storeCurrent dataFlag = some t) : t.LastUsed := by
  unfold storeCurrent at hstep
  split at hstep
  · exact absurd hstep nofun
  · next p hcur =>
    have hd : d = some p := h.current.symm.trans hcur
    have hstored := lastUsed_storePicture dataFlag (hd ▸ h) hs fun i hi => hspare i hi p hcur
    dsimp only at hstep
    split at hstep
    · rw [← Option.some.inj hstep]
      unfold releaseCurrent
      split
      · exact hstored
      · exact hstored
    · rw [← Option.some.inj hstep]
      unfold bufmgrPost
      split
      · exact hstored
      · exact hstored

theorem lastUsed_slice (hs : s.LastUsed) (h : SliceParam) (bufs : Bool) :
    (s.h264SliceHeaderProcess h bufs).2.LastUsed := by
  have hbare := bare_slice s h bufs
  intro i hi
  have hlast : (s.h264SliceHeaderProcess h bufs).2.bare.lastPicture = some i := hi
  show i ∈ (s.h264SliceHeaderProcess h bufs).2.bare.used
  rw [hbare] at hlast ⊢
  exact hs i hlast

theorem storeSpares_answers {answers : List Display} (h : s.StoreSpares p i answers) :
    ({ s with answers := answers } : Dpb).StoreSpares p i answers :=
  h.imp_right fun h => h.imp_left fun hc => ⟨hc.1, (completes_answers answers).mpr hc.2⟩

/-- A call that spares the store of the first field leaves `last_picture` a store in use. -/
theorem lastUsed_step {op : Op} (h : s.frames.Pooled d) (hs : s.LastUsed) (hspare : s.SparesLast op)
    (hstep : step s op = some t) : t.LastUsed := by
  cases op with
  | slice h' bufs => exact Option.some.inj hstep ▸ lastUsed_slice hs h' bufs
  | store dataFlag answers =>
    exact lastUsed_storeCurrent (s := { s with answers := answers }) dataFlag h hs
      (fun i hi p hp => storeSpares_answers (hspare i hi p hp)) hstep
  | release =>
    rw [← Option.some.inj hstep]
    unfold releaseCurrent
    split
    · exact hs
    · exact hs
  | flush answers =>
    intro i hi
    rw [← Option.some.inj hstep] at hi ⊢
    have hbefore := last_moves (s := { s with answers := answers }) (moves_flush d _) h hi
    exact (flush_keeps (s := { s with answers := answers }) h (hs i hbefore) (hspare i hbefore)).1
  | removeUnused =>
    intro i hi
    rw [← Option.some.inj hstep] at hi ⊢
    have hbefore := last_moves (moves_removeUnused d s) h hi
    exact (removeUnused_keeps h (hs i hbefore) (hspare i hbefore)).1
  | bufmgrRemoveUnused forceFlag =>
    intro i hi
    rw [← Option.some.inj hstep] at hi ⊢
    have hbefore := last_moves (moves_bufmgrRemoveUnused d s forceFlag) h hi
    obtain ⟨hr, hforce⟩ := hspare i hbefore
    exact bufmgrRemoveUnused_keeps h (hs i hbefore) hr hforce
  | output flushFlag answers =>
    rw [← Option.some.inj hstep]
    exact lastUsed_of_frames (s := { s with answers := answers })
      (frames_of_undisplayed (undisplayed_outputFrames _ flushFlag)) hs
  | setFrameOutputFlag index =>
    rw [← Option.some.inj hstep]
    exact lastUsed_of_frames (frames_of_undisplayed (undisplayed_setFrameOutputFlag s index)) hs
  | configure c frameMbsOnlyFlag => exact Option.some.inj hstep ▸ hs

/-! ## The lists -/

/-- To hand frames over changes no list and none of the marks they are made from. -/
theorem listed_of_undisplayed (h : t.undisplayed = s.undisplayed) (hs : s.Listed) : t.Listed := by
  have hlists : s.undisplayed.Listed := ⟨hs.short, hs.long⟩
  rw [← h] at hlists
  exact ⟨hlists.short, hlists.long⟩

theorem listed_storeSecondField (s : Dpb) (i p : Nat) (dataFlag : UInt8) :
    (s.storeSecondField i p dataFlag).Listed := by
  unfold storeSecondField
  apply listed_of_undisplayed (undisplayed_outputAfterPair _)
  exact ⟨rfl, rfl⟩

theorem listed_appendStore (s : Dpb) (i p : Nat) (dataFlag : UInt8) :
    (s.appendStore i p dataFlag).Listed := by
  have hupdated : ((s.insertPictureInDpb i p dataFlag).countStore i
      p).updateRefList.updateLtrefList.outputAfterStore.Listed :=
    listed_of_undisplayed (undisplayed_outputAfterStore _) ⟨rfl, rfl⟩
  exact ⟨hupdated.short, hupdated.long⟩

theorem listed_storeFirstField {dataFlag : UInt8} (hzero : (s.storeFirstField p dataFlag).1 = 0) :
    (s.storeFirstField p dataFlag).2.Listed := by
  unfold storeFirstField at hzero ⊢
  dsimp only at hzero ⊢
  split at hzero
  · exact absurd (show (-2 : Int) = 0 from hzero) (by decide)
  · next hdup =>
    rw [if_neg hdup]
    split at hzero
    · exact absurd (show (-1 : Int) = 0 from hzero) (by decide)
    · exact listed_appendStore _ _ p dataFlag

theorem storePicture_lists (dataFlag : UInt8) (h : s.frames.Pooled (some p))
    (hzero : (s.storePictureInDpb p dataFlag).1 = 0) :
    (s.storePictureInDpb p dataFlag).2.ListsReferences := by
  have hlisted : (s.storePictureInDpb p dataFlag).2.Listed := by
    unfold storePictureInDpb at hzero ⊢
    dsimp only at hzero ⊢
    split
    · exact listed_storeSecondField _ _ p dataFlag
    · next hnone =>
      rw [hnone] at hzero
      exact listed_storeFirstField hzero
  have hnodup : (s.storePictureInDpb p dataFlag).2.used.Nodup := by
    rcases stored_storePicture dataFlag h with ⟨hneg, -⟩ | ⟨-, hpool⟩
    · omega
    · exact hpool.buffered.fs_nodup.sublist (List.take_sublist _ _)
  refine ⟨hlisted, ?_, ?_⟩
  · rw [hlisted.short]
    exact hnodup.filter _
  · rw [hlisted.long]
    exact hnodup.filter _

/-! ## Runs -/

/-- Whenever the current picture is stored, the lists are up to date. -/
def StoresList (s : Dpb) : Prop := ∀ p dataFlag answers, s.mVideo.decPicture = some p →
  (({ s with answers := answers } : Dpb).storePictureInDpb p dataFlag).1 = 0 →
  (({ s with answers := answers } : Dpb).storePictureInDpb p dataFlag).2.ListsReferences

theorem storesOrdered_of_pooled (h : s.frames.Pooled d) : s.StoresOrdered :=
  ⟨h.buffered.fs_perm, h.buffered.used_le, h.buffered.used_iff⟩

theorem storesList_of_pooled (h : s.frames.Pooled d) : s.StoresList := by
  intro p dataFlag answers hcur hzero
  obtain rfl : d = some p := h.current.symm.trans hcur
  exact storePicture_lists (s := { s with answers := answers }) dataFlag h hzero

theorem lastUsed_initial (size : Nat) (sps : SPSParameters) (c : Config) (first : FirstInsertFrm) :
    (initial size sps c first).LastUsed := by
  intro i hi
  have hnone : (initial size sps c first).frames.lastPicture = none := by
    rw [initial_frames]
    rfl
  exact absurd (hnone.symm.trans hi) nofun

/-- In every run the frame stores are in order and a stored picture leaves the lists up to date;
`last_picture` is NULL or a store in use all along a run whose calls spare the store of the first
field that waits. -/
theorem buffer_in_order (size : Nat) (hsize : size ≤ DPB_SIZE_MAX) (sps : SPSParameters)
    (c : Config) (first : FirstInsertFrm) (ops : List Op) :
    Lib.Run.Always step (fun s => s.StoresOrdered ∧ s.StoresList) (initial size sps c first) ops ∧
      (Lib.Run.Guarded step SparesLast (initial size sps c first) ops →
        Lib.Run.Always step LastUsed (initial size sps c first) ops) := by
  have hstart : ∃ d, (initial size sps c first).frames.Pooled d :=
    ⟨none, pooled_initial hsize sps c first⟩
  constructor
  · have hall : Lib.Run.Always step (fun s => ∃ d, s.frames.Pooled d) (initial size sps c first)
        ops := Lib.Run.always_of_domain (D := fun _ => True)
      (fun _ op _ hp _ hstep => pooled_step op hp hstep) (fun _ _ => trivial) hstart
    refine hall.imp fun s hs => ?_
    obtain ⟨d, hp⟩ := hs
    exact ⟨storesOrdered_of_pooled hp, storesList_of_pooled hp⟩
  · intro hspare
    have hall := Lib.Run.always_of_guarded (P := fun s => (∃ d, s.frames.Pooled d) ∧ s.LastUsed)
      (fun s op t h hok hstep => ?_) ⟨hstart, lastUsed_initial size sps c first⟩ hspare
    · exact hall.imp fun _ h => h.2
    · obtain ⟨⟨d, hp⟩, hlast⟩ := h
      exact ⟨pooled_step op ⟨d, hp⟩ hstep, lastUsed_step hp hlast hok hstep⟩

/-- The two fields of a frame that is no reference, the buffer cleared out between them and behind
them. -/
def clearedPair : List Op :=
  [.slice { picStructure := .topField } true, .store 0 [], .removeUnused, .bufmgrRemoveUnused 2,
    .slice { picStructure := .bottomField } true, .store 0 [{ returned := [0] }], .removeUnused]

theorem buffer_in_order_pair :
    Lib.Run.Guarded step SparesLast (initial 2 {} {} .idle) clearedPair ∧
    Lib.Run.Always step (fun s => s.StoresOrdered ∧ s.StoresList) (initial 2 {} {} .idle)
      clearedPair ∧
    Lib.Run.Always step LastUsed (initial 2 {} {} .idle) clearedPair := by
  have hguard : Lib.Run.Guarded step SparesLast (initial 2 {} {} .idle) clearedPair := by
    decide +kernel
  have hall := buffer_in_order 2 (by decide) {} {} .idle clearedPair
  exact ⟨hguard, hall.1, hall.2 hguard⟩

/-- A field that is no reference is displayed alone, and its store is removed. -/
def loneField : List Op :=
  [.slice { picStructure := .topField } true, .store 0 [], .flush [{}], .setFrameOutputFlag 0,
    .removeUnused]

/-- `last_picture` goes on naming the store of a field that was displayed alone and removed. -/
theorem removed_field_named : ∃ s, Lib.Run.run step (initial 2 {} {} .idle) loneField = some s ∧
    s.lastPicture = some 0 ∧ s.used = [] ∧ (s.stores 0).isUsed = .empty ∧
    ¬ Lib.Run.Always step LastUsed (initial 2 {} {} .idle) loneField := by
  obtain ⟨s, hs⟩ := Option.isSome_iff_exists.mp
    (by decide +kernel : (Lib.Run.run step (initial 2 {} {} .idle) loneField).isSome = true)
  have hlast : s.lastPicture = some 0 := Lib.Run.read_of_run lastPicture (by decide +kernel) hs
  have hused : s.used = [] := Lib.Run.read_of_run used (by decide +kernel) hs
  refine ⟨s, hs, hlast, hused,
    Lib.Run.read_of_run (fun s => (s.stores 0).isUsed) (by decide +kernel) hs, fun hall => ?_⟩
  have hmem := Lib.Run.always_last hall hs 0 hlast
  rw [hused] at hmem
  exact absurd hmem List.not_mem_nil

end Dpb

end MediaModules.H264Dpb
