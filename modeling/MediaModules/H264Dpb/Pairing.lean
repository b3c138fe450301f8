import MediaModules.H264Dpb.References

/-!
# Which picture completes a frame

Whether a picture is the second field of the frame of `last_picture` is decided after its marking.
It can be told before: the marking leaves alone what the tests read, but for operation 5, which
makes the picture one of frame number 0.
-/
namespace MediaModules.H264Dpb

/-- What the tests read of a frame store. -/
def FrameStore.pairKey (fs : FrameStore) : Int × FieldBits × FieldBits :=
  (fs.frameNum, fs.isUsed, fs.isOrigReference)

/-- What they read of a picture. -/
def StorablePicture.pairKey (q : StorablePicture) : Int × PictureStructure × Bool :=
  (q.picNum, q.picStructure, q.usedForReference)

namespace Dpb

open MediaModules.H264Dpb

variable {s t u : Dpb} {i p : Nat}

/-- Operation 5 takes effect when the picture is stored. -/
def resets (s : Dpb) (p : Nat) : Bool :=
  (s.pics p).usedForReference && (s.pics p).adaptiveRefPicBufferingFlag &&
    s.mSlice.decRefPicMarkingBuffer.any fun m => m.memoryManagementControlOperation = 5

/-- The picture is the second field of the frame whose first field lies in the store. -/
def Completes (s : Dpb) (p i : Nat) : Prop :=
  s.lastPicture = some i ∧ (s.pics p).idrFlag = false ∧
    (if s.resets p then s.modifyPic (some p) resetPicture else s).isSecondField i p = true

/-- The answers of the display to come do not matter. -/
theorem completes_answers (answers : List Display) :
    ({ s with answers := answers } : Dpb).Completes p i ↔ s.Completes p i := by
  unfold Completes
  refine and_congr_right fun _ => and_congr_right fun _ => ?_
  show (if s.resets p then _ else _ : Dpb).isSecondField i p = true ↔ _
  cases s.resets p <;> exact Iff.rfl

/-- What the tests read is the same, unless the store is gone. -/
structure SamePair (s t : Dpb) (i p : Nat) : Prop where
  last : t.lastPicture = some i → s.lastPicture = some i
  store : (t.stores i).isUsed = .empty ∨
    (t.stores i).pairKey = (s.stores i).pairKey
  pic : (t.pics p).pairKey = (s.pics p).pairKey

namespace SamePair

theorem refl (s : Dpb) (i p : Nat) : s.SamePair s i p := ⟨id, Or.inr rfl, rfl⟩

theorem trans (h : s.SamePair t i p) (h' : t.SamePair u i p) : s.SamePair u i p := by
  refine ⟨fun hl => h.last (h'.last hl), ?_, h'.pic.trans h.pic⟩
  rcases h'.store with he | he
  · exact Or.inl he
  · rcases h.store with hs | hs
    · exact Or.inl ((congrArg (fun k => k.2.1) he).trans hs)
    · exact Or.inr (he.trans hs)

/-- A picture that is the second field afterwards was it before. -/
theorem isSecondField (h : s.SamePair t i p) (ht : t.isSecondField i p = true) :
    s.isSecondField i p = true := by
  rcases h.store with he | he
  · simp [Dpb.isSecondField, he, FieldBits.empty, FieldBits.topOnly, FieldBits.bottomOnly] at ht
  · simp only [FrameStore.pairKey, Prod.mk.injEq] at he
    have hp := h.pic
    simp only [StorablePicture.pairKey, Prod.mk.injEq] at hp
    unfold Dpb.isSecondField at ht ⊢
    rwa [← he.1, ← he.2.1, ← he.2.2, ← hp.1, ← hp.2.1, ← hp.2.2]

end SamePair

/-- Marking leaves alone what the tests read. -/
theorem samePair_of_unmarked {b : Bool} (hun : t.unmarked = s.unmarked.noteMmco5 b)
    (hw : s.Wanes t) (hp : s.Loose p) : s.SamePair t i p := by
  have hlast : t.lastPicture = s.lastPicture :=
    show t.unmarked.lastPicture = (s.unmarked.noteMmco5 b).lastPicture by rw [hun]
  refine ⟨fun h => hlast ▸ h, Or.inr ?_, ?_⟩
  · show (t.unmarked.stores i).pairKey = ((s.unmarked.noteMmco5 b).stores i).pairKey
    rw [hun]
  · have hnum : ((t.pics p).picNum, (t.pics p).picStructure) =
        ((s.pics p).picNum, (s.pics p).picStructure) := by
      show ((t.unmarked.pics p).picNum, (t.unmarked.pics p).picStructure) =
        (((s.unmarked.noteMmco5 b).pics p).picNum, ((s.unmarked.noteMmco5 b).pics p).picStructure)
      rw [hun]
    rw [Prod.mk.injEq] at hnum
    unfold StorablePicture.pairKey
    rw [hnum.1, hnum.2, hw.loose p hp]

theorem unmarks_samePair (hun : t.unmarked = s.unmarked) (h : s.Unmarks t) (hp : s.Loose p) :
    s.SamePair t i p :=
  samePair_of_unmarked (b := false) (hun.trans (noteMmco5_false s.unmarked).symm) h.wanes hp

theorem samePair_of_undisplayed (h : t.undisplayed = s.undisplayed) : s.SamePair t i p := by
  have hlast : t.lastPicture = s.lastPicture :=
    show t.undisplayed.lastPicture = s.undisplayed.lastPicture by rw [h]
  refine ⟨fun hl => hlast ▸ hl, Or.inr ?_, ?_⟩
  · show (t.undisplayed.stores i).pairKey = (s.undisplayed.stores i).pairKey
    rw [h]
  · show (t.undisplayed.pics p).pairKey = (s.undisplayed.pics p).pairKey
    rw [h]

theorem freeStore_isUsed (s : Dpb) (i : Nat) : ((s.freeStore i).stores i).isUsed = .empty := by
  unfold freeStore
  rw [modifyStore_self]

theorem samePair_remove (s : Dpb) {pos j : Nat} (hpos : s.used[pos]? = some j) :
    s.SamePair (s.removeFrameFromDpb pos) i p := by
  have hlast : (s.removeFrameFromDpb pos).lastPicture = s.lastPicture :=
    show (s.removeFrameFromDpb pos).unstored.lastPicture = s.unstored.lastPicture by
      rw [unstored_removeFrameFromDpb]
  refine ⟨fun hl => hlast ▸ hl, ?_,
    removeFrame_pics s pos p StorablePicture.pairKey fun _ => rfl⟩
  by_cases hij : i = j
  · apply Or.inl
    unfold removeFrameFromDpb
    rw [fs_of_used hpos, hij]
    exact freeStore_isUsed s j
  · rw [removeFrame_stores s hpos hij]
    exact Or.inr rfl

/-- Every move but a command or a write to the current picture leaves the pair as it is. -/
theorem samePair_move (hm : Move none s t) (hp : s.Loose p) : s.SamePair t i p := by
  cases hm with
  | steer ht =>
    have hlast : t.lastPicture = s.lastPicture :=
      show t.unsteered.lastPicture = s.unsteered.lastPicture by rw [ht]
    have hstores : t.stores = s.stores := show t.unsteered.stores = s.unsteered.stores by rw [ht]
    have hpics : t.pics = s.pics := show t.unsteered.pics = s.unsteered.pics by rw [ht]
    exact ⟨fun hl => hlast ▸ hl, Or.inr (by rw [hstores]), by rw [hpics]⟩
  | unmark j =>
    exact unmarks_samePair (unmarked_unmarkForReference s j) (unmarks_unmarkForReference s j) hp
  | unmarkLong j =>
    exact unmarks_samePair (unmarked_unmarkForLongTermReference s j)
      (unmarks_unmarkForLongTermReference s j) hp
  | command p m hd => exact absurd hd nofun
  | refList => exact ⟨id, Or.inr rfl, rfl⟩
  | ltrefList => exact ⟨id, Or.inr rfl, rfl⟩
  | current p f hd hf => exact absurd hd nofun
  | forget => exact ⟨nofun, Or.inr rfl, rfl⟩
  | remove pos j hpos => exact samePair_remove s hpos
  | output flushFlag => exact samePair_of_undisplayed (undisplayed_outputFrames s flushFlag)
  | flag index => exact samePair_of_undisplayed (undisplayed_setFrameOutputFlag s index)
  | lone q => exact samePair_of_undisplayed (undisplayed_showLoneField s q)

/-- A move that needs no current picture is one whatever the current picture is. -/
theorem Move.of_none {d : Option Nat} (hm : Move none s t) : Move d s t := by
  cases hm with
  | steer ht => exact .steer ht
  | unmark j => exact .unmark s j
  | unmarkLong j => exact .unmarkLong s j
  | command p m hd => exact absurd hd nofun
  | refList => exact .refList s
  | ltrefList => exact .ltrefList s
  | current p f hd hf => exact absurd hd nofun
  | forget => exact .forget s
  | remove pos j hpos hout href => exact .remove s pos j hpos hout href
  | output flushFlag => exact .output s flushFlag
  | flag index => exact .flag s index
  | lone q => exact .lone s q

theorem samePair_moves (hm : Moves none s t) (hp : s.frames.Pooled (some p)) :
    s.SamePair t i p ∧ t.frames.Pooled (some p) :=
  hm.keep (P := fun t => s.SamePair t i p ∧ t.frames.Pooled (some p)) (fun _ _ hmove h =>
    ⟨h.1.trans (samePair_move hmove (loose_current h.2)), pooled_move hmove.of_none h.2⟩)
    ⟨.refl s i p, hp⟩

/-! ## Before and after the marking -/

theorem idr_lastPicture (s : Dpb) (p : Nat) : (s.idrMemoryManagement p).lastPicture = none := by
  unfold idrMemoryManagement markIdrPicture
  dsimp only
  split <;> rfl

theorem resetPicture_pairKey (q : StorablePicture) :
    (resetPicture q).pairKey = (0, q.picStructure, q.usedForReference) := by
  unfold resetPicture
  dsimp only
  split <;> rfl

theorem SamePair.reset (h : s.SamePair t i p) :
    (s.modifyPic (some p) resetPicture).SamePair (t.modifyPic (some p) resetPicture) i p := by
  refine ⟨h.last, h.store, ?_⟩
  have hpic := h.pic
  simp only [StorablePicture.pairKey, Prod.mk.injEq] at hpic
  rw [modifyPic_pics, modifyPic_pics, if_pos rfl, if_pos rfl, resetPicture_pairKey,
    resetPicture_pairKey, hpic.2.1, hpic.2.2]

/-- The state after the commands of a picture, before a reset. -/
def afterCommands (s : Dpb) (p : Nat) : Dpb :=
  s.mSlice.decRefPicMarkingBuffer.foldl (fun (s : Dpb) m => s.memoryManagementControl p m)
    { s with mVideo := { s.mVideo with lastHasMmco5 := false } }

theorem unmarked_afterCommands (s : Dpb) (p : Nat) :
    (s.afterCommands p).unmarked =
      ({ s with mVideo := { s.mVideo with lastHasMmco5 := false } } : Dpb).unmarked.noteMmco5
        (s.mSlice.decRefPicMarkingBuffer.any fun m => m.memoryManagementControlOperation = 5) :=
  unmarked_adaptiveLoop _ p _

theorem samePair_afterCommands (hp : s.Loose p) : s.SamePair (s.afterCommands p) i p := by
  have hclear : s.SamePair { s with mVideo := { s.mVideo with lastHasMmco5 := false } } i p :=
    ⟨id, Or.inr rfl, rfl⟩
  exact hclear.trans (samePair_of_unmarked (unmarked_afterCommands s p)
    (wanes_adaptiveLoop _ p _) hp)

theorem adaptiveMemoryManagement_eq (s : Dpb) (p : Nat) :
    s.adaptiveMemoryManagement p =
      if s.mSlice.decRefPicMarkingBuffer.any fun m => m.memoryManagementControlOperation = 5 then
        ((s.afterCommands p).modifyPic (some p) resetPicture).flushDpb
      else s.afterCommands p := by
  have hlast : (s.afterCommands p).mVideo.lastHasMmco5 =
      s.mSlice.decRefPicMarkingBuffer.any fun m => m.memoryManagementControlOperation = 5 := by
    have hloop := unmarked_afterCommands s p
    show (s.afterCommands p).unmarked.mVideo.lastHasMmco5 = _
    rw [hloop]
    exact Bool.false_or _
  show (if (s.afterCommands p).mVideo.lastHasMmco5 then _ else s.afterCommands p) = _
  rw [hlast]
  rfl

/-- The marking of a picture that is no IDR picture, by what its commands do. -/
theorem storeMarking_cases (hidr : (s.pics p).idrFlag = false) :
    (s.resets p = false ∧ (s.storeMarking p = s.notePicture p ∨
        s.storeMarking p = (s.notePicture p).afterCommands p)) ∨
      (s.resets p = true ∧ s.storeMarking p =
        (((s.notePicture p).afterCommands p).modifyPic (some p) resetPicture).flushDpb) := by
  have hnote : (s.notePicture p).pics p = s.pics p := rfl
  have hbuffer : (s.notePicture p).mSlice = s.mSlice := rfl
  unfold storeMarking resets
  dsimp only
  rw [hnote, hidr, if_neg (by decide), adaptiveMemoryManagement_eq, hbuffer]
  cases (s.pics p).usedForReference && (s.pics p).adaptiveRefPicBufferingFlag with
  | false => exact Or.inl ⟨rfl, Or.inl rfl⟩
  | true =>
    rw [if_pos rfl, Bool.true_and]
    cases s.mSlice.decRefPicMarkingBuffer.any fun m =>
      decide (m.memoryManagementControlOperation = 5) with
    | false => exact Or.inl ⟨rfl, Or.inr rfl⟩
    | true => exact Or.inr ⟨rfl, rfl⟩

/-- The marking leaves alone what the tests read, but for a reset. -/
theorem samePair_storeMarking (hp : s.frames.Pooled (some p))
    (hidr : (s.pics p).idrFlag = false) :
    (if s.resets p then s.modifyPic (some p) resetPicture else s).SamePair (s.storeMarking p) i p := by
  have hnote : s.SamePair (s.notePicture p) i p := ⟨id, Or.inr rfl, rfl⟩
  have hcommands : s.SamePair ((s.notePicture p).afterCommands p) i p :=
    hnote.trans (samePair_afterCommands (s := s.notePicture p) (loose_current hp))
  rcases storeMarking_cases hidr with ⟨hr, hs | hs⟩ | ⟨hr, hs⟩
  · rw [hr, hs]
    exact hnote
  · rw [hr, hs]
    exact hcommands
  · rw [hr, hs, if_pos rfl]
    have hpool : (((s.notePicture p).afterCommands p).modifyPic (some p)
        resetPicture).frames.Pooled (some p) := by
      apply pooled_move (.current _ p resetPicture rfl resetPicture_isUsed)
      exact pooled_moves ((Relation.ReflTransGen.single (.steer rfl)).trans
        (moves_adaptiveLoop _ rfl _)) hp
    exact hcommands.reset.trans (samePair_moves (moves_flush none _) hpool).1

/-- An IDR picture ends the waiting of a first field. -/
theorem storeMarking_idr_last (hidr : (s.pics p).idrFlag = true) :
    (s.storeMarking p).lastPicture = none := by
  unfold storeMarking skipFirstOutput
  dsimp only
  rw [show ((s.notePicture p).pics p).idrFlag = true from hidr, if_pos rfl,
    apply_ite Dpb.lastPicture]
  exact (ite_self _).trans (idr_lastPicture _ p)

/-- The picture that completes a frame after the marking is known before. -/
theorem completes_of_paired (hp : s.frames.Pooled (some p))
    (h : (s.storeMarking p).pairedStore p = some i) : s.Completes p i := by
  obtain ⟨hlast, hsecond⟩ := Option.filter_eq_some_iff.mp h
  cases hidr : (s.pics p).idrFlag with
  | true =>
    exact absurd ((storeMarking_idr_last hidr).symm.trans hlast) nofun
  | false =>
    have hsame := samePair_storeMarking (i := i) hp hidr
    refine ⟨?_, hidr, hsame.isSecondField hsecond⟩
    have hl := hsame.last hlast
    split at hl
    · exact hl
    · exact hl

end Dpb

end MediaModules.H264Dpb
