import MediaModules.H264Dpb.Commands
import MediaModules.H264Dpb.Slices

/-!
# The lists of references

Between two marking commands references only fade: marks are taken away, stores are removed.
`fs_ref` and `fs_ltref` list all references, at any time: where a mark is taken away they may list
too much, never too little.
-/
namespace MediaModules.H264Dpb.Dpb

open MediaModules.H264Dpb

variable {s t u : Dpb} {d : Option Nat}

/-! ## Removing a store -/

theorem used_of_unmarked (h : t.unmarked = s.unmarked) : t.used = s.used :=
  show t.unmarked.used = s.unmarked.used by rw [h]

theorem freeStore_stores (s : Dpb) {i j : Nat} (hj : j ≠ i) :
    (s.freeStore i).stores j = s.stores j := by
  have hbeside : (s.freeStore i).beside i = s.beside i := by
    unfold freeStore freePicture
    simp only [beside_modifyStore, apply_ite (beside i), beside_modifyPic, ite_self]
  have hstore : ((s.freeStore i).beside i).stores j = (s.beside i).stores j := by rw [hbeside]
  exact (if_neg hj).symm.trans (hstore.trans (if_neg hj))

theorem used_remove {pos i : Nat} (hb : s.frames.Buffered) (hpos : s.used[pos]? = some i) :
    (s.removeFrameFromDpb pos).used = s.used.eraseIdx pos :=
  show (s.removeFrameFromDpb pos).frames.used = s.frames.used.eraseIdx pos by
    rw [frames_remove hb hpos, hb.used_remove hpos]

/-- The stores left in use are the used ones but for the removed one. -/
theorem mem_used_remove {pos i j : Nat} (hb : s.frames.Buffered) (hpos : s.used[pos]? = some i) :
    j ∈ (s.removeFrameFromDpb pos).used ↔ j ∈ s.used ∧ j ≠ i := by
  have hperm : s.used.Perm (i :: (s.removeFrameFromDpb pos).used) := by
    have hp := hb.used_perm hpos
    rw [← frames_remove hb hpos] at hp
    exact hp
  have hnd : s.used.Nodup := hb.fs_nodup.sublist (List.take_sublist _ _)
  have hnot := (List.nodup_cons.mp (hperm.nodup_iff.mp hnd)).1
  rw [hperm.mem_iff, List.mem_cons]
  constructor
  · exact fun hj => ⟨Or.inr hj, fun hji => hnot (hji ▸ hj)⟩
  · exact fun hj => hj.1.resolve_left hj.2

theorem removeFrame_stores (s : Dpb) {pos i j : Nat} (hpos : s.used[pos]? = some i) (hj : j ≠ i) :
    (s.removeFrameFromDpb pos).stores j = s.stores j := by
  unfold removeFrameFromDpb
  rw [fs_of_used hpos]
  exact freeStore_stores s hj

/-- What does not read `is_used` of a picture reads the same after a removal. -/
theorem removeFrame_pics (s : Dpb) (pos q : Nat) {α : Type} (g : StorablePicture → α)
    (hg : ∀ q, g { q with isUsed := false } = g q) :
    g ((s.removeFrameFromDpb pos).pics q) = g (s.pics q) := by
  have hpics : (s.removeFrameFromDpb pos).unstored.pics q = s.unstored.pics q := by
    rw [unstored_removeFrameFromDpb]
  rw [← hg, ← hg (s.pics q)]
  exact congrArg g hpics

/-! ## References fade -/

/-- With the same lists, there are fewer stores in use and fewer references in them. -/
structure Fades (s t : Dpb) : Prop where
  used : ∀ i ∈ t.used, i ∈ s.used
  shape : ∀ i ∈ t.used, (t.stores i).shape = (s.stores i).shape
  index : ∀ i ∈ t.used, (t.stores i).longTermFrameIdx = (s.stores i).longTermFrameIdx
  pics : ∀ i ∈ t.used, ∀ q ∈ (s.stores i).shape.held,
    ((t.pics q).isShort = true → (s.pics q).isShort = true) ∧
      ((t.pics q).isLong = true → (s.pics q).isLong = true)
  fsRef : t.fsRef = s.fsRef
  fsLtref : t.fsLtref = s.fsLtref
  last : ∀ i, t.lastPicture = some i → s.lastPicture = some i

/-- Taking marks away. -/
theorem Unmarks.fades (h : s.Unmarks t) (hun : t.unmarked = s.unmarked) : s.Fades t := by
  have hused : t.used = s.used := used_of_unmarked hun
  have hlast : t.lastPicture = s.lastPicture :=
    show t.unmarked.lastPicture = s.unmarked.lastPicture by rw [hun]
  refine ⟨fun i hi => hused ▸ hi, fun i _ => h.shape i, fun i _ => h.longTermFrameIdx i,
    fun _ _ q _ => ⟨?_, ?_⟩, h.fsRef, h.fsLtref, fun i hi => hlast ▸ hi⟩
  · exact fun hq => h.pics q (Bool.and_eq_true_iff.mp hq).1 ▸ hq
  · exact fun hq => h.pics q (Bool.and_eq_true_iff.mp hq).1 ▸ hq

/-- A write to a picture outside the frame stores. -/
theorem fades_current {p : Nat} (hp : s.Loose p) (f : StorablePicture → StorablePicture) :
    s.Fades (s.modifyPic (some p) f) := by
  refine ⟨fun _ => id, fun _ _ => rfl, fun _ _ => rfl, fun i _ q hq => ?_, rfl, rfl, fun _ => id⟩
  have hne : q ≠ p := fun hqp => hp i (hqp ▸ hq)
  rw [modifyPic_pics, if_neg hne]
  exact ⟨id, id⟩

theorem fades_remove {pos i : Nat} (hb : s.frames.Buffered) (hpos : s.used[pos]? = some i) :
    s.Fades (s.removeFrameFromDpb pos) := by
  have hunstored := unstored_removeFrameFromDpb s pos
  have hstores (j : Nat) (hj : j ∈ (s.removeFrameFromDpb pos).used) :
      (s.removeFrameFromDpb pos).stores j = s.stores j :=
    removeFrame_stores s hpos ((mem_used_remove hb hpos).mp hj).2
  refine ⟨fun j hj => ((mem_used_remove hb hpos).mp hj).1, fun j hj => by rw [hstores j hj],
    fun j hj => by rw [hstores j hj], fun _ _ q _ => ?_, ?_, ?_, fun j hj => ?_⟩
  · rw [removeFrame_pics s pos q StorablePicture.isShort fun _ => rfl,
      removeFrame_pics s pos q StorablePicture.isLong fun _ => rfl]
    exact ⟨id, id⟩
  · show (s.removeFrameFromDpb pos).unstored.fsRef = s.unstored.fsRef
    rw [hunstored]
  · show (s.removeFrameFromDpb pos).unstored.fsLtref = s.unstored.fsLtref
    rw [hunstored]
  · have hlast : (s.removeFrameFromDpb pos).lastPicture = s.lastPicture :=
      show (s.removeFrameFromDpb pos).unstored.lastPicture = s.unstored.lastPicture by
        rw [hunstored]
    exact hlast ▸ hj

theorem fades_of_undisplayed (ht : t.undisplayed = s.undisplayed) : s.Fades t := by
  have hpics : t.pics = s.pics := show t.undisplayed.pics = s.undisplayed.pics by rw [ht]
  have hstore (i : Nat) : (t.stores i).undisplayed = (s.stores i).undisplayed :=
    show t.undisplayed.stores i = s.undisplayed.stores i by rw [ht]
  refine ⟨fun i hi => ?_, fun i _ => ?_, fun i _ => ?_, fun i _ q _ => by rw [hpics]; exact ⟨id, id⟩,
    ?_, ?_, fun i hi => ?_⟩
  · have hused : t.used = s.used := show t.undisplayed.used = s.undisplayed.used by rw [ht]
    exact hused ▸ hi
  · show (t.stores i).undisplayed.shape = (s.stores i).undisplayed.shape
    rw [hstore i]
  · show (t.stores i).undisplayed.longTermFrameIdx = (s.stores i).undisplayed.longTermFrameIdx
    rw [hstore i]
  · show t.undisplayed.fsRef = s.undisplayed.fsRef
    rw [ht]
  · show t.undisplayed.fsLtref = s.undisplayed.fsLtref
    rw [ht]
  · have hlast : t.lastPicture = s.lastPicture :=
      show t.undisplayed.lastPicture = s.undisplayed.lastPicture by rw [ht]
    exact hlast ▸ hi

theorem fades_of_unsteered (ht : t.unsteered = s.unsteered) : s.Fades t := by
  have hused : t.used = s.used := show t.unsteered.used = s.unsteered.used by rw [ht]
  have hstores : t.stores = s.stores := show t.unsteered.stores = s.unsteered.stores by rw [ht]
  have hpics : t.pics = s.pics := show t.unsteered.pics = s.unsteered.pics by rw [ht]
  have hlast : t.lastPicture = s.lastPicture :=
    show t.unsteered.lastPicture = s.unsteered.lastPicture by rw [ht]
  refine ⟨fun i hi => hused ▸ hi, fun i _ => by rw [hstores], fun i _ => by rw [hstores],
    fun i _ q _ => by rw [hpics]; exact ⟨id, id⟩, ?_, ?_, fun i hi => hlast ▸ hi⟩
  · show t.unsteered.fsRef = s.unsteered.fsRef
    rw [ht]
  · show t.unsteered.fsLtref = s.unsteered.fsLtref
    rw [ht]

/-- A move makes references fade, lists them anew, or is a command. -/
theorem fades_move (hm : Move d s t) (hp : s.frames.Pooled d) :
    s.Fades t ∨ t = s.updateRefList ∨ t = s.updateLtrefList ∨
      ∃ p m, d = some p ∧ t = s.memoryManagementControl p m := by
  cases hm with
  | steer ht => exact Or.inl (fades_of_unsteered ht)
  | unmark i =>
    exact Or.inl ((unmarks_unmarkForReference s i).fades (unmarked_unmarkForReference s i))
  | unmarkLong i =>
    exact Or.inl ((unmarks_unmarkForLongTermReference s i).fades
      (unmarked_unmarkForLongTermReference s i))
  | command p m hd => exact Or.inr (Or.inr (Or.inr ⟨p, m, hd, rfl⟩))
  | refList => exact Or.inr (Or.inl rfl)
  | ltrefList => exact Or.inr (Or.inr (Or.inl rfl))
  | current p f hd hf => exact Or.inl (fades_current (loose_current (hd ▸ hp)) f)
  | forget =>
    exact Or.inl ⟨fun _ => id, fun _ _ => rfl, fun _ _ => rfl, fun _ _ _ _ => ⟨id, id⟩, rfl, rfl,
      nofun⟩
  | remove pos i hpos => exact Or.inl (fades_remove hp.buffered hpos)
  | output flushFlag => exact Or.inl (fades_of_undisplayed (undisplayed_outputFrames s flushFlag))
  | flag index => exact Or.inl (fades_of_undisplayed (undisplayed_setFrameOutputFlag s index))
  | lone p => exact Or.inl (fades_of_undisplayed (undisplayed_showLoneField s p))

end MediaModules.H264Dpb.Dpb
