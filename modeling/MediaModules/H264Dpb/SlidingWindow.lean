import MediaModules.H264Dpb.Untouched

/-!
# The sliding window

`sliding_window_memory_management` compares the number of reference frames with the limit for
equality. It makes room for a picture when exactly the limit is held, by dropping the first
short-term frame of the buffer. When more are held, as after a change of `num_ref_frames`, it drops
none; the excess is left to the recovery of the buffer manager.
-/
namespace MediaModules.H264Dpb.Dpb

open MediaModules.H264Dpb

variable {s t : Dpb} {d : Option Nat} {p i : Nat}

/-- The frame store is a reference without a long-term field: the test of
`sliding_window_memory_management`. -/
def slidable (s : Dpb) (i : Nat) : Bool :=
  (s.stores i).isReference ≠ .empty && (s.stores i).isLongTerm = .empty

/-- The number of short-term and long-term reference frames, as the lists count them. -/
def refFrames (s : Dpb) : Nat := s.fsRef.length + s.fsLtref.length

/-- How many of them there may be with the current picture. -/
def refLimit (s : Dpb) : Int := max 1 s.numRefFrames

/-- The frame store the window slides over. -/
def slidOut (s : Dpb) : Option Nat :=
  if (s.refFrames : Int) = s.refLimit then s.used.find? s.slidable else none

/-- Without the frame store there are fewer short-term frames than the list counts. -/
def MakesRoom (s : Dpb) (i : Nat) : Prop :=
  ((s.used.filter s.isShortTermReference).erase i).length < s.fsRef.length

/-- The lists are those `update_ref_list` and `update_ltref_list` make. -/
structure Listed (s : Dpb) : Prop where
  short : s.fsRef = s.used.filter s.isShortTermReference
  long : s.fsLtref = s.used.filter s.isLongTermReference

instance (s : Dpb) : Decidable s.Listed :=
  decidable_of_iff (s.fsRef = s.used.filter s.isShortTermReference ∧
    s.fsLtref = s.used.filter s.isLongTermReference) ⟨fun h => ⟨h.1, h.2⟩, fun h => ⟨h.1, h.2⟩⟩

/-- At most one store is dropped, the others keep their marks, and only then the list of the
short-term references is made anew. -/
structure Slides (s t : Dpb) (one : Option Nat) : Prop where
  used : t.used = s.used
  fsLtref : t.fsLtref = s.fsLtref
  others : ∀ j ∈ s.used, one ≠ some j → s.Untouched t j
  dropped : ∀ i, one = some i → t.isUsedForReference i = false
  fsRef : t.fsRef = if one.isSome then t.used.filter t.isShortTermReference else s.fsRef

/-! ## Dropping one store -/

/-- A store that is not used for reference holds neither kind of reference. -/
theorem unreferenced_holds (h : s.isUsedForReference i = false) {marked : StorablePicture → Bool}
    (hm : ∀ q, marked q = true → q.usedForReference = true) : s.holds marked i = false := by
  have hnone := (Bool.or_eq_false_iff.mp h).2
  rw [Bool.eq_false_iff]
  intro hheld
  have hall : s.holds (fun q => q.usedForReference) i = true := by
    rw [holds_eq_true] at hheld ⊢
    rcases hheld with ⟨hu, hq⟩ | ⟨hu, hs, hq⟩ | ⟨hu, hs, hq⟩
    · exact Or.inl ⟨hu, hm _ hq⟩
    · exact Or.inr (Or.inl ⟨hu, hs, hm _ hq⟩)
    · exact Or.inr (Or.inr ⟨hu, hs, hm _ hq⟩)
  rw [hnone] at hall
  exact absurd hall (by decide)

/-- The write to the current picture. -/
theorem notLongTerm_untouched (hp : s.Loose p) (j : Nat) :
    s.Untouched (s.modifyPic (some p) fun q => { q with isLongTerm := false }) j := by
  apply modifyPic_untouched
  exact fun q hq hpq => hp j (Option.some.inj hpq ▸ hq)

/-- Nothing is dropped. -/
theorem slides_none (hp : s.Loose p) :
    s.Slides (s.modifyPic (some p) fun q => { q with isLongTerm := false }) none :=
  ⟨rfl, rfl, fun j _ _ => notLongTerm_untouched hp j, nofun, rfl⟩

/-- A short-term frame is dropped. -/
theorem slides_one (h : s.frames.Pooled d) (hp : s.Loose p) (i : Nat) :
    s.Slides ((s.unmarkForReference i).updateRefList.modifyPic (some p)
      fun q => { q with isLongTerm := false }) (some i) := by
  have hun := unmarks_unmarkForReference s i
  have hused : (s.unmarkForReference i).used = s.used :=
    used_of_unmarked (unmarked_unmarkForReference s i)
  have hloose : (s.unmarkForReference i).updateRefList.Loose p :=
    fun j hj => hp j (hun.shape j ▸ hj)
  have hlast := notLongTerm_untouched hloose
  have hclear := (hlast i).isUsedForReference.trans (unmarkForReference_clears s i)
  refine ⟨hused, hun.fsLtref, fun j hj hne => ?_, fun j hj => Option.some.inj hj ▸ hclear, ?_⟩
  · have hji : j ≠ i := fun hji => hne (congrArg some hji.symm)
    exact (unmark_refreshed_untouched h hj hji).trans (hlast j)
  · exact List.filter_congr fun j _ => (hlast j).isShortTermReference.symm

/-- The short-term frames are those that were there, but for the dropped one. -/
theorem fsRef_slides (hnd : s.used.Nodup) (h : s.Slides t (some i)) :
    t.fsRef = (s.used.filter s.isShortTermReference).erase i := by
  have hlist : t.fsRef = t.used.filter t.isShortTermReference := h.fsRef
  rw [hlist, h.used, (hnd.filter _).erase_eq_filter, List.filter_filter]
  apply List.filter_congr
  intro j hj
  by_cases hji : j = i
  · subst hji
    rw [bne_self_eq_false, Bool.false_and]
    exact unreferenced_holds (h.dropped j rfl) fun _ hq => (Bool.and_eq_true_iff.mp hq).1
  · have hne : some i ≠ some j := fun hij => hji (Option.some.inj hij).symm
    rw [(h.others j hj hne).isShortTermReference, bne_iff_ne.mpr hji, Bool.true_and]

theorem Listed.makesRoom_iff (h : s.Listed) (hi : i ∈ s.used) :
    s.MakesRoom i ↔ s.isShortTermReference i = true := by
  unfold MakesRoom
  rw [h.short]
  constructor
  · intro hlt
    by_contra hnot
    have hmem : i ∉ s.used.filter s.isShortTermReference :=
      fun hmem => hnot (List.mem_filter.mp hmem).2
    rw [List.erase_of_not_mem hmem] at hlt
    exact Nat.lt_irrefl _ hlt
  · intro hshort
    have hmem := List.mem_filter.mpr ⟨hi, hshort⟩
    have hpos := List.length_pos_of_mem hmem
    rw [List.length_erase_of_mem hmem]
    omega

/-! ## The window -/

theorem slidOut_some (h : s.slidOut = some i) : (s.refFrames : Int) = s.refLimit ∧ i ∈ s.used ∧
    s.slidable i = true := by
  unfold slidOut at h
  split at h
  · next heq => exact ⟨heq, List.mem_of_find?_eq_some h, List.find?_some h⟩
  · exact absurd h nofun

theorem slidingWindow_eq (s : Dpb) (p : Nat) : s.slidingWindowMemoryManagement p =
    (match s.slidOut with
      | some i => (s.unmarkForReference i).updateRefList
      | none => s).modifyPic (some p) fun q => { q with isLongTerm := false } := by
  have hmargin : (s.fsRef.length : Int) = max 1 s.numRefFrames - s.fsLtref.length ↔
      (s.refFrames : Int) = s.refLimit := by
    unfold refFrames refLimit
    omega
  unfold slidingWindowMemoryManagement slidOut
  simp only [hmargin]
  split
  · rfl
  · rfl

/-- At most one frame is dropped, the first one that can be, and only when exactly as many frames
are counted as the limit allows. So there is room for the new picture when there was before, or
when the limit was just reached and a frame is dropped that was counted. -/
theorem window_slides (h : s.frames.Pooled d) (hp : s.Loose p) :
    s.Slides (s.slidingWindowMemoryManagement p) s.slidOut ∧
      (((s.slidingWindowMemoryManagement p).refFrames : Int) ≤ s.refLimit - 1 ↔
        (s.refFrames : Int) < s.refLimit ∨ ∃ i, s.slidOut = some i ∧ s.MakesRoom i) := by
  have hslides : s.Slides (s.slidingWindowMemoryManagement p) s.slidOut := by
    rw [slidingWindow_eq]
    cases s.slidOut with
    | none => exact slides_none hp
    | some i => exact slides_one h hp i
  refine ⟨hslides, ?_⟩
  unfold refFrames
  rw [hslides.fsLtref]
  cases hout : s.slidOut with
  | none =>
    rw [hout] at hslides
    have hsame : (s.slidingWindowMemoryManagement p).fsRef = s.fsRef := hslides.fsRef
    rw [hsame]
    constructor
    · exact fun hle => Or.inl (by omega)
    · rintro (hlt | ⟨i, hi, -⟩)
      · omega
      · exact absurd hi nofun
  | some i =>
    rw [hout] at hslides
    have heq := (slidOut_some hout).1
    have hshort := fsRef_slides (h.buffered.fs_nodup.sublist (List.take_sublist _ _)) hslides
    unfold refFrames at heq
    rw [hshort]
    constructor
    · intro hle
      refine Or.inr ⟨i, rfl, ?_⟩
      unfold MakesRoom
      omega
    · rintro (hlt | ⟨j, hj, hroom⟩)
      · omega
      · rw [← Option.some.inj hj] at hroom
        unfold MakesRoom at hroom
        omega

/-- The slice of a reference frame in a stream with so many of them. -/
def referenceSlice (numRefFrames frameNum : Int) : Op :=
  .slice { sps := { numRefFrames := numRefFrames }, nalReferenceIdc := 1, frameNum := frameNum } true

/-- Two reference frames are held, the limit of the stream; the first one makes room. -/
theorem window_slides_at_limit : ∃ s, Lib.Run.run step (initial 4 {} {} .idle)
      [referenceSlice 2 0, .store 0 [], referenceSlice 2 1, .store 0 [], referenceSlice 2 2] =
        some s ∧
    s.mVideo.decPicture = some 7 ∧ s.slidOut = some 0 ∧ s.refFrames = 2 ∧ s.refLimit = 2 ∧
    s.Slides (s.slidingWindowMemoryManagement 7) (some 0) ∧
    ((s.slidingWindowMemoryManagement 7).refFrames : Int) ≤ s.refLimit - 1 := by
  obtain ⟨s, hs⟩ := Option.isSome_iff_exists.mp
    (by decide +kernel : (Lib.Run.run step (initial 4 {} {} .idle)
      [referenceSlice 2 0, .store 0 [], referenceSlice 2 1, .store 0 [],
        referenceSlice 2 2]).isSome = true)
  obtain ⟨d, hp⟩ := pooled_reachable ⟨4, {}, {}, .idle, by decide, _, hs⟩
  have hcur : s.mVideo.decPicture = some 7 :=
    Lib.Run.read_of_run (fun s => s.mVideo.decPicture) (by decide +kernel) hs
  obtain rfl : some 7 = d := hcur.symm.trans hp.current
  have hout : s.slidOut = some 0 := Lib.Run.read_of_run slidOut (by decide +kernel) hs
  have hlisted : s.Listed := of_decide_eq_true
    (Lib.Run.read_of_run (fun s => decide s.Listed) (by decide +kernel) hs)
  have hshort : s.isShortTermReference 0 = true :=
    Lib.Run.read_of_run (fun s => s.isShortTermReference 0) (by decide +kernel) hs
  have hroom : s.MakesRoom 0 := (hlisted.makesRoom_iff (slidOut_some hout).2.1).mpr hshort
  obtain ⟨hslides, hiff⟩ := window_slides hp (loose_current hp)
  exact ⟨s, hs, hcur, hout, Lib.Run.read_of_run refFrames (by decide +kernel) hs,
    Lib.Run.read_of_run refLimit (by decide +kernel) hs, hout ▸ hslides,
    hiff.mpr (Or.inr ⟨0, hout, hroom⟩)⟩

/-- The limit of the stream goes down from three to one: the window leaves all three frames. -/
theorem lowered_limit_exceeded : ∃ s, Lib.Run.run step (initial 4 {} {} .idle)
      [referenceSlice 3 0, .store 0 [], referenceSlice 3 1, .store 0 [], referenceSlice 3 2,
        .store 0 [], referenceSlice 1 3] = some s ∧
    s.mVideo.decPicture = some 10 ∧ s.Listed ∧ s.fsRef = [0, 1, 2] ∧ s.refFrames = 3 ∧
    s.refLimit = 1 ∧ s.used.countP s.slidable = 3 ∧
    ¬ ((s.slidingWindowMemoryManagement 10).refFrames : Int) ≤ s.refLimit - 1 := by
  obtain ⟨s, hs⟩ := Option.isSome_iff_exists.mp
    (by decide +kernel : (Lib.Run.run step (initial 4 {} {} .idle)
      [referenceSlice 3 0, .store 0 [], referenceSlice 3 1, .store 0 [], referenceSlice 3 2,
        .store 0 [], referenceSlice 1 3]).isSome = true)
  have hlimit : s.refLimit = 1 := Lib.Run.read_of_run refLimit (by decide +kernel) hs
  have hafter : (s.slidingWindowMemoryManagement 10).refFrames = 3 :=
    Lib.Run.read_of_run (fun s => (s.slidingWindowMemoryManagement 10).refFrames)
      (by decide +kernel) hs
  refine ⟨s, hs, Lib.Run.read_of_run (fun s => s.mVideo.decPicture) (by decide +kernel) hs,
    of_decide_eq_true (Lib.Run.read_of_run (fun s => decide s.Listed) (by decide +kernel) hs),
    Lib.Run.read_of_run fsRef (by decide +kernel) hs,
    Lib.Run.read_of_run refFrames (by decide +kernel) hs, hlimit,
    Lib.Run.read_of_run (fun s => s.used.countP s.slidable) (by decide +kernel) hs, ?_⟩
  rw [hafter, hlimit]
  decide

end MediaModules.H264Dpb.Dpb
