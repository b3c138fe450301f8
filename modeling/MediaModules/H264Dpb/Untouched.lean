import MediaModules.H264Dpb.References

/-!
# Frame stores left alone

Every picture belongs to one frame store. What takes the marks from a store, or takes the store out
of the buffer, leaves the others and their pictures as they are.
-/
namespace MediaModules.H264Dpb.Dpb

open MediaModules.H264Dpb

variable {s t u : Dpb} {d : Option Nat} {i j : Nat}

/-- The frame store and its pictures are as before. -/
structure Untouched (s t : Dpb) (j : Nat) : Prop where
  store : t.stores j = s.stores j
  pics : ∀ q ∈ (s.stores j).shape.held, t.pics q = s.pics q

namespace Untouched

theorem refl (s : Dpb) (j : Nat) : s.Untouched s j := ⟨rfl, fun _ _ => rfl⟩

theorem trans (h : s.Untouched t j) (h' : t.Untouched u j) : s.Untouched u j where
  store := h'.store.trans h.store
  pics q hq := (h'.pics q (h.store ▸ hq)).trans (h.pics q hq)

theorem holds (h : s.Untouched t j) (marked : StorablePicture → Bool) :
    t.holds marked j = s.holds marked j := by
  have hshape : (t.stores j).shape = (s.stores j).shape := by rw [h.store]
  rw [Bool.eq_iff_iff]
  constructor
  · exact holds_mono hshape fun q hq hm => h.pics q hq ▸ hm
  · apply holds_mono hshape.symm
    rw [hshape]
    exact fun q hq hm => (h.pics q hq).symm ▸ hm

theorem isShortTermReference (h : s.Untouched t j) :
    t.isShortTermReference j = s.isShortTermReference j :=
  h.holds fun q => q.usedForReference && !q.isLongTerm

theorem isUsedForReference (h : s.Untouched t j) :
    t.isUsedForReference j = s.isUsedForReference j := by
  unfold Dpb.isUsedForReference
  rw [h.store, h.holds]

end Untouched

/-! ## One store among the others -/

/-- Two frame stores have no picture in common. -/
theorem held_disjoint (h : s.frames.Pooled d) (hj : j ∈ s.used) (hne : j ≠ i) {q : Nat}
    (hq : q ∈ (s.stores j).shape.held) : q ∉ (s.stores i).shape.held := by
  intro hi
  have hroots := h.owned.roots_nodup
  unfold Frames.roots at hroots
  have hnd := (List.nodup_append.mp hroots).2.1
  have hused : i ∈ s.frames.used := by
    apply (h.buffered.used_iff i).mpr
    intro he
    have hempty : (s.stores i).shape = .empty := (h.buffered.shape_ok i).held_empty he
    rw [hempty] at hi
    exact absurd hi List.not_mem_nil
  have hsymm : Std.Symm (Function.onFun List.Disjoint fun k => (s.frames.shape k).held) :=
    ⟨fun _ _ hd => List.disjoint_symm hd⟩
  have hdisj := (List.nodup_flatMap.mp hnd).2.forall hj hused hne
  exact hdisj hq hi

theorem modifyPic_untouched {p : Option Nat} {f : StorablePicture → StorablePicture}
    (hp : ∀ q ∈ (s.stores j).shape.held, p ≠ some q) : s.Untouched (s.modifyPic p f) j := by
  refine ⟨congrFun (modifyPic_stores s p f) j, fun q hq => ?_⟩
  cases p with
  | none => rfl
  | some p =>
    rw [modifyPic_pics, if_neg]
    exact fun hqp => hp q hq (congrArg some hqp.symm)

theorem modifyPic_if_untouched {c : Prop} [Decidable c] {p : Option Nat}
    {f : StorablePicture → StorablePicture} (hp : ∀ q ∈ (s.stores j).shape.held, p ≠ some q) :
    s.Untouched (if c then s.modifyPic p f else s) j := by
  split
  · exact modifyPic_untouched hp
  · exact .refl s j

/-- A write to the pictures of one store. -/
theorem modifyHeld_untouched (h : s.frames.Pooled d) (hj : j ∈ s.used) (hne : j ≠ i)
    (f : StorablePicture → StorablePicture) : s.Untouched (s.modifyHeld i f) j := by
  have hdisj {q : Nat} (hq : q ∈ (s.stores j).shape.held) := held_disjoint h hj hne hq
  have htop : ∀ q ∈ (s.stores j).shape.held, (s.stores i).topField ≠ some q :=
    fun q hq ht => hdisj hq (FrameStore.mem_held (Or.inr (Or.inl ht)))
  have hbottom : ∀ q ∈ (s.stores j).shape.held, (s.stores i).bottomField ≠ some q :=
    fun q hq hb => hdisj hq (FrameStore.mem_held (Or.inr (Or.inr hb)))
  have hframe : ∀ q ∈ (s.stores j).shape.held, (s.stores i).frame ≠ some q :=
    fun q hq hf => hdisj hq (FrameStore.mem_held (Or.inl hf))
  have h1 : s.Untouched (if (s.stores i).isUsed.top then s.modifyPic (s.stores i).topField f
      else s) j := modifyPic_if_untouched htop
  have h2 := h1.trans (modifyPic_if_untouched (c := (s.stores i).isUsed.bottom = true)
    (p := (s.stores i).bottomField) (f := f) (by rw [h1.store]; exact hbottom))
  apply h2.trans
  apply modifyPic_if_untouched
  rw [h2.store]
  exact hframe

theorem unmarkForReference_untouched (h : s.frames.Pooled d) (hj : j ∈ s.used) (hne : j ≠ i) :
    s.Untouched (s.unmarkForReference i) j :=
  (modifyHeld_untouched h hj hne _).trans ⟨if_neg hne, fun _ _ => rfl⟩

/-- Unmarking a store, and listing the short-term references anew. -/
theorem unmark_refreshed_untouched (h : s.frames.Pooled d) (hj : j ∈ s.used) (hne : j ≠ i) :
    s.Untouched (s.unmarkForReference i).updateRefList j :=
  (unmarkForReference_untouched h hj hne).trans ⟨rfl, fun _ _ => rfl⟩

/-- A picture the removed store does not hold. -/
theorem removeFrame_pic (hb : s.frames.Buffered) {pos q : Nat} (hpos : s.used[pos]? = some i)
    (hq : q ∉ (s.stores i).shape.held) : (s.removeFrameFromDpb pos).pics q = s.pics q := by
  have hused : (s.removeFrameFromDpb pos).frames.picUsed q = s.frames.picUsed q := by
    rw [frames_remove hb hpos]
    exact if_neg hq
  have hrest := removeFrame_pics s pos q (fun p => { p with isUsed := false }) fun _ => rfl
  calc (s.removeFrameFromDpb pos).pics q
      = { { (s.removeFrameFromDpb pos).pics q with isUsed := false } with
          isUsed := (s.removeFrameFromDpb pos).frames.picUsed q } := rfl
    _ = { { s.pics q with isUsed := false } with isUsed := s.frames.picUsed q } := by
      rw [hused]
      exact congrArg (fun p : StorablePicture => { p with isUsed := s.frames.picUsed q }) hrest
    _ = s.pics q := rfl

/-- A store taken out of the buffer. -/
theorem removeFrame_untouched (h : s.frames.Pooled d) {pos : Nat} (hpos : s.used[pos]? = some i)
    (hj : j ∈ s.used) (hne : j ≠ i) : s.Untouched (s.removeFrameFromDpb pos) j :=
  ⟨removeFrame_stores s hpos hne,
    fun _ hq => removeFrame_pic h.buffered hpos (held_disjoint h hj hne hq)⟩

end MediaModules.H264Dpb.Dpb
