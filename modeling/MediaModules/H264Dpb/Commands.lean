import MediaModules.H264Dpb.Marks
import MediaModules.H264Dpb.Pool

/-!
# What the marking commands keep

A command turns no picture into a short-term reference, moves none, and leaves the current picture
a reference.
-/
namespace MediaModules.H264Dpb

/-- The picture is a short-term reference. -/
def StorablePicture.isShort (q : StorablePicture) : Bool := q.usedForReference && !q.isLongTerm

/-- The picture is a long-term reference. -/
def StorablePicture.isLong (q : StorablePicture) : Bool := q.usedForReference && q.isLongTerm

namespace Dpb

open MediaModules.H264Dpb

variable {s t u : Dpb} {d : Option Nat}

/-- The current picture lies in no frame store. -/
theorem loose_current {p : Nat} (h : s.frames.Pooled (some p)) : s.Loose p := h.current_loose

/-! ## Short-term references wane -/

/-- No picture became a short-term reference, none was moved, and those outside the frame stores
are references as before. -/
structure Wanes (s t : Dpb) : Prop where
  shape : ∀ i, (t.stores i).shape = (s.stores i).shape
  short : ∀ q, (t.pics q).isShort = true → (s.pics q).isShort = true
  loose : ∀ q, s.Loose q → (t.pics q).usedForReference = (s.pics q).usedForReference

namespace Wanes

theorem refl (s : Dpb) : s.Wanes s := ⟨fun _ => rfl, fun _ => id, fun _ _ => rfl⟩

theorem trans (h : s.Wanes t) (h' : t.Wanes u) : s.Wanes u where
  shape i := (h'.shape i).trans (h.shape i)
  short q hq := h.short q (h'.short q hq)
  loose q hq := (h'.loose q fun i => h.shape i ▸ hq i).trans (h.loose q hq)

end Wanes

theorem Unmarks.wanes (h : s.Unmarks t) : s.Wanes t := by
  refine ⟨h.shape, fun q hq => ?_, fun q hq => by rw [h.loose q hq]⟩
  have hused : (t.pics q).usedForReference = true := (Bool.and_eq_true_iff.mp hq).1
  exact h.pics q hused ▸ hq

theorem MarksLong.wanes {i : Nat} {k : Int} (h : s.MarksLong t i k) : s.Wanes t := by
  refine ⟨h.shape, fun q hq => ?_, fun q _ => h.usedForReference q⟩
  obtain ⟨hused, hlong⟩ := Bool.and_eq_true_iff.mp hq
  refine Bool.and_eq_true_iff.mpr ⟨(h.usedForReference q).symm.trans hused, ?_⟩
  apply Bool.not_eq_true' _ ▸ Bool.eq_false_iff.mpr
  intro hl
  rw [h.isLongTerm q hl] at hlong
  exact absurd hlong (by decide)

theorem wanes_refresh (s : Dpb) : s.Wanes s.updateRefList ∧ s.Wanes s.updateLtrefList :=
  ⟨⟨fun _ => rfl, fun _ => id, fun _ _ => rfl⟩, ⟨fun _ => rfl, fun _ => id, fun _ _ => rfl⟩⟩

theorem wanes_mmUnmarkAllShort (s : Dpb) : s.Wanes s.mmUnmarkAllShortTermForReference :=
  (Unmarks.foldl unmarks_unmarkForReference s.fsRef s).wanes.trans (wanes_refresh _).1

/-- The unmarking that comes first with operation 3. -/
theorem unmarks_beforeAssign (s : Dpb) (p : Nat) (k picNumX : Int) :
    s.Unmarks (if (s.pics p).picStructure = .frame then
        s.unmarkLongTermFrameForReferenceByFrameIdx k
      else s.unmarkLongTermFieldForReferenceByFrameIdx (s.findFieldStructure picNumX s.fsRef) k
        false picNumX) :=
  .ite (unmarks_unmarkLongFrameByIdx s k) (unmarks_unmarkLongFieldByIdx s _ k _ _)

theorem wanes_mmAssign (s : Dpb) (p : Nat) (diff k : Int) :
    s.Wanes (s.mmAssignLongTermFrameIdx p diff k) := by
  have hmark (t : Dpb) (x : Int) : t.Wanes (t.markPicLongTerm p k x) := by
    rcases markPicLongTerm_cases t p k x with h | ⟨i, -, -, h⟩
    · rw [h]
      exact .refl t
    · exact h.wanes
  exact (unmarks_beforeAssign s p k _).wanes.trans (hmark _ _)

theorem unmarks_beforeMark (s : Dpb) (p : Nat) (k : Int) :
    s.Unmarks (if (s.pics p).picStructure = .frame then
        s.unmarkLongTermFrameForReferenceByFrameIdx k
      else s.unmarkLongTermFieldForReferenceByFrameIdx (s.pics p).picStructure k true 0) :=
  .ite (unmarks_unmarkLongFrameByIdx s k) (unmarks_unmarkLongFieldByIdx s _ k _ _)

theorem wanes_mmMarkCurrent (s : Dpb) (p : Nat) (k : Int) :
    s.Wanes (s.mmMarkCurrentPictureLongTerm p k) := by
  have hmark (t : Dpb) : t.Wanes (t.modifyPic (some p) fun q =>
      { q with isLongTerm := true, longTermFrameIdx := k }) := by
    refine ⟨fun _ => rfl, fun q hq => ?_, fun q _ => ?_⟩
    · rw [modifyPic_pics] at hq
      split at hq
      · exact absurd (Bool.and_eq_true_iff.mp hq).2 (show false = true → False by decide)
      · exact hq
    · apply modifyPic_read t StorablePicture.usedForReference
      exact fun _ => rfl
  exact (unmarks_beforeMark s p k).wanes.trans (hmark _)

/-- Under the commands of a picture short-term references wane. -/
theorem wanes_command (s : Dpb) (p : Nat) (m : DecRefPicMarking) :
    s.Wanes (s.memoryManagementControl p m) := by
  unfold memoryManagementControl
  split
  · exact (unmarks_mmUnmarkShort s _ _).wanes.trans (wanes_refresh _).1
  · exact (unmarks_mmUnmarkLong s _ _).wanes.trans (wanes_refresh _).2
  · exact ((wanes_mmAssign s _ _ _).trans (wanes_refresh _).1).trans (wanes_refresh _).2
  · exact (unmarks_mmUpdateMax s _).wanes.trans (wanes_refresh _).2
  · have hall := (wanes_mmUnmarkAllShort s).trans (unmarks_mmUpdateMax _ 0).wanes
    exact ⟨hall.shape, hall.short, hall.loose⟩
  · exact wanes_mmMarkCurrent s p _
  · exact .refl s

theorem wanes_adaptiveLoop (s : Dpb) (p : Nat) (ms : List DecRefPicMarking) :
    s.Wanes (ms.foldl (fun s m => s.memoryManagementControl p m) s) := by
  induction ms generalizing s with
  | nil => exact .refl s
  | cons m ms ih => exact (wanes_command s p m).trans (ih _)

end Dpb

end MediaModules.H264Dpb
