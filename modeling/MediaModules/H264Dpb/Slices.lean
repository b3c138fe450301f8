import MediaModules.H264Dpb.Pool

/-!
# What a slice leaves alone

The first slice of a picture takes a picture from the pool and numbers the references. It changes
no frame store otherwise, no list, and no picture that is in use.
-/
namespace MediaModules.H264Dpb.Dpb

open MediaModules.H264Dpb

/-- The state without its pictures and without what a slice sets. -/
def bare (s : Dpb) : Dpb :=
  { s with
    pics := fun _ => {}
    stores := fun i => (s.stores i).unnumbered
    numRefFrames := 0
    longTermReferenceFlag := false
    mSlice := {}
    mVideo := {}
    mSPS := {}
    trace := s.trace.filter Event.happens }

variable {s t : Dpb}

theorem bare_of_unnumbered (h : t.unnumbered = s.unnumbered) : t.bare = s.bare :=
  show t.unnumbered.bare = s.unnumbered.bare by rw [h]

theorem bare_modifyPic (s : Dpb) (p : Option Nat) (f : StorablePicture → StorablePicture) :
    (s.modifyPic p f).bare = s.bare := by
  cases p <;> rfl

theorem bare_checkFrameStoreSamePicNum (s : Dpb) (p : Nat) :
    (s.checkFrameStoreSamePicNum p).bare = s.bare := by
  unfold checkFrameStoreSamePicNum
  split
  · rfl
  · exact bare_modifyPic s (some p) _

theorem bare_takePicture (s : Dpb) : s.takePicture.bare = s.bare := by
  unfold takePicture getNewPic
  split <;> rfl

theorem bare_startPicture (s : Dpb) : s.startPicture.bare = s.bare := by
  have htake : s.decodeSlicePoc.takePicture.bare = s.bare := bare_takePicture s.decodeSlicePoc
  unfold startPicture
  dsimp only
  rw [← htake]
  split
  · rfl
  · next p _ =>
    have hnumber : (s.decodeSlicePoc.takePicture.initPicture p).updatePicNum.bare =
        s.decodeSlicePoc.takePicture.bare :=
      (bare_of_unnumbered (unnumbered_updatePicNum _)).trans (bare_modifyPic _ (some p) _)
    split
    · exact hnumber
    · exact (bare_checkFrameStoreSamePicNum _ p).trans hnumber

/-- A slice leaves the buffer alone. -/
theorem bare_slice (s : Dpb) (h : SliceParam) (bufs : Bool) :
    (s.h264SliceHeaderProcess h bufs).2.bare = s.bare := by
  have hbegin : (s.beginSlice h).bare = s.bare := by
    unfold beginSlice
    dsimp only
    split
    · exact bare_startPicture _
    · rfl
  rw [← hbegin]
  unfold h264SliceHeaderProcess
  dsimp only
  split <;> rfl

end MediaModules.H264Dpb.Dpb
