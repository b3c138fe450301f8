import Mathlib.Algebra.Order.Ring.Nat
import MediaModules.Lib.Run
import Mathlib.Data.List.FinRange
import Mathlib.Data.List.Perm.Basic
import Mathlib.Data.List.Nodup

/-!
# HEVC pictures on their way to the display

A picture is shown by one, two or three frames of the pool, and two field pictures can share one.
`vf_ref` counts the frames of a picture; field frames wait in `pending_q` for their other half.
-/
namespace MediaModules.Hevc.Display

open MediaModules.Lib.Run

def MAX_REF_PIC_NUM : Nat := 24

def VF_POOL_SIZE : Nat := 32

instance : NeZero MAX_REF_PIC_NUM := ⟨Nat.succ_ne_zero 23⟩

instance : NeZero VF_POOL_SIZE := ⟨Nat.succ_ne_zero 31⟩

/-- A picture, by its index in `m_PIC`. -/
abbrev Pic := Fin MAX_REF_PIC_NUM

/-- A frame, by its index in `vfpool`. -/
abbrev Vframe := Fin VF_POOL_SIZE

/-- The display data of `struct hevc_state_s`. `top` and `bot` are the low and the high byte of
`vf->index`, where 0xff is `none`. The frames the receiver has are `held`. -/
structure State where
  newframeQ : List Vframe := List.finRange VF_POOL_SIZE
  pendingQ : List Vframe := []
  displayQ : List Vframe := []
  held : List Vframe := []
  top : Vframe → Option Pic := fun _ => none
  bot : Vframe → Option Pic := fun _ => none
  vfRef : Pic → Nat := fun _ => 0
  outputReady : Pic → Bool := fun _ => false
  preTopPic : Option Pic := none
  preBotPic : Option Pic := none

section Functions
variable (s : State)

/-- Set `vf->index`. -/
def State.setIndex (v : Vframe) (top bot : Option Pic) : State :=
  { s with
    top := fun u => if u = v then top else s.top u
    bot := fun u => if u = v then bot else s.bot u }

def State.setRef (p : Pic) (n : Nat) : State :=
  { s with vfRef := fun q => if q = p then n else s.vfRef q }

/-- What `vh265_vf_put` does for one byte of the index. -/
def dropRef : Option Pic → State
  | none => s
  | some p =>
    if 0 < s.vfRef p then
      { s.setRef p (s.vfRef p - 1) with
        outputReady := fun q => if q = p ∧ s.vfRef p = 1 then false else s.outputReady q }
    else s

/-- `vh265_vf_put` -/
def vh265VfPut (v : Vframe) : State :=
  let s := { s with newframeQ := s.newframeQ ++ [v] }
  dropRef (dropRef s (s.top v)) (s.bot v)

/-- What `recycle_pending_vframe` does for one byte of the index. -/
def clearRef : Option Pic → State
  | none => s
  | some p => { s.setRef p 0 with outputReady := fun q => if q = p then false else s.outputReady q }

/-- `recycle_pending_vframe`: whether it succeeds, and the state it leaves. -/
def recyclePendingVframe (v : Vframe) : Bool × State :=
  let s := { s with newframeQ := s.newframeQ ++ [v] }
  if s.top v = none ∧ s.bot v = none then (false, s)
  else (true, clearRef (clearRef s (s.top v)) (s.bot v))

/-- The frame has the field that is asked for still open. -/
def State.Open (v : Vframe) (topFlag : Bool) : Prop :=
  if topFlag then s.top v = none else s.bot v = none

instance (v : Vframe) (topFlag : Bool) : Decidable (s.Open v topFlag) :=
  inferInstanceAs (Decidable (if topFlag = true then s.top v = none else s.bot v = none))

/-- The picture is the other half of a pending frame, which can be shown now. -/
def pairVframe (v : Vframe) (p : Pic) (topFlag : Bool) : State :=
  let s := s.setRef p (s.vfRef p + 1)
  if topFlag then
    { s.setIndex v (some p) (s.bot v) with preTopPic := none, displayQ := s.displayQ ++ [v] }
  else
    { s.setIndex v (s.top v) (some p) with preBotPic := none, displayQ := s.displayQ ++ [v] }

/-- What `process_pending_vframe` does with the frame at the head of the queue. -/
def pairPending (pairPic : Option Pic) (topFlag : Bool) : State :=
  match s.pendingQ with
  | [] => s
  | v :: rest =>
    let s := { s with pendingQ := rest }
    match pairPic with
    | none => (recyclePendingVframe s v).2
    | some p =>
      if 0 < s.vfRef p ∧ s.Open v topFlag then pairVframe s v p topFlag
      else (recyclePendingVframe s v).2

/-- `process_pending_vframe`: no more than one frame stays pending. -/
def processPendingVframe (pairPic : Option Pic) (topFlag : Bool) : State :=
  match s.pendingQ with
  | v :: u :: rest =>
    let r := recyclePendingVframe { s with pendingQ := u :: rest } v
    if r.1 then pairPending r.2 pairPic topFlag else r.2
  | _ => pairPending s pairPic topFlag

/-- Frames that show one picture, one after the other: to the display, or straight back. -/
def showFrames (vs : List Vframe) (showFrame : Bool) : State :=
  if showFrame then { s with displayQ := s.displayQ ++ vs } else vs.foldl vh265VfPut s

/-- `post_video_frame` for a picture that is repeated: its further frames are copies of the first. -/
def postRepeated (p : Pic) (vf : Vframe) (more : Nat) (showFrame : Bool) : State :=
  let taken := s.newframeQ.take more
  let s := { s with newframeQ := s.newframeQ.drop more }
  if taken.length < more then s
  else
    let s := taken.foldl (fun s v => s.setIndex v (s.top vf) (s.bot vf)) s
    showFrames (s.setRef p (more + 1)) (vf :: taken) showFrame

/-- `post_video_frame` for a field that is paired with the previous and the next one (9 and 10). -/
def postMiddleField (p : Pic) (vf : Vframe) (topField showFrame : Bool) : State :=
  let s := processPendingVframe (s.setRef p 1) (some p) topField
  if showFrame then
    let s := { s with pendingQ := s.pendingQ ++ [vf] }
    if topField then processPendingVframe s s.preBotPic false
    else
      let s := s.setIndex vf none (some p)
      processPendingVframe s s.preTopPic true
  else vh265VfPut s vf

/-- `post_video_frame` for a field that waits for its other half (11 and 12). -/
def postFirstField (p : Pic) (vf : Vframe) (topField showFrame : Bool) : State :=
  let s := processPendingVframe (s.setRef p 1) (some p) topField
  let s := if topField then s else s.setIndex vf none (some p)
  if showFrame then
    let s := { s with pendingQ := s.pendingQ ++ [vf] }
    if topField then { s with preTopPic := some p } else { s with preBotPic := some p }
  else vh265VfPut s vf

/-- `post_video_frame` for all other pictures; the fields 1 and 2 look for a pending frame too. -/
def postSingle (p : Pic) (vf : Vframe) (picStruct : Nat) (showFrame : Bool) : State :=
  let s := s.setRef p 1
  let s :=
    if picStruct = 1 then { processPendingVframe s (some p) true with preTopPic := some p }
    else if picStruct = 2 then { processPendingVframe s (some p) false with preBotPic := some p }
    else s
  showFrames s [vf] showFrame

/-- `post_video_frame` -/
def postVideoFrame (p : Pic) (picStruct : Nat) (showFrame : Bool) : State :=
  match s.newframeQ with
  | [] => s
  | vf :: rest =>
    let s := { s with newframeQ := rest }.setIndex vf (some p) none
    if picStruct = 3 ∨ picStruct = 4 then postRepeated s p vf 1 showFrame
    else if picStruct = 5 ∨ picStruct = 6 then postRepeated s p vf 2 showFrame
    else if picStruct = 9 ∨ picStruct = 10 then
      postMiddleField s p vf (decide (picStruct = 9)) showFrame
    else if picStruct = 11 ∨ picStruct = 12 then
      postFirstField s p vf (decide (picStruct = 11)) showFrame
    else postSingle s p vf picStruct showFrame

/-- Output a picture: `output_pic` marks it, `post_prepare_process` takes the mark back when it is
not to be shown. -/
def outputPicture (p : Pic) (picStruct : Nat) (showFrame : Bool) : State :=
  postVideoFrame { s with outputReady := fun q => if q = p then showFrame else s.outputReady q }
    p picStruct showFrame

/-- `interlace_clear_no_pair_pic` -/
def interlaceClearNoPairPic (interlaceFlag : Bool) : State :=
  if interlaceFlag then
    { s with
      vfRef := fun p => if s.vfRef p = 1 then 0 else s.vfRef p
      outputReady := fun p => if s.vfRef p = 1 then false else s.outputReady p }
  else s

/-- `vh265_vf_get` -/
def vh265VfGet : State :=
  match s.displayQ with
  | [] => s
  | v :: rest => { s with displayQ := rest, held := v :: s.held }

end Functions

inductive Event
  | output (p : Pic) (picStruct : Nat) (showFrame : Bool)
  | get
  | put (v : Vframe)
  | flush (interlaceFlag : Bool)

def step (s : State) : Event → Option State
  | .output p picStruct showFrame => some (outputPicture s p picStruct showFrame)
  | .get => some (vh265VfGet s)
  | .put v => some (vh265VfPut { s with held := s.held.erase v } v)
  | .flush interlaceFlag => some (interlaceClearNoPairPic s interlaceFlag)

/-- A picture that is output was taken by `get_new_pic`, so it has no frames, and the receiver only
gives back what it has. -/
def InOrder (s : State) : Event → Prop
  | .output p picStruct _ => picStruct ≤ 12 ∧ s.vfRef p = 0 ∧ s.outputReady p = false
  | .put v => v ∈ s.held
  | _ => True

instance (s : State) : (event : Event) → Decidable (InOrder s event)
  | .output _ _ _ => inferInstanceAs (Decidable (_ ∧ _ ∧ _))
  | .put _ => inferInstanceAs (Decidable (_ ∈ _))
  | .get => .isTrue trivial
  | .flush _ => .isTrue trivial

/-- The frame names the picture in one of its bytes. -/
def State.Names (s : State) (p : Pic) (v : Vframe) : Prop := s.top v = some p ∨ s.bot v = some p

instance (s : State) (p : Pic) : DecidablePred (s.Names p) := fun _ =>
  inferInstanceAs (Decidable (_ ∨ _))

/-- Every frame is in one place, every count is the number of frames that name the picture, and the
mark says whether there are any. -/
structure Balanced (s : State) : Prop where
  places : (s.newframeQ ++ s.pendingQ ++ s.displayQ ++ s.held).Perm (List.finRange VF_POOL_SIZE)
  counts : ∀ p, s.vfRef p = (s.pendingQ ++ s.displayQ ++ s.held).countP (s.Names p)
  ready : ∀ p, s.outputReady p = true ↔ 0 < s.vfRef p

end MediaModules.Hevc.Display
