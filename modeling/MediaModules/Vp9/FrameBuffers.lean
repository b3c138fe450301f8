import MediaModules.Lib.RefCount
import MediaModules.Lib.Run

/-!
# VP9 frame buffers

A frame header takes a free buffer, decides which reference slots will name it and holds the buffers
the slots name now. When the picture is done, the second half drops the holds, exchanges the slots
and lets go of the buffer. A header that fails is followed by the second half all the same.
-/
namespace MediaModules.Vp9

open MediaModules.Lib.RefCount

def REF_FRAMES : Nat := 8

def MAX_PROFILES : Nat := 4

/-- What does not change: the number of buffers in use, and which of them have memory
(`buf.index != -1`). -/
structure Pool where
  usedBufNum : Nat
  hasIndex : Nat → Bool

/-- The buffer management data of `struct VP9Decoder_s`. No buffer (-1, `NULL`) is `none`. -/
structure Decoder where
  refCount : Nat → Int := fun _ => 0
  vfRef : Nat → Nat := fun _ => 0
  refFrameMap : Fin REF_FRAMES → Option Nat := fun _ => none
  nextRefFrameMap : Fin REF_FRAMES → Option Nat := fun _ => none
  newFbIdx : Option Nat := none
  curFrame : Option Nat := none
  refreshFrameFlags : Nat := 0
  showExistingFrame : Bool := false
  needResync : Bool := true
  hasKeyframe : Bool := false
  postprocDone : Bool := false

/-- The words of a frame header that are used here. -/
structure Header where
  keyFrame : Bool
  intraOnly : Bool
  profile : Nat
  showExistingFrame : Bool
  frameToShowIdx : Nat
  showFrame : Bool
  refreshFrameFlags : Nat

/-- The results of `get_mv_buf`, and of `setup_frame_size` with its page allocations. -/
structure Outcome where
  mvBuf : Bool
  frameSize : Bool

section Functions
variable (pool : Pool) (s : Decoder)

/-- The buffer is free for `get_free_fb`. -/
def Decoder.IsFree (i : Nat) : Prop :=
  s.refCount i = 0 ∧ s.vfRef i = 0 ∧ pool.hasIndex i = true ∧ s.curFrame ≠ some i

instance (i : Nat) : Decidable (s.IsFree pool i) := inferInstanceAs (Decidable (_ ∧ _ ∧ _ ∧ _))

/-- The buffer `get_free_fb` takes. -/
def getFreeFb : Option Nat := (List.range pool.usedBufNum).find? fun i => decide (s.IsFree pool i)

/-- `ref_cnt_fb` on `new_fb_idx` -/
def refCntFb (newIdx : Nat) : Decoder :=
  let drop := match s.newFbIdx with
    | some i => if 0 < s.refCount i then bump s.refCount (some i) (-1) else s.refCount
    | none => s.refCount
  { s with newFbIdx := some newIdx, refCount := bump drop (some newIdx) 1 }

/-- `generate_next_ref_frames`: more than eight flags run over the end of the maps. -/
def generateNextRefFrames : Option Decoder :=
  if s.refreshFrameFlags < 256 then
    some { s with
      nextRefFrameMap := fun i : Fin REF_FRAMES =>
        if s.refreshFrameFlags.testBit i.val then s.newFbIdx else s.refFrameMap i
      refCount := (List.finRange REF_FRAMES).foldl (fun count i =>
        bump (if s.refreshFrameFlags.testBit i.val then bump count s.newFbIdx 1 else count)
          (s.refFrameMap i) 1) s.refCount }
  else none

/-- The slots `refresh_ref_frames` walks over: those up to the highest flag, and the others unless a
frame is shown again. -/
def Walked (flags : Nat) (showExisting : Bool) (i : Fin REF_FRAMES) : Prop :=
  flags >>> i.val ≠ 0 ∨ showExisting = false

instance (flags : Nat) (showExisting : Bool) (i : Fin REF_FRAMES) :
    Decidable (Walked flags showExisting i) := inferInstanceAs (Decidable (_ ∨ _))

/-- `refresh_ref_frames`: the hold on the buffer of a slot is dropped, and the slot's own reference
too when it is refreshed. -/
def refreshRefFrames : Option Decoder :=
  if s.refreshFrameFlags < 256 then
    some { s with
      refFrameMap := fun i =>
        if Walked s.refreshFrameFlags s.showExistingFrame i then s.nextRefFrameMap i
        else s.refFrameMap i
      refCount := (List.finRange REF_FRAMES).foldl (fun count i =>
        if Walked s.refreshFrameFlags s.showExistingFrame i then
          let held := bump count (s.refFrameMap i) (-1)
          if s.refreshFrameFlags.testBit i.val then bump held (s.refFrameMap i) (-1) else held
        else count) s.refCount }
  else none

/-- `swap_frame_buffers`: without a new buffer the count before the pool is lowered. -/
def swapFrameBuffers : Option Decoder :=
  (refreshRefFrames s).bind fun s =>
    s.newFbIdx.map fun new => { s with refCount := bump s.refCount (some new) (-1) }

/-- `vp9_bufmgr_postproc` -/
def vp9BufmgrPostproc : Option Decoder :=
  if s.postprocDone then some s else swapFrameBuffers { s with postprocDone := true }

/-- Where the checks of a header end: without a key frame the slots are not touched. -/
def finishHeader : Option (Int × Decoder) :=
  if s.needResync then some (-1, s)
  else (generateNextRefFrames s).map fun s => (0, s)

/-- A key frame or an intra-only frame ends the wait for one and empties the slots. -/
def resync : Decoder :=
  if s.needResync then { s with refFrameMap := fun _ => none, needResync := false } else s

/-- The rest of `vp9_bufmgr_process`, for a frame that is decoded. -/
def processFrame (p : Header) (e : Outcome) : Option (Int × Decoder) :=
  let sized := fun (flags : Nat) (next : Decoder → Decoder) =>
    let s := { s with refreshFrameFlags := flags }
    if e.frameSize then finishHeader (next s) else some (-1, s)
  if p.keyFrame then sized 255 resync
  else if !p.showFrame && p.intraOnly then sized p.refreshFrameFlags resync
  else if s.needResync then finishHeader s
  else sized p.refreshFrameFlags id

/-- The branch of `vp9_bufmgr_process` that shows a frame again. -/
def processShow (p : Header) : Int × Decoder :=
  match (if h : p.frameToShowIdx < REF_FRAMES then s.refFrameMap ⟨p.frameToShowIdx, h⟩
    else none) with
  | none => (-1, s)
  | some frameToShow =>
    if s.refCount frameToShow < 1 then (-1, s)
    else (1, { refCntFb s frameToShow with refreshFrameFlags := 0 })

/-- `vp9_bufmgr_process` -/
def vp9BufmgrProcess (p : Header) (e : Outcome) : Option (Int × Decoder) :=
  if s.hasKeyframe = false ∧ p.keyFrame = false ∧ p.intraOnly = false then some (-2, s)
  else
    match getFreeFb pool s with
    | none => some (-1, { s with hasKeyframe := true, newFbIdx := none })
    | some i =>
      let s := { s with
        hasKeyframe := true, newFbIdx := some i
        refCount := fun b => if b = i then 1 else s.refCount b }
      if !e.mvBuf then some (-1, s)
      else
        let s := { s with curFrame := some i }
        if MAX_PROFILES ≤ p.profile then some (-1, s)
        else
          let s := { s with showExistingFrame := p.showExistingFrame }
          if p.showExistingFrame then some (processShow s p) else processFrame s p e

/-- The display takes or gives back a frame. -/
inductive Display
  | take (b : Nat)
  | put (b : Nat)

def Decoder.display (d : Display) : Decoder :=
  match d with
  | .take b => { s with vfRef := fun i => if i = b then s.vfRef i + 1 else s.vfRef i }
  | .put b => { s with vfRef := fun i => if i = b then s.vfRef i - 1 else s.vfRef i }

/-- A header with what the display does before its second half, or the display alone. -/
inductive Event
  | header (p : Header) (e : Outcome) (during : List Display)
  | display (d : Display)

def step : Event → Option Decoder
  | .header p e during => (vp9BufmgrProcess pool s p e).bind fun r =>
      vp9BufmgrPostproc (during.foldl Decoder.display { r.2 with postprocDone := false })
  | .display d => some (s.display d)

end Functions

/-- The counts are those of the slots, so that no buffer a slot names is handed out, and the others
are available. -/
structure Balanced (pool : Pool) (s : Decoder) : Prop where
  counts : ∀ b, s.refCount b = names s.refFrameMap b
  handed : ∀ i, getFreeFb pool s = some i → ∀ k, s.refFrameMap k ≠ some i
  available : ∀ b, pool.hasIndex b = true → s.curFrame ≠ some b →
    (∀ k, s.refFrameMap k ≠ some b) → s.vfRef b = 0 → s.IsFree pool b

end MediaModules.Vp9
