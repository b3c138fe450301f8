import MediaModules.Lib.RefCount
import MediaModules.Lib.Run

/-!
# AV1 frame buffers

A buffer is referenced by the slots, by the slots of the next map, by the frame being decoded and by
the frame to output. Errors in a header are recorded and nothing more: the header goes on.
-/
namespace MediaModules.Av1

open MediaModules.Lib.RefCount

def REF_FRAMES : Nat := 8

/-- `REF_FRAMES + 1 + INTER_REFS_PER_FRAME` -/
def FRAME_BUFFERS : Nat := 16

inductive FrameType
  | key
  | inter
  | intraOnly
  | sFrame
deriving DecidableEq

inductive ObuType
  | frameHeader
  | redundantFrameHeader
  | frame
deriving DecidableEq

/-- The words of `SequenceHeader` used here; the comparison of two headers takes in the rest. -/
structure SequenceHeader where
  reducedStillPictureHdr : Bool := false
  enableOrderHint : Bool := false
  rest : List Nat := []
deriving DecidableEq

/-- The words of a frame header that are used here. -/
structure Params where
  showExistingFrame : Bool
  existingFrameIdx : Fin REF_FRAMES
  frameType : FrameType
  showFrame : Bool
  errorResilientMode : Bool
  refreshFrameFlags : Nat
  orderHint : Nat
  refOrderHint : Fin REF_FRAMES → Nat

/-- The buffer management data of `AV1Decoder` and `AV1_COMMON`, and of each `RefCntBuffer`. A null
pointer is `none`. -/
structure Decoder where
  refCount : Nat → Int := fun _ => 0
  vfRef : Nat → Nat := fun _ => 0
  orderHint : Nat → Nat := fun _ => 0
  frameType : Nat → FrameType := fun _ => .key
  refFrameMap : Fin REF_FRAMES → Option Nat := fun _ => none
  nextRefFrameMap : Fin REF_FRAMES → Option Nat := fun _ => none
  curFrame : Option Nat := none
  outputFrame : Option Nat := none
  curFrameType : FrameType := .key
  curOrderHint : Nat := 0
  refreshFrameFlags : Nat := 0
  showExistingFrame : Bool := false
  showFrame : Bool := false
  errorResilientMode : Bool := false
  resetDecoderState : Bool := false
  needResync : Bool := true
  sequenceHeaderReady : Bool := false
  sequenceHeaderChanged : Bool := false
  seqParams : SequenceHeader := {}

section Functions
variable (s : Decoder)

/-- The buffer is free for `get_free_fb`. -/
def Decoder.IsFree (i : Nat) : Prop := s.refCount i = 0 ∧ s.vfRef i = 0

instance (i : Nat) : Decidable (s.IsFree i) := inferInstanceAs (Decidable (_ ∧ _))

/-- The buffer `get_free_frame_buffer` takes. -/
def getFreeFb : Option Nat := (List.range FRAME_BUFFERS).find? fun i => decide (s.IsFree i)

/-- `decrease_ref_count` -/
def decreaseRefCount (buf : Option Nat) : Decoder :=
  { s with refCount := bump s.refCount buf (-1) }

/-- The count of a buffer that was taken. -/
def takeFb (i : Nat) : Decoder :=
  { s with refCount := fun b => if b = i then 1 else s.refCount b }

/-- `assign_cur_frame_new_fb`: without a free buffer there is no current frame. -/
def assignCurFrameNewFb : Decoder :=
  let s := { decreaseRefCount s s.curFrame with curFrame := none }
  match getFreeFb s with
  | none => s
  | some i => { takeFb s i with curFrame := some i }

/-- `assign_frame_buffer_p` on `cm->cur_frame` -/
def assignFrameBufferP (buf : Nat) : Decoder :=
  { s with
    refCount := bump (bump s.refCount s.curFrame (-1)) (some buf) 1
    curFrame := some buf }

/-- `reset_ref_frame_map` -/
def resetRefFrameMap : Decoder :=
  { s with
    refCount := (List.finRange REF_FRAMES).foldl (fun count k =>
      bump count (s.refFrameMap k) (-1)) s.refCount
    refFrameMap := fun _ => none }

/-- What `generate_next_ref_frame_map` puts into a slot. -/
def nextFrame (k : Fin REF_FRAMES) : Option Nat :=
  if s.refreshFrameFlags.testBit k.val then s.curFrame else s.refFrameMap k

/-- `generate_next_ref_frame_map`: more than eight flags run over the ends of the maps. -/
def generateNextRefFrameMap : Option Decoder :=
  if s.refreshFrameFlags < 256 then
    some { s with
      nextRefFrameMap := nextFrame s
      refCount := (List.finRange REF_FRAMES).foldl (fun count k =>
        bump count (nextFrame s k) 1) s.refCount }
  else none

/-- `reset_frame_buffers` -/
def resetFrameBuffers : Decoder :=
  let s := resetRefFrameMap { s with nextRefFrameMap := fun _ => none }
  { s with
    orderHint := fun b => if 0 < s.refCount b ∧ s.curFrame ≠ some b then s.orderHint b else 0 }

/-- A key frame or an intra-only frame ends the wait for one and empties the slots. -/
def resync : Decoder :=
  if s.needResync then { resetRefFrameMap s with needResync := false } else s

/-- The part of a header that shows a frame again. -/
def showExisting (p : Params) : Option Decoder :=
  match s.refFrameMap p.existingFrameIdx with
  | none => some s
  | some buf =>
    let s := { assignFrameBufferP s buf with
      resetDecoderState := decide (s.frameType buf = FrameType.key), showFrame := true }
    if s.resetDecoderState then
      generateNextRefFrameMap (resync { s with curFrameType := .key, refreshFrameFlags := 255 })
    else some { s with refreshFrameFlags := 0 }

/-- A key frame starts a new sequence when the sequence header has changed. -/
def startSequence : Decoder :=
  if s.sequenceHeaderChanged ∧ s.curFrameType = .key then
    resetFrameBuffers { s with sequenceHeaderChanged := false }
  else s

/-- The start of a header, up to `error_resilient_mode`. -/
def startFrame (p : Params) : Decoder :=
  if s.seqParams.reducedStillPictureHdr then
    { startSequence { s with
        showExistingFrame := false, showFrame := true, curFrameType := .key } with
      errorResilientMode := true }
  else
    { startSequence { s with curFrameType := p.frameType } with
      showFrame := p.showFrame
      errorResilientMode :=
        p.frameType == .sFrame || (p.frameType == .key && p.showFrame) || p.errorResilientMode
      curOrderHint := p.orderHint }

/-- The refresh flags, and the end of the wait for a key frame. -/
def readRefreshFlags (p : Params) : Decoder :=
  match s.curFrameType with
  | .key => resync { s with refreshFrameFlags := if s.showFrame then 255 else p.refreshFrameFlags }
  | .intraOnly => resync { s with refreshFrameFlags := p.refreshFrameFlags }
  | .inter => if s.needResync then s else { s with refreshFrameFlags := p.refreshFrameFlags }
  | .sFrame => if s.needResync then s else { s with refreshFrameFlags := 255 }

/-- The slot has no buffer with the order hint that the header gives. -/
def Decoder.Missing (p : Params) (k : Fin REF_FRAMES) : Prop :=
  ∀ buf, s.refFrameMap k = some buf → s.orderHint buf ≠ p.refOrderHint k

instance (p : Params) (k : Fin REF_FRAMES) : Decidable (s.Missing p k) :=
  match h : s.refFrameMap k with
  | none => .isTrue fun buf hb => by rw [h] at hb; cases hb
  | some buf =>
    if hb : s.orderHint buf = p.refOrderHint k then .isFalse fun hm => hm buf h hb
    else .isTrue fun buf' hb' => by
      rw [h] at hb'
      exact Option.some.inj hb' ▸ hb

/-- A missing slot gets a new buffer. Without a free one it goes on naming the old buffer, which has
lost a reference. -/
def createSlot (p : Params) (k : Fin REF_FRAMES) : Decoder :=
  if s.Missing p k then
    let s := decreaseRefCount s (s.refFrameMap k)
    match getFreeFb s with
    | none => s
    | some i => { takeFb s i with
        refFrameMap := fun j => if j = k then some i else s.refFrameMap j
        orderHint := fun b => if b = i then p.refOrderHint k else s.orderHint b }
  else s

/-- The header gives the order hints of all slots. -/
def Decoder.ReadsHints : Prop :=
  ¬ ((s.curFrameType = .key ∨ s.curFrameType = .intraOnly) ∧ s.refreshFrameFlags = 255) ∧
    s.errorResilientMode = true ∧ s.seqParams.enableOrderHint = true

instance : Decidable s.ReadsHints := inferInstanceAs (Decidable (_ ∧ _ ∧ _))

def createSlots (p : Params) : Decoder :=
  if s.ReadsHints then (List.finRange REF_FRAMES).foldl (fun s k => createSlot s p k) s else s

/-- The end of a header: the current frame gets its order hint and type. -/
def setupFrame : Option Decoder :=
  generateNextRefFrameMap { s with
    orderHint := fun b => if s.curFrame = some b then s.curOrderHint else s.orderHint b
    frameType := fun b => if s.curFrame = some b then s.curFrameType else s.frameType b }

/-- `av1_decode_frame_headers_and_setup` -/
def av1DecodeFrameHeadersAndSetup (p : Params) : Option Decoder :=
  if s.seqParams.reducedStillPictureHdr = false ∧ p.showExistingFrame = true then
    showExisting { s with showExistingFrame := true, resetDecoderState := false } p
  else
    let s := if s.seqParams.reducedStillPictureHdr then s
      else { s with showExistingFrame := false, resetDecoderState := false }
    setupFrame (createSlots (readRefreshFlags (startFrame s p) p) p)

/-- The frames to output are released at the start of every call. -/
def releaseOutput : Decoder := { decreaseRefCount s s.outputFrame with outputFrame := none }

/-- `av1_bufmgr_process` for a frame header with new data. -/
def av1BufmgrProcess (p : Params) (obu : ObuType) : Option (Int × Decoder) :=
  let s := assignCurFrameNewFb (releaseOutput s)
  if s.curFrame = none then some (-1, s)
  else if obu = .redundantFrameHeader then some (-1, s)
  else (av1DecodeFrameHeadersAndSetup s p).map fun s =>
    if s.showExistingFrame then (if obu = .frame then -1 else 1, s) else (0, s)

/-- `av1_bufmgr_process` for a sequence header; `none` is one that is rejected. -/
def readSequenceHeader (h : Option SequenceHeader) : Decoder :=
  let s := releaseOutput s
  match h with
  | none => s
  | some h => { s with
      sequenceHeaderChanged :=
        s.sequenceHeaderChanged || (s.sequenceHeaderReady && decide (s.seqParams ≠ h))
      seqParams := h, sequenceHeaderReady := true }

/-- The slots `swap_frame_buffers` exchanges. -/
def Decoder.Walked (k : Fin REF_FRAMES) : Prop :=
  s.refreshFrameFlags >>> k.val ≠ 0 ∨ s.showExistingFrame = false ∨ s.resetDecoderState = true

instance (k : Fin REF_FRAMES) : Decidable (s.Walked k) := inferInstanceAs (Decidable (_ ∨ _ ∨ _))

/-- The exchange of the maps. -/
def swapMaps : Option Decoder :=
  if s.refreshFrameFlags < 256 then
    some { s with
      refCount := (List.finRange REF_FRAMES).foldl (fun count k =>
        bump count (if s.Walked k then s.refFrameMap k else none) (-1)) s.refCount
      refFrameMap := fun k => if s.Walked k then s.nextRefFrameMap k else s.refFrameMap k
      nextRefFrameMap := fun k => if s.Walked k then none else s.nextRefFrameMap k }
  else none

/-- A frame that is shown replaces the one to output; `output_all_layers` is never set. -/
def outputCurFrame : Decoder :=
  if s.showExistingFrame ∨ s.showFrame then
    let s := decreaseRefCount s s.outputFrame
    if s.curFrame = none then s else { s with outputFrame := s.curFrame }
  else decreaseRefCount s s.curFrame

/-- `swap_frame_buffers` -/
def swapFrameBuffers (frameDecoded : Bool) : Option Decoder :=
  if frameDecoded then
    (swapMaps s).map fun s => { outputCurFrame s with curFrame := none }
  else some { decreaseRefCount s s.curFrame with curFrame := none }

/-- The display takes or gives back a frame. -/
inductive Display
  | take (b : Nat)
  | put (b : Nat)

def Decoder.display (d : Display) : Decoder :=
  match d with
  | .take b => { s with vfRef := fun i => if i = b then s.vfRef i + 1 else s.vfRef i }
  | .put b => { s with vfRef := fun i => if i = b then s.vfRef i - 1 else s.vfRef i }

end Functions

/-- The decoder, and whether `av1_bufmgr_postproc` is due. -/
structure System where
  decoder : Decoder := {}
  due : Bool := false

inductive Event
  | sequenceHeader (h : Option SequenceHeader)
  | process (p : Params) (obu : ObuType)
  | postproc (frameDecoded : Bool)
  | display (d : Display)

def step (s : System) : Event → Option System
  | .sequenceHeader h => some { s with decoder := readSequenceHeader s.decoder h }
  | .process p obu => (av1BufmgrProcess s.decoder p obu).map fun r =>
      { decoder := r.2, due := decide (r.1 ≠ -1) }
  | .postproc frameDecoded => (swapFrameBuffers s.decoder frameDecoded).map fun d =>
      { decoder := d, due := false }
  | .display d => some { s with decoder := s.decoder.display d }

/-- After a header that did not return -1 its `av1_bufmgr_postproc` comes before anything else. -/
def InOrder (s : System) : Event → Prop
  | .sequenceHeader _ => s.due = false
  | .process _ _ => s.due = false
  | .postproc _ => s.due = true
  | .display _ => True

instance (s : System) : (event : Event) → Decidable (InOrder s event)
  | .sequenceHeader _ => inferInstanceAs (Decidable (_ = _))
  | .process _ _ => inferInstanceAs (Decidable (_ = _))
  | .postproc _ => inferInstanceAs (Decidable (_ = _))
  | .display _ => .isTrue trivial

/-- The count of a buffer is the number of its references, and no buffer that a slot names is handed
out. -/
structure Balanced (s : Decoder) : Prop where
  counts : ∀ b, s.refCount b = names s.refFrameMap b + names s.nextRefFrameMap b +
    named s.curFrame b + named s.outputFrame b
  handed : ∀ i, getFreeFb s = some i → ∀ k, s.refFrameMap k ≠ some i
  available : ∀ b, b < FRAME_BUFFERS → (∀ k, s.refFrameMap k ≠ some b) →
    (∀ k, s.nextRefFrameMap k ≠ some b) → s.curFrame ≠ some b → s.outputFrame ≠ some b →
    s.vfRef b = 0 → s.IsFree b

end MediaModules.Av1
