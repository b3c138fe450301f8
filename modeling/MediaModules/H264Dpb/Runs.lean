import MediaModules.H264Dpb.SliceHeader
import MediaModules.Lib.Run

/-!
# Runs of the decoder

The calls that reach the buffer, from `init_dpb` on, in any order: slices, the end of a picture,
flushing, clearing out, output, the display's returns and changes of the settings.
-/
namespace MediaModules.H264Dpb

/-- A call. Those that may reach `prepare_display_buf` bring its answers. -/
inductive Op
  | slice (h : SliceParam) (bufs : Bool)
  | store (dataFlag : UInt8) (answers : List Display)
  | release
  | flush (answers : List Display)
  | removeUnused
  | bufmgrRemoveUnused (forceFlag : Nat)
  | output (flushFlag : Bool) (answers : List Display)
  | setFrameOutputFlag (index : Nat)
  | configure (c : Config) (frameMbsOnlyFlag : Bool)

namespace Dpb

/-- The buffer after `dpb_init_global` and `init_dpb`. -/
def initial (size : Nat) (sps : SPSParameters) (c : Config) (first : FirstInsertFrm) : Dpb :=
  initDpb { mSPS := sps, config := c, firstInsertFrame := first } size

/-- The current picture is done with. -/
def dropCurrent (s : Dpb) : Dpb := { s with mVideo := { s.mVideo with decPicture := none } }

/-- `release_cur_decoding_buf`. -/
def releaseCurrent (s : Dpb) : Dpb :=
  match s.mVideo.decPicture with
  | none => s
  | some p => (s.releasePicture p).dropCurrent

/-- The end of a picture: store it, or release it when that fails. -/
def storeCurrent (s : Dpb) (dataFlag : UInt8) : Option Dpb :=
  match s.mVideo.decPicture with
  | none => none
  | some p =>
    let r := s.storePictureInDpb p dataFlag
    if r.1 < 0 then some r.2.releaseCurrent else some r.2.bufmgrPost.dropCurrent

end Dpb

/-- One call. To store a picture without one is undefined. -/
def step (s : Dpb) : Op → Option Dpb
  | .slice h bufs => some (s.h264SliceHeaderProcess h bufs).2
  | .store dataFlag answers => { s with answers := answers }.storeCurrent dataFlag
  | .release => some s.releaseCurrent
  | .flush answers => some { s with answers := answers }.flushDpb
  | .removeUnused => some s.removeUnusedFrameFromDpb.2
  | .bufmgrRemoveUnused forceFlag => some (s.bufmgrH264RemoveUnusedFrame forceFlag)
  | .output flushFlag answers => some ({ s with answers := answers }.outputFrames flushFlag).2
  | .setFrameOutputFlag index => some (s.setFrameOutputFlag index)
  | .configure c frameMbsOnlyFlag =>
    some { s with config := c, mSPS := { s.mSPS with frameMbsOnlyFlag := frameMbsOnlyFlag } }

/-- A state some run reaches from `init_dpb`. -/
def Reachable (s : Dpb) : Prop :=
  ∃ size sps c first, size ≤ DPB_SIZE_MAX ∧
    MediaModules.Lib.Run.Reaches step (Dpb.initial size sps c first) s

end MediaModules.H264Dpb
