import Mathlib.Tactic.Common

/-!
# The frame input of a decoder

`vdec_input.c`: frames are queued as chunks of larger blocks. A block structure is named by
the number `vdec_input_add_block` gives it; a block that was freed is in neither list. The
counters of allocated structures are integers, the counters of bytes have their C types.
-/
namespace MediaModules.FrameInput

/-- `VDEC_TYPE_*`. -/
inductive InputType
  | single
  | streamParser
  | frameBlock
  | frameCircular
  deriving DecidableEq, Repr

def vframeBlockSize : Int32 := 524288
def vframeBlockSize4k : Int32 := 2097152
def vframeBlockSizeMax : Int32 := 4194304
def vframeBlockMinLevel : Int32 := 2097152
def vframeBlockMaxLevel : Int32 := 8388608
def vframeBlockMaxTotalSize : UInt32 := 16777216
def maxFrameDurationS : Int32 := 2
def pageSize : UInt64 := 4096
/-- `L1_CACHE_BYTES`. -/
def minFramePaddingSize : UInt64 := 64
def hevcPaddingSize : UInt64 := 16384
def extraPaddingSize : UInt64 := 16384

/-- `PAGE_ALIGN` of a `size_t`. -/
def pageAlign64 (x : UInt64) : UInt64 := (x + 4095) / 4096 * 4096

/-- `ALIGN` of a 32-bit value to a power of two. -/
def align32 (x a : UInt32) : UInt32 := (x + (a - 1)) / a * a

/-- `struct vframe_block_list_s`. -/
structure VframeBlock where
  type : InputType
  size : UInt32
  wp : UInt32
  rp : UInt32
  dataSize : Int32
  chunkCount : Int
  isOutBuf : Bool
  handle : UInt32
  /-- a free callback is set -/
  free : Bool
  deriving DecidableEq, Repr

/-- `struct vframe_chunk_s`. -/
structure VframeChunk where
  sequence : Nat
  block : Nat
  offset : UInt32
  size : UInt32
  paddingSize : UInt32
  ptsValid : Bool
  pts64 : UInt64
  deriving DecidableEq, Repr

/-- `struct vdec_input_s`, with the port flags of its `vdec`. -/
structure VdecInput where
  type : InputType
  secure : Bool
  dmabuf : Bool
  blocks : Nat → VframeBlock
  vframeBlockList : List Nat
  vframeBlockFreeList : List Nat
  vframeChunkList : List VframeChunk
  wrBlock : Option Nat
  noMemErrCnt : Int32
  blockNums : Int
  blockIdSeq : Nat
  totalWrCount : UInt64
  totalRdCount : UInt64
  sequence : Nat
  size : UInt32
  defaultBlockSize : Int32
  dataSize : Int32
  lastInptsU64 : UInt64
  lastConsumedPtsU64 : UInt64
  lastInNoptsCnt : Int32
  lastConsumedNoPtsCnt : Int32
  lastDuration : Int32
  haveFrameNum : Int

/-- What a caller hands to `vdec_input_add_chunk`, with the pts set on the `vdec` before. -/
structure Frame where
  buf : UInt64
  count : UInt64
  handle : UInt32
  free : Bool
  ptsValid : Bool
  pts64 : UInt64
  deriving DecidableEq, Repr

/-- Which allocations succeed during a call. -/
structure Memory where
  block : Bool
  storage : Bool
  chunk : Bool
  deriving DecidableEq, Repr

inductive Errno
  | eagain
  | enomem
  | einval
  deriving DecidableEq, Repr

/-- A block before `kzalloc` returned it. -/
def noBlock : VframeBlock :=
  { type := .single, size := 0, wp := 0, rp := 0, dataSize := 0, chunkCount := 0,
    isOutBuf := false, handle := 0, free := false }

/-- `vdec_input_init` and `vdec_input_set_type`. -/
def vdecInputInit (type : InputType) (secure dmabuf : Bool) : VdecInput :=
  { type := type, secure := secure, dmabuf := dmabuf, blocks := fun _ => noBlock,
    vframeBlockList := [], vframeBlockFreeList := [], vframeChunkList := [], wrBlock := none,
    noMemErrCnt := 0, blockNums := 0, blockIdSeq := 0, totalWrCount := 0, totalRdCount := 0,
    sequence := 0, size := 0,
    defaultBlockSize := if type = .frameCircular then vframeBlockSizeMax else vframeBlockSize,
    dataSize := 0, lastInptsU64 := 0, lastConsumedPtsU64 := 0, lastInNoptsCnt := 0,
    lastConsumedNoPtsCnt := 0, lastDuration := 0, haveFrameNum := 0 }

namespace VdecInput

/-- The blocks in either list. -/
def linked (s : VdecInput) : List Nat := s.vframeBlockList ++ s.vframeBlockFreeList

def setBlock (s : VdecInput) (b : Nat) (f : VframeBlock → VframeBlock) : VdecInput :=
  { s with blocks := fun i => if i = b then f (s.blocks i) else s.blocks i }

/-- `list_move_tail` to `vframe_block_free_list`. -/
def moveToFree (s : VdecInput) (b : Nat) : VdecInput :=
  { s with
    vframeBlockList := s.vframeBlockList.erase b
    vframeBlockFreeList := s.vframeBlockFreeList.erase b ++ [b] }

/-- `list_move_tail` to `vframe_block_list`. -/
def moveToBusy (s : VdecInput) (b : Nat) : VdecInput :=
  { s with
    vframeBlockList := s.vframeBlockList.erase b ++ [b]
    vframeBlockFreeList := s.vframeBlockFreeList.erase b }

/-- `vdec_input_del_block_locked`. -/
def delBlockLocked (s : VdecInput) (b : Nat) : VdecInput :=
  { s with
    vframeBlockList := s.vframeBlockList.erase b
    vframeBlockFreeList := s.vframeBlockFreeList.erase b
    size := s.size - (s.blocks b).size
    blockNums := s.blockNums - 1 }

/-- `vdec_input_add_block`. -/
def addBlock (s : VdecInput) (block : VframeBlock) : VdecInput :=
  { s with
    blocks := fun i => if i = s.blockIdSeq then { block with wp := 0 } else s.blocks i
    blockIdSeq := s.blockIdSeq + 1
    vframeBlockList := s.vframeBlockList ++ [s.blockIdSeq]
    size := s.size + block.size
    blockNums := s.blockNums + 1
    wrBlock := some s.blockIdSeq }

/-- `vframe_block_init_alloc_storage`: a caller's buffer, or memory of the default size. -/
def initAllocStorage (s : VdecInput) (phyAddr : UInt64) (size : UInt32) (free : Bool)
    (mem : Memory) : Option VframeBlock :=
  if phyAddr ≠ 0 then
    some { noBlock with type := s.type, isOutBuf := true, size := size, free := free }
  else if mem.storage then
    some { noBlock with type := s.type, size := align32 s.defaultBlockSize.toUInt32 4096 }
  else
    none

/-- `vdec_input_alloc_new_block`. -/
def allocNewBlock (s : VdecInput) (phyAddr : UInt64) (size : UInt32) (free : Bool)
    (mem : Memory) : VdecInput × Option Nat :=
  if mem.block then
    match s.initAllocStorage phyAddr size free mem with
    | none => (s, none)
    | some block => (s.addBlock block, some s.blockIdSeq)
  else
    ({ s with noMemErrCnt := s.noMemErrCnt + 1 }, none)

/-- `vdec_input_level`. -/
def level (s : VdecInput) : Int32 := (s.totalWrCount - s.totalRdCount).toUInt32.toInt32

/-- The gap of time stamps that `vdec_input_get_duration_u64` starts from. -/
def ptsGap (s : VdecInput) : Int32 :=
  let duration := (s.lastInptsU64 - s.lastConsumedPtsU64).toUInt32.toInt32
  if s.lastInNoptsCnt > 0 ∧ s.lastConsumedPtsU64 > 0 ∧ s.lastDuration > 0 then
    duration + (s.lastInNoptsCnt - s.lastConsumedNoPtsCnt) * s.lastDuration
  else
    duration

/-- `vdec_input_get_duration_u64`. -/
def getDurationU64 (s : VdecInput) : Int32 :=
  let duration := if s.ptsGap > 1000000000 then 0 else s.ptsGap
  let duration :=
    if duration ≤ 0 ∧ s.lastDuration > 0 then s.lastDuration * Int32.ofInt s.haveFrameNum
    else duration
  if duration < 0 then 0 else duration

/-- `vdec_input_have_blocks_enough`. -/
def haveBlocksEnough (s : VdecInput) : Int32 :=
  (if s.level > vframeBlockMinLevel then 1 else 0)
    + (if s.level ≥ vframeBlockMaxLevel then 2 else 0)
    + (if s.getDurationU64 > maxFrameDurationS then 4 else 0)
    + (if s.haveFrameNum > 30 then 8 else -8)
    + (if s.size ≥ vframeBlockMaxTotalSize then 100 else 0)

end VdecInput

/-- The doubling loop of `vdec_input_get_free_block`. A size that was doubled `fuel` times
is zero and stays so: the loop then never ends. -/
def growDefSize (size : Int32) : Nat → Int32 → Option Int32
  | 0, _ => none
  | fuel + 1, defSize =>
    let defSize := defSize * 2
    if defSize ≤ 2 * size ∧ defSize ≤ vframeBlockSizeMax then growDefSize size fuel defSize
    else some defSize

/-- The default block size that a frame of `size` bytes asks for. -/
def nextDefaultSize (size defaultBlockSize : Int32) : Option Int32 :=
  if defaultBlockSize ≤ size * 2 then
    (growDefSize size 33 defaultBlockSize).map fun defSize =>
      if defSize < size then (align32 (size + 64).toUInt32 131072).toInt32 else defSize
  else
    some defaultBlockSize

namespace VdecInput

/-- `vdec_input_get_free_block` once the free list gave no block. -/
def allocFreeBlock (s : VdecInput) (size : Int32) (mem : Memory) :
    Option (VdecInput × Except Errno Nat) :=
  if s.haveBlocksEnough > 13 then some (s, .error .eagain)
  else if s.noMemErrCnt > 3 then some (s, .error .eagain)
  else
    (nextDefaultSize size s.defaultBlockSize).map fun defSize =>
      match { s with defaultBlockSize := defSize }.allocNewBlock 0 0 false mem with
      | (s, none) => ({ s with noMemErrCnt := s.noMemErrCnt + 1 }, .error .eagain)
      | (s, some b) => ({ s with noMemErrCnt := 0 }, .ok b)

/-- `vdec_input_get_free_block`; `none` when the doubling loop does not end. -/
def getFreeBlock (s : VdecInput) (size : Int32) (mem : Memory) :
    Option (VdecInput × Except Errno Nat) :=
  match s.vframeBlockFreeList with
  | [] => s.allocFreeBlock size mem
  | b :: _ =>
    if (s.blocks b).size < size.toUInt32 then (s.delBlockLocked b).allocFreeBlock size mem
    else some ({ s.moveToBusy b with wrBlock := some b }, .ok b)

end VdecInput

/-- `vframe_block_space`. -/
def vframeBlockSpace (block : VframeBlock) : UInt32 :=
  if block.type = .frameBlock then block.size - block.wp
  else if block.rp ≥ block.wp then block.rp - block.wp
  else block.rp - block.wp + block.size

/-- `need_padding_size` of a frame of `count` bytes. -/
def needPaddingSize (count : UInt64) : UInt64 :=
  if count < pageSize then pageAlign64 (count + minFramePaddingSize) - count
  else if count % 64 ≠ 0 then minFramePaddingSize + (64 - count % 64)
  else minFramePaddingSize

namespace VdecInput

/-- The block that is left for a fresh one: it goes to the free list when it is empty. -/
def recycle (s : VdecInput) (b : Nat) : VdecInput :=
  if (s.blocks b).chunkCount = 0 then
    { (s.setBlock b fun block => { block with rp := 0, wp := 0 }).moveToFree b with
      wrBlock := none }
  else
    s

/-- The block that takes the next frame. -/
def chooseBlock (s : VdecInput) (count padding : UInt64) (mem : Memory) :
    Option (VdecInput × Except Errno Nat) :=
  let size := (count + padding + extraPaddingSize).toUInt32.toInt32
  match s.wrBlock with
  | none => s.getFreeBlock size mem
  | some b =>
    if (vframeBlockSpace (s.blocks b)).toUInt64 > count + padding then some (s, .ok b)
    else if (s.blocks b).type = .frameCircular then some (s, .error .eagain)
    else (s.recycle b).getFreeBlock size mem

/-- The new `last_duration`: the smallest gap between two time stamps. -/
def nextDuration (s : VdecInput) (f : Frame) : Int32 :=
  let d := (f.pts64 - s.lastInptsU64).toUInt32.toInt32
  if f.ptsValid = true ∧ s.lastInptsU64 > 0 ∧ s.lastInNoptsCnt = 0 ∧ d > 0 ∧ d < s.lastDuration
  then d else s.lastDuration

/-- `vframe_block_add_chunk`, on the block. -/
def blockAddChunk (block : VframeBlock) (chunk : VframeChunk) : VframeBlock :=
  let wp := block.wp + (chunk.size + chunk.paddingSize)
  { block with
    wp := if wp ≥ block.size then wp - block.size else wp
    dataSize := block.dataSize + chunk.size.toInt32
    chunkCount := block.chunkCount + 1 }

/-- The locked part of `vdec_input_add_chunk`. -/
def queueChunk (s : VdecInput) (f : Frame) (chunk : VframeChunk) : VdecInput :=
  { s.setBlock chunk.block (blockAddChunk · chunk) with
    wrBlock := some chunk.block
    sequence := s.sequence + 1
    vframeChunkList := s.vframeChunkList ++ [chunk]
    dataSize := s.dataSize + chunk.size.toInt32
    haveFrameNum := s.haveFrameNum + 1
    lastDuration := s.nextDuration f
    lastInptsU64 := if f.ptsValid then f.pts64 else s.lastInptsU64
    lastInNoptsCnt := if f.ptsValid then 0 else s.lastInNoptsCnt + 1
    totalWrCount := s.totalWrCount + f.count }

/-- The chunk of a frame that goes to block `b`. -/
def newChunk (s : VdecInput) (f : Frame) (b : Nat) (offset paddingSize : UInt32) : VframeChunk :=
  { sequence := s.sequence, block := b, offset := offset, size := f.count.toUInt32,
    paddingSize := paddingSize, ptsValid := f.ptsValid, pts64 := f.pts64 }

/-- `vdec_input_add_chunk` of a caller's buffer: it is the block's memory. -/
def addOutBuf (s : VdecInput) (f : Frame) (mem : Memory) : VdecInput × Except Errno Unit :=
  let size := (pageAlign64 (f.count + hevcPaddingSize + 1)).toUInt32
  match s.allocNewBlock f.buf size f.free mem with
  | (s, none) => (s, .error .enomem)
  | (s, some b) =>
    let s := s.setBlock b fun block => { block with handle := f.handle }
    let chunkSize := f.count.toUInt32
    let padding := align32 (chunkSize + minFramePaddingSize.toUInt32) 4096 - chunkSize
    if mem.chunk then (s.queueChunk f (s.newChunk f b 0 padding), .ok ())
    else (s, .error .enomem)

/-- `vdec_input_add_chunk` of data that is copied to a block of the input. `vframe_chunk_fill`
never fails. -/
def addCopied (s : VdecInput) (f : Frame) (mem : Memory) :
    Option (VdecInput × Except Errno Unit) :=
  let padding := needPaddingSize f.count
  match s.chooseBlock f.count padding mem with
  | none => none
  | some (s, .error e) => some (s, .error e)
  | some (s, .ok b) =>
    let s := if f.free then s.setBlock b fun block => { block with free := true } else s
    if mem.chunk then
      some (s.queueChunk f (s.newChunk f b (s.blocks b).wp padding.toUInt32), .ok ())
    else
      some (s, .error .enomem)

/-- `vdec_input_add_chunk`. -/
def addChunk (s : VdecInput) (f : Frame) (mem : Memory) :
    Option (VdecInput × Except Errno Unit) :=
  if s.secure || s.dmabuf then some (s.addOutBuf f mem)
  else if s.type = .single ∨ s.type = .streamParser then some (s, .error .einval)
  else s.addCopied f mem

/-- What `vdec_input_release_chunk` takes off the block. -/
def blockDropChunk (block : VframeBlock) (chunk : VframeChunk) : VframeBlock :=
  let rp := block.rp + chunk.size
  { block with
    rp := if rp ≥ block.size then rp - block.size else rp
    dataSize := block.dataSize - chunk.size.toInt32
    chunkCount := block.chunkCount - 1 }

/-- The chunk leaves the queue, and the counters of its block and of the input. -/
def dequeueChunk (s : VdecInput) (chunk : VframeChunk) : VdecInput :=
  { s.setBlock chunk.block (blockDropChunk · chunk) with
    vframeChunkList := s.vframeChunkList.erase chunk
    haveFrameNum := s.haveFrameNum - 1
    lastConsumedNoPtsCnt := if chunk.ptsValid then 0 else s.lastConsumedNoPtsCnt + 1
    lastConsumedPtsU64 := if chunk.ptsValid then chunk.pts64 else s.lastConsumedPtsU64
    dataSize := s.dataSize - chunk.size.toInt32
    totalRdCount := s.totalRdCount + chunk.size.toUInt64 }

/-- What happens to the block that a released chunk was in. -/
def settleBlock (s : VdecInput) (b : Nat) : VdecInput :=
  if (s.blocks b).isOutBuf then
    if (s.blocks b).free then (s.moveToFree b).delBlockLocked b else s.moveToFree b
  else if (s.blocks b).chunkCount = 0 ∧ s.wrBlock ≠ some b then
    if (s.blocks b).size < s.defaultBlockSize.toUInt32 then s.delBlockLocked b
    else (s.setBlock b fun block => { block with rp := 0, wp := 0 }).moveToFree b
  else
    s

/-- `vdec_input_release_chunk`; `none` when the chunk's block was freed before. -/
def releaseChunk (s : VdecInput) (sequence : Nat) : Option VdecInput :=
  match s.vframeChunkList.find? (·.sequence = sequence) with
  | none => some s
  | some chunk =>
    if chunk.block ∈ s.linked then some ((s.dequeueChunk chunk).settleBlock chunk.block)
    else none

/-- The loop of `vdec_input_prepare_bufs`. -/
def prepareLoop (mem : Nat → Memory) : Nat → VdecInput → VdecInput
  | 0, s => s
  | n + 1, s =>
    match s.allocNewBlock 0 0 false (mem n) with
    | (s, none) => s
    | (s, some b) => prepareLoop mem n { s.moveToFree b with wrBlock := none }

/-- `vdec_input_prepare_bufs`. -/
def prepareBufs (s : VdecInput) (support4k : Bool) (mem : Nat → Memory) : VdecInput :=
  if s.secure || s.dmabuf then s
  else if s.size > 0 then s
  else if support4k then prepareLoop mem 3 { s with defaultBlockSize := vframeBlockSize4k }
  else prepareLoop mem 3 s

/-- The loop of `vdec_input_get_freed_handle`, along the free list. -/
def freedHandleLoop : List Nat → VdecInput → VdecInput × UInt32
  | [], s => (s, 0)
  | b :: bs, s =>
    if (s.blocks b).handle = 0 then freedHandleLoop bs (s.delBlockLocked b)
    else (s.delBlockLocked b, (s.blocks b).handle)

/-- `vdec_input_get_freed_handle`. -/
def getFreedHandle (s : VdecInput) : VdecInput × UInt32 :=
  if s.secure then freedHandleLoop s.vframeBlockFreeList s else (s, 0)

end VdecInput

/-- A call on the input. -/
inductive Op
  | addChunk (f : Frame) (mem : Memory)
  | releaseChunk (sequence : Nat)
  | prepareBufs (support4k : Bool) (mem : Nat → Memory)
  | getFreedHandle

/-- One call, under `input->lock`. -/
def step (s : VdecInput) : Op → Option VdecInput
  | .addChunk f mem => (s.addChunk f mem).map Prod.fst
  | .releaseChunk sequence => s.releaseChunk sequence
  | .prepareBufs support4k mem => some (s.prepareBufs support4k mem)
  | .getFreedHandle => some s.getFreedHandle.1

end MediaModules.FrameInput
