import MediaModules.Lib.Heap
import MediaModules.Lib.Words

/-!
# The write thread of a stream buffer

A writer copies user data into free blocks and queues them, and the work of the thread hands the
queued blocks to the low-level write, which may take all of a block, a part or nothing. Both run
under the mutex of the task. The blocks come from one shared allocation or from one allocation each.
-/
namespace MediaModules.WriteThread

open Lib Lib.Words

def EAGAIN : Int := 11
def EFAULT : Int := 14

/-- `DEFAULT_BLOCK_SIZE`. -/
def DEFAULT_BLOCK_SIZE : Int := 65536

/-- `MAX_MM_BUFFER_NUM`. -/
def MAX_MM_BUFFER_NUM : Nat := 16

/-- An address as the FIFOs keep it: a block of `task->buf`, or an address of user space. -/
inductive Address
  | block (i : Nat)
  | user (a : Nat)
deriving DecidableEq, Repr

/-- `struct threadrw_buf`. A physical address and the virtual address of the same byte are one
place. -/
structure ThreadrwBuf where
  vbuffer : Option Place
  dmaHandle : Place
  writeOff : Int
  dataSize : Int
  bufferSize : Int
  fromCma : Bool
deriving DecidableEq, Repr

/-- `struct threadrw_write_task`, with the memory its blocks lie in. Neither FIFO ever holds more
entries than its size, so both are lists. -/
structure WriteTask where
  datafifo : List Address
  freefifo : List Address
  bufsNum : Nat
  maxBufs : Nat
  errors : Int
  bufferedDataSize : Int
  passedDataLen : Int
  bufferSize : Int
  defBlockSize : Int
  dataOffset : Int
  codecMmBuffer : List (Option Nat)
  manualWrite : Bool
  failedOnmore : Bool
  buf : Nat → ThreadrwBuf
  memory : Heap

/-- What one `write` system call hands over: the kernel cuts it at `MAX_RW_COUNT` bytes. -/
structure UserData where
  bytes : List UInt8
  small : bytes.length ≤ 2147479552

/-- `threadrw_write_onece`: `buf` is the user address, `data` the bytes still to be written, and
`uncopied` what `copy_from_user` leaves uncopied. It is undefined when a user address is taken for a
block, and when the copy leaves the memory of the block. -/
def threadrwWriteOnece (t : WriteTask) (buf : Nat) (data : List UInt8) (uncopied : Nat) :
    Option (Int × WriteTask) :=
  match t.freefifo with
  | [] => some (if t.errors ≠ 0 then t.errors else -EAGAIN, t)
  | .user _ :: _ => none
  | .block i :: free =>
    let rwbuf := t.buf i
    let toWrite := min (u32 rwbuf.bufferSize) (u32 data.length)
    let copied := data.take (toWrite.toNat - uncopied)
    (rwbuf.vbuffer.bind fun p => t.memory.store p copied).map fun memory =>
      if copied.length < toWrite.toNat then
        -- the block is not put back: the address of the user data is
        (-EFAULT, { t with freefifo := free ++ [.user buf], memory := memory })
      else
        (toWrite, { t with
          freefifo := free
          datafifo := t.datafifo ++ [.block i]
          buf := Function.update t.buf i { rwbuf with dataSize := toWrite, writeOff := 0 }
          memory := memory })

/-- The loop of `threadrw_write_in`, with the bytes written so far. The task stays locked while the
loop waits for a free block, so none turns up and the wait ends with `-EAGAIN`. Every turn takes a
block: one turn more than there are free blocks is enough. -/
def writeLoop (buf : Nat) (uncopied : Nat → Nat) :
    Nat → WriteTask → Nat → List UInt8 → Option (Nat × Int × WriteTask)
  | 0, t, off, _ => some (off, -EAGAIN, t)
  | turns + 1, t, off, left =>
    if left = [] then some (off, 0, t)
    else
      (threadrwWriteOnece t (buf + off) left (uncopied off)).bind fun r =>
        if r.1 < 0 then some (off, r.1, r.2)
        else writeLoop buf uncopied turns r.2 (off + r.1.toNat) (left.drop r.1.toNat)

/-- The counts at the end of `threadrw_write_in`. -/
def WriteTask.counted (t : WriteTask) (off : Nat) : WriteTask :=
  if off > 0 then
    { t with
      bufferedDataSize := s32 (t.bufferedDataSize + off)
      dataOffset := s32 (t.dataOffset + off) }
  else t

/-- `threadrw_write_in`: the number of bytes written, or an error when there is none, is the
result. -/
def threadrwWriteIn (t : WriteTask) (buf : Nat) (data : UserData) (uncopied : Nat → Nat) :
    Option (Nat × Int × WriteTask) :=
  (writeLoop buf uncopied (t.freefifo.length + 1) t 0 data.bytes).map fun r =>
    (r.1, if r.1 > 0 then (r.1 : Int) else r.2.1, r.2.2.counted r.1)

/-- The bytes the low-level write is called with: from the virtual address when the writes are
manual, from the physical address otherwise. -/
def WriteTask.source (t : WriteTask) (rwbuf : ThreadrwBuf) : Option Place :=
  if t.manualWrite then rwbuf.vbuffer else some rwbuf.dmaHandle

def WriteTask.contents (t : WriteTask) (rwbuf : ThreadrwBuf) : Option (List UInt8) :=
  (t.source rwbuf).bind fun p => t.memory.load p rwbuf.writeOff rwbuf.dataSize.toNat

/-- What `do_write_work_in` does with the first queued block once the low-level write has returned
`ret`: it asks for another turn or not, and the low-level write has taken some of `bytes`. -/
def finishWrite (t : WriteTask) (i : Nat) (data : List Address) (bytes : List UInt8) (ret : Int) :
    Bool × List UInt8 × WriteTask :=
  let rwbuf := t.buf i
  if ret = -EAGAIN then (false, [], t)
  else if ret ≥ rwbuf.dataSize then
    (true, bytes, { t with
      datafifo := data
      freefifo := t.freefifo ++ [.block i]
      buf := Function.update t.buf i { rwbuf with dataSize := 0 }
      passedDataLen := if rwbuf.dataSize > 0 then s32 (t.passedDataLen + rwbuf.dataSize)
        else t.passedDataLen })
  else if ret > 0 then
    (true, bytes.take ret.toNat, { t with
      buf := Function.update t.buf i { rwbuf with
        dataSize := rwbuf.dataSize - ret, writeOff := rwbuf.writeOff + ret }
      passedDataLen := s32 (t.passedDataLen + ret) })
  else (false, [], { t with errors := ret })

/-- `do_write_work_in`, with the result of the low-level write. -/
def doWriteWorkIn (t : WriteTask) (ret : Int) : Option (Bool × List UInt8 × WriteTask) :=
  match t.datafifo with
  | [] => some (false, [], t)
  | .user _ :: _ => none
  | .block i :: data => (t.contents (t.buf i)).map fun bytes => finishWrite t i data bytes ret

/-- What the allocators answer: whether the codec memory has room to spare, whether the shared
allocation succeeds, whether the address of a block can be mapped, and whether a block gets coherent
memory of its own. -/
structure MmEnv where
  roomy : Bool
  shared : Bool
  mapped : Nat → Bool
  coherent : Nat → Bool

/-- Where the blocks of one call come from: the allocation in the slot of `codec_mm_buffer`, zero when
none was made, with its size, or coherent memory. -/
inductive BlockSource
  | shared (startAddr : Option Nat) (totalMm : Int)
  | coherent
deriving DecidableEq, Repr

/-- `ALIGN(x, 1 << 17)`. -/
def align17 (x : Int) : Int := s32 ((x + 131071) / 131072 * 131072)

/-- The shared allocation of `alloc_task_buffers_inlock`. Below 128K none is made. -/
def allocShared (t : WriteTask) (env : MmEnv) (newNum blockSize : Int) : WriteTask × BlockSource :=
  match t.codecMmBuffer.findIdx? Option.isNone with
  | none => (t, .coherent)
  | some mmSlot =>
    if t.manualWrite ∨ ¬ env.roomy then (t, .coherent)
    else if s32 (blockSize * newNum) ≥ 128 * 1024 then
      let totalMm := align17 (s32 (blockSize * newNum))
      if env.shared then
        ({ t with
            codecMmBuffer := t.codecMmBuffer.set mmSlot (some t.memory.length)
            memory := t.memory.alloc totalMm.toNat
            bufferSize := s32 (t.bufferSize + totalMm) },
          .shared (some t.memory.length) totalMm)
      else (t, .coherent)
    else (t, .shared none 0)

/-- A block is set up and becomes free. -/
def WriteTask.addBlock (t : WriteTask) (rwbuf : ThreadrwBuf) : WriteTask :=
  { t with
    buf := Function.update t.buf t.bufsNum rwbuf
    freefifo := t.freefifo ++ [.block t.bufsNum]
    bufsNum := t.bufsNum + 1 }

/-- The `i`-th block of a shared allocation. The last one takes the rest of it. -/
def sharedBlock (t : WriteTask) (env : MmEnv) (startAddr : Option Nat)
    (totalMm newNum blockSize : Int) (i : Nat) : ThreadrwBuf :=
  let handle : Place := ⟨startAddr, s32 (blockSize * i)⟩
  { t.buf t.bufsNum with
    bufferSize := if (i : Int) = newNum - 1 then s32 (totalMm - s32 (blockSize * i)) else blockSize
    dmaHandle := handle
    vbuffer := if env.mapped t.bufsNum then some handle else none
    fromCma := true }

/-- A block with coherent memory of its own. -/
def coherentBlock (t : WriteTask) (blockSize : Int) : ThreadrwBuf :=
  { t.buf t.bufsNum with
    bufferSize := blockSize
    dmaHandle := ⟨some t.memory.length, 0⟩
    vbuffer := some ⟨some t.memory.length, 0⟩
    fromCma := false }

/-- The loop of `alloc_task_buffers_inlock`, from the `i`-th of the new blocks on. -/
def allocLoop (env : MmEnv) (source : BlockSource) (newNum blockSize : Int) :
    Nat → Nat → WriteTask → WriteTask
  | 0, _, t => t
  | left + 1, i, t =>
    match source with
    | .shared startAddr totalMm =>
      allocLoop env source newNum blockSize left (i + 1)
        (t.addBlock (sharedBlock t env startAddr totalMm newNum blockSize i))
    | .coherent =>
      if env.coherent t.bufsNum then
        allocLoop env source newNum blockSize left (i + 1)
          { t.addBlock (coherentBlock t blockSize) with
            memory := t.memory.alloc blockSize.toNat
            bufferSize := s32 (t.bufferSize + blockSize) }
      else
        { t with buf := Function.update t.buf t.bufsNum { t.buf t.bufsNum with
            bufferSize := 0, dmaHandle := ⟨none, 0⟩, vbuffer := none } }

/-- The release of the `i`-th block in `free_task_buffers`: its own memory, when it has any. -/
def WriteTask.releaseBlock (t : WriteTask) (memory : Heap) (i : Nat) : Heap :=
  if (t.buf i).fromCma then memory else memory.release ((t.buf i).vbuffer.bind Place.base)

/-- `free_task_buffers`. -/
def freeTaskBuffers (t : WriteTask) : WriteTask :=
  let shared := t.codecMmBuffer.foldl Heap.release t.memory
  { t with memory := (List.range t.bufsNum).foldl t.releaseBlock shared }

/-- The number of blocks a call adds: the task has room for `max_bufs`. -/
def WriteTask.newNum (t : WriteTask) (newBuffers : Int) : Int :=
  if (t.bufsNum : Int) + newBuffers > t.maxBufs then (t.maxBufs : Int) - t.bufsNum else newBuffers

/-- The size of the blocks a call adds. -/
def blockSizeOf (blockSize : Int) : Int := if blockSize ≤ 0 then DEFAULT_BLOCK_SIZE else blockSize

/-- The new blocks of `alloc_task_buffers_inlock`. -/
def allocBlocks (t : WriteTask) (newBuffers blockSize : Int) (env : MmEnv) : WriteTask :=
  let newNum := t.newNum newBuffers
  let blockSize := blockSizeOf blockSize
  let r := allocShared t env newNum blockSize
  allocLoop env r.2 newNum blockSize newNum.toNat 0 r.1

/-- The first block gives the default size, unless there is one. -/
def WriteTask.defaulted (t : WriteTask) : WriteTask :=
  if t.defBlockSize = 0 then { t with defBlockSize := (t.buf 0).bufferSize } else t

/-- `alloc_task_buffers_inlock`. -/
def allocTaskBuffersInlock (t : WriteTask) (newBuffers blockSize : Int) (env : MmEnv) :
    Int × WriteTask :=
  let u := allocBlocks t newBuffers blockSize env
  if t.bufsNum > 0 ∨ u.bufsNum ≥ 3 ∨ (u.bufsNum : Int) = t.newNum newBuffers then
    (0, u.defaulted)
  else (-1, if u.bufsNum > 0 then freeTaskBuffers u else u)

/-- The zeroed task of `threadrw_alloc_in`. -/
def newTask (maxBufs : Nat) (manualWrite : Bool) : WriteTask :=
  { datafifo := [], freefifo := [], bufsNum := 0, maxBufs := maxBufs, errors := 0,
    bufferedDataSize := 0, passedDataLen := 0, bufferSize := 0, defBlockSize := 0, dataOffset := 0,
    codecMmBuffer := List.replicate MAX_MM_BUFFER_NUM none, manualWrite := manualWrite,
    failedOnmore := false,
    buf := fun _ => ⟨none, ⟨none, 0⟩, 0, 0, 0, false⟩, memory := [] }

/-- The size of the FIFOs and of `task->buf`. -/
def maxBufsOf (num : Int) (audio : Bool) : Int := if audio then num else 300

/-- `threadrw_alloc`: `audio` is bit 0 of the flags, and `room` says whether there is memory for the
task and for its FIFOs, which have two entries at least. -/
def threadrwAlloc (num blockSize : Int32) (audio : Bool) (env : MmEnv) (room : Bool) :
    Option WriteTask :=
  if maxBufsOf num.toInt audio < 2 ∨ ¬ room then none
  else
    let r := allocTaskBuffersInlock (newTask (maxBufsOf num.toInt audio).toNat audio) num.toInt
      blockSize.toInt env
    if r.1 < 0 then none else some r.2

/-- The number of blocks `threadrw_alloc_more_buffer_size` asks for. -/
def moreNum (t : WriteTask) (blockSize size : Int) : Int :=
  let newNum := size.tdiv blockSize
  if newNum = 0 then 1
  else if newNum > (t.maxBufs : Int) - t.bufsNum then (t.maxBufs : Int) - t.bufsNum
  else newNum

/-- The block size of `threadrw_alloc_more_buffer_size`. -/
def moreBlockSize (t : WriteTask) : Int := if t.defBlockSize = 0 then 32 * 1024 else t.defBlockSize

/-- `threadrw_alloc_more_buffer_size`. -/
def threadrwAllocMoreBufferSize (t : WriteTask) (size : Int32) (env : MmEnv) : Int × WriteTask :=
  let blockSize := moreBlockSize t
  let newNum := moreNum t blockSize size.toInt
  let r := if newNum ≠ 0 then allocTaskBuffersInlock t newNum blockSize env else (-1, t)
  (r.1, if r.1 < 0 ∨ t.bufsNum = r.2.bufsNum then { r.2 with failedOnmore := true } else r.2)

end MediaModules.WriteThread
