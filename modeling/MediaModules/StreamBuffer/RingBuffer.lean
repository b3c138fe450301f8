import MediaModules.Lib.Ring
import MediaModules.Lib.Run
import MediaModules.Lib.Words

/-!
# The stream ring buffer

The elementary stream between the writer and the decoder: a ring in physical memory, written through
mapping windows and read by the hardware, which only moves the read position. How full it is follows
from the two positions and a counter.
-/
namespace MediaModules.StreamBuffer

open MediaModules.Lib.Run
open MediaModules.Lib.Ring
open MediaModules.Lib.Words

def MAP_RANGE : Nat := 1048576

def EAGAIN : Int := 11

def ENOMEM : Int := 12

def EFAULT : Int := 14

/-- `struct stream_buf_s`, and the physical memory it lies in. -/
structure StreamBuf where
  bufStart : Int := 0
  bufSize : Int
  bufWp : Int := 0
  bufRp : Int := 0
  extBufAddr : Int := 0
  payload : Int := 0
  mem : Int → UInt8

/-- `PAGE_ALIGN` of a `u32`. -/
def pageAlign (size : Int) : Int := u32 (size + 4095) / 4096 * 4096

/-- `stream_buffer_init`: `addr` is what `codec_mm_alloc_for_dma` gives, `ret` what
`vdec_set_input_buffer` returns. -/
def streamBufferInit (s : StreamBuf) (addr ret : Int) : Int × StreamBuf :=
  if s.bufStart ≠ 0 then (0, s)
  else
    let size := if s.extBufAddr ≠ 0 then s.bufSize else pageAlign s.bufSize
    let addr := if s.extBufAddr ≠ 0 then s.extBufAddr else addr
    -- on an error there is no buffer yet that `stream_buffer_release` could give back
    if addr = 0 then (-ENOMEM, s)
    else if ret ≠ 0 then (ret, s)
    else (0, { s with
      payload := 0, bufStart := addr, bufWp := addr, bufRp := addr, bufSize := size })

/-- `get_free_space` -/
def getFreeSpace (s : StreamBuf) : Int :=
  if s.payload = 0 ∧ s.bufRp = s.bufWp then s32 s.bufSize
  else if s.bufWp > s.bufRp then s32 (u64 (s.bufSize - (s.bufWp - s.bufRp)))
  else if s.bufWp < s.bufRp then s32 (s.bufRp - s.bufWp)
  else 0

/-- The distance from `pos` on to `val`, as the two setters compute it. -/
def StreamBuf.distance (s : StreamBuf) (pos val : Int) : Int :=
  s32 (if val ≥ pos then val - pos else u64 (s.bufSize - pos + val))

/-- `stream_buffer_set_wp` -/
def streamBufferSetWp (s : StreamBuf) (val : Int) : StreamBuf :=
  { s with bufWp := val, payload := s32 (s.payload + s.distance s.bufWp val) }

/-- `stream_buffer_set_rp` -/
def streamBufferSetRp (s : StreamBuf) (val : Int) : StreamBuf :=
  { s with bufRp := val, payload := s32 (s.payload - s.distance s.bufRp val) }

/-- The bytes a call hands over, and whether they lie in physical memory. -/
structure Source where
  bytes : List UInt8
  isPhybuf : Bool

/-- What becomes of one mapping window: all of it is copied, it cannot be mapped, or the copy from
user space stops after some bytes. -/
inductive Window
  | copied
  | unmapped
  | short (n : Nat)

/-- The bytes of the `len`-byte window at `i`: a physical source is mapped there, a virtual one is
read from its start. -/
def Source.window (src : Source) (i len : Int) : List UInt8 :=
  (if src.isPhybuf then src.bytes.drop i.toNat else src.bytes).take len.toNat

/-- The loop of `stream_buffer_copy` over its windows of `range` bytes. -/
def copyWindows (range : Nat) (wp : Int) (src : Source) (size : Int) (windows : Nat → Window) :
    List Nat → (Int → UInt8) → Int × (Int → UInt8)
  | [], mem => (0, mem)
  | j :: js, mem =>
    let i := s32 (j * range : Nat)
    let len : Int := if u32 (size - i) > range then range else s32 (u32 (size - i))
    match windows j with
    | .unmapped => (-EFAULT, mem)
    | .short n => (-EAGAIN, put mem (wp + i) ((src.window i len).take n))
    | .copied => copyWindows range wp src size windows js (put mem (wp + i) (src.window i len))

/-- The windows of a copy. -/
def windowCount (range size : Nat) : Nat := (size + (range - 1)) / range

/-- `stream_buffer_copy` -/
def streamBufferCopy (s : StreamBuf) (src : Source) (size : Int) (windows : Nat → Window) :
    Int × (Int → UInt8) :=
  copyWindows MAP_RANGE s.bufWp src size windows (List.range (windowCount MAP_RANGE size.toNat)) s.mem

/-- The buffer over a changed memory. -/
def StreamBuf.withMem (s : StreamBuf) (mem : Int → UInt8) : StreamBuf := { s with mem := mem }

/-- `rb_push_data` -/
def rbPushData (s : StreamBuf) (src : Source) (size : Int) (windows : Nat → Window) :
    Int × StreamBuf :=
  let wp := s.bufWp
  let sp := u64 (s.bufWp + size)
  let ep := u64 (s.bufStart + s.bufSize)
  let len := s32 (if sp > ep then u64 (ep - wp) else size)
  let r := if s.extBufAddr = 0 then streamBufferCopy s src (u32 len) windows else (0, s.mem)
  if r.1 ≠ 0 then (r.1, s.withMem r.2)
  else (len, streamBufferSetWp (s.withMem r.2)
    (if u64 (wp + len) ≥ ep then s.bufStart else u64 (wp + len)))

/-- `stream_buffer_write_inner`; no source is a null pointer. -/
def streamBufferWriteInner (s : StreamBuf) (input : Option Source) (windows : Nat → Window) :
    Int × StreamBuf :=
  match input with
  | none => (-1, s)
  | some src =>
    if (src.bytes.length : Int) > s.bufSize then (-1, s)
    else if u32 (getFreeSpace s) < src.bytes.length then (-EAGAIN, s)
    else rbPushData s src src.bytes.length windows

/-- A call on the buffer. -/
inductive Call
  | write (input : Option Source) (windows : Nat → Window)
  | setRp (val : Int)

/-- The buffer, and the queue it is meant to be: the accepted bytes that were not read yet. -/
structure Stream where
  buf : StreamBuf
  unread : List UInt8

/-- The bytes the read position advances by when it moves to `val`. -/
def StreamBuf.advance (s : StreamBuf) (val : Int) : Nat := ((val - s.bufRp) % s.bufSize).toNat

/-- What a call does to both. A write accepts the bytes its return value counts. -/
def step (s : Stream) : Call → Option Stream
  | .write input windows =>
    let r := streamBufferWriteInner s.buf input windows
    some ⟨r.2, s.unread ++ (input.elim [] Source.bytes).take r.1.toNat⟩
  | .setRp val => some ⟨streamBufferSetRp s.buf val, s.unread.drop (s.buf.advance val)⟩

/-- The ring holds the queue. -/
structure Represents (s : Stream) : Prop where
  payload : s.buf.payload = s.unread.length
  room : (s.unread.length : Int) ≤ s.buf.bufSize
  wpInside : s.buf.bufStart ≤ s.buf.bufWp ∧ s.buf.bufWp < s.buf.bufStart + s.buf.bufSize
  rpInside : s.buf.bufStart ≤ s.buf.bufRp ∧ s.buf.bufRp < s.buf.bufStart + s.buf.bufSize
  apart : (s.buf.bufWp - s.buf.bufRp - s.buf.payload) % s.buf.bufSize = 0
  bytes : content s.buf.mem s.buf.bufStart s.buf.bufSize.toNat
    (s.buf.bufRp - s.buf.bufStart).toNat s.unread.length = s.unread

/-- Lengths are `u32`. The read position moves inside the buffer, over bytes that are there. -/
def InDomain (s : Stream) : Call → Prop
  | .write input _ => ∀ src ∈ input, src.bytes.length < 4294967296
  | .setRp val => s.buf.bufStart ≤ val ∧ val < s.buf.bufStart + s.buf.bufSize ∧
      s.buf.advance val ≤ s.unread.length

/-- The bytes a write that is let in copies: those up to the end of the ring. -/
def StreamBuf.chunk (s : StreamBuf) (src : Source) : Int :=
  min src.bytes.length (s.bufStart + s.bufSize - s.bufWp)

/-- The source repeats its first window all along, as it does when it is no longer than that. -/
def Source.Periodic (src : Source) (range : Nat) (len : Int) : Prop :=
  ∀ k : Nat, (k : Int) < len → src.bytes[k]? = src.bytes[k % range]?

/-- The tests of `stream_buffer_write_inner` let the source in. -/
def StreamBuf.Accepts (s : StreamBuf) (src : Source) : Prop :=
  (src.bytes.length : Int) ≤ s.bufSize ∧ (src.bytes.length : Int) ≤ u32 (getFreeSpace s)

/-- Every window of a copy is mapped and copied. -/
def Uninterrupted (windows : Nat → Window) (range : Nat) (len : Int) : Prop :=
  ∀ j : Nat, (j * range : Nat) < len → windows j = .copied

/-- The calls that keep the queue: a write that is let in copies less than 2^31 bytes, and if it is
not interrupted it leaves less than 2^31 bytes in the ring, does not fill the ring in one go and,
from a virtual source, repeats the source's first window or stays within it. -/
def CallOk (s : Stream) : Call → Prop
  | .write input windows => ∀ src ∈ input, s.buf.Accepts src →
      s.buf.chunk src < 2147483648 ∧
      (Uninterrupted windows MAP_RANGE (s.buf.chunk src) →
        s.buf.payload + s.buf.chunk src < 2147483648 ∧ s.buf.chunk src < s.buf.bufSize ∧
        (src.isPhybuf = false → src.Periodic MAP_RANGE (s.buf.chunk src)))
  | .setRp _ => True

end MediaModules.StreamBuffer
