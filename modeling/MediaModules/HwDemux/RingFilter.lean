import MediaModules.Lib.Ring
import MediaModules.Lib.Run
import Mathlib.Algebra.Order.Ring.Int

/-!
# The software filter's ring

The hardware demux writes a transport stream into a ring, from which whole packets are handed to the
software filter: those before the end of the ring, the one across it, and those behind it.
-/
namespace MediaModules.HwDemux

open MediaModules.Lib.Ring
open MediaModules.Lib.Run

def packetLen : Nat := 188

def syncByte : UInt8 := 0x47

/-- `struct dvb_ringbuffer` -/
structure DvbRingbuffer where
  data : Int → UInt8
  size : Nat
  pread : Nat
  pwrite : Nat

namespace DvbRingbuffer

/-- `dvb_ringbuffer_free` -/
def free (rb : DvbRingbuffer) : Nat := ((rb.pread : Int) - rb.pwrite - 1).emod rb.size |>.toNat

/-- `dvb_ringbuffer_write` -/
def write (rb : DvbRingbuffer) (src : List UInt8) : DvbRingbuffer :=
  if rb.pwrite + src.length > rb.size then
    { rb with
      data := put (put rb.data rb.pwrite (src.take (rb.size - rb.pwrite))) 0
        (src.drop (rb.size - rb.pwrite))
      pwrite := (src.length - (rb.size - rb.pwrite)) % rb.size }
  else { rb with
    data := put rb.data rb.pwrite src
    pwrite := (rb.pwrite + src.length) % rb.size }

/-- The bytes `data[pos..pos + len)`; there are none outside `data[0..size)`. -/
def read (rb : DvbRingbuffer) (pos len : Nat) : Option (List UInt8) :=
  if pos + len ≤ rb.size then some ((List.range len).map fun k => rb.data ((pos + k : Nat) : Int))
  else none

/-- The lengths of the two segments of unread bytes: up to the end of the ring, and behind it. -/
def len1 (rb : DvbRingbuffer) : Nat :=
  if rb.pread ≤ rb.pwrite then rb.pwrite - rb.pread else rb.size - rb.pread

def len2 (rb : DvbRingbuffer) : Nat := if rb.pread ≤ rb.pwrite then 0 else rb.pwrite

end DvbRingbuffer

/-- The packets of `swfilter_packets(demux, buf, count)`. -/
def packetsOf : Nat → List UInt8 → List (List UInt8)
  | 0, _ => []
  | count + 1, buf => buf.take packetLen :: packetsOf count (buf.drop packetLen)

/-- The variables of `_rbuf_filter_pkts`, and the packets passed on so far. -/
structure Scan where
  pread : Nat
  len1 : Nat
  len2 : Nat
  packets : List (List UInt8) := []

/-- The whole packets before the end of the ring. -/
def beforeEnd (rb : DvbRingbuffer) (s : Scan) : Option Scan :=
  let count := s.len1 / packetLen
  if count ≠ 0 then
    (rb.read s.pread (count * packetLen)).map fun buf =>
      { s with
        packets := s.packets ++ packetsOf count buf
        len1 := s.len1 - count * packetLen
        pread := s.pread + count * packetLen }
  else some s

/-- The packet across the end, put together in `wrapbuf`. -/
def acrossEnd (rb : DvbRingbuffer) (s : Scan) : Option Scan :=
  if s.len2 ≠ 0 ∧ s.len1 ≠ 0 ∧ s.len1 + s.len2 > packetLen then
    (rb.read s.pread s.len1).bind fun first =>
      (rb.read 0 (packetLen - s.len1)).map fun second =>
        { s with
          packets := s.packets ++ packetsOf 1 (first ++ second)
          pread := packetLen - s.len1
          len2 := s.len2 - (packetLen - s.len1) }
  else some s

/-- The whole packets behind the end. -/
def behindEnd (rb : DvbRingbuffer) (s : Scan) : Option Scan :=
  let count := s.len2 / packetLen
  if s.len2 ≠ 0 ∧ count ≠ 0 then
    (rb.read s.pread (count * packetLen)).map fun buf =>
      { s with
        packets := s.packets ++ packetsOf count buf
        pread := s.pread + count * packetLen }
  else some s

/-- The number of bytes before the first `0x47` of the first segment. -/
def syncOff (rb : DvbRingbuffer) : Option Nat :=
  (rb.read rb.pread rb.len1).map fun seg => seg.findIdx (· == syncByte)

/-- `_rbuf_filter_pkts`: the ring behind the packets it passed on. -/
def rbufFilterPkts (rb : DvbRingbuffer) : Option (DvbRingbuffer × List (List UInt8)) :=
  (syncOff rb).bind fun off =>
    (beforeEnd rb { pread := (rb.pread + off) % rb.size, len1 := rb.len1 - off, len2 := rb.len2 }).bind
      fun s => (acrossEnd rb s).bind fun s => (behindEnd rb s).map fun s =>
        ({ rb with pread := s.pread }, s.packets)

/-!
## The packets of a buffer
-/

section Packets

theorem packetsOf_add (m n : Nat) : ∀ buf : List UInt8, packetsOf (m + n) buf =
    packetsOf m buf ++ packetsOf n (buf.drop (m * packetLen)) := by
  induction m with
  | zero => intro buf; simp [packetsOf]
  | succ m ih =>
    intro buf
    rw [Nat.add_right_comm, packetsOf, packetsOf, ih, List.drop_drop, List.cons_append,
      Nat.succ_mul, Nat.add_comm packetLen]

/-- The packets do not depend on what follows them. -/
theorem packetsOf_take (n : Nat) : ∀ {m : Nat} (buf : List UInt8), n * packetLen ≤ m →
    packetsOf n (buf.take m) = packetsOf n buf := by
  induction n with
  | zero => intro m buf _; rfl
  | succ n ih =>
    intro m buf h
    rw [Nat.succ_mul] at h
    rw [packetsOf, packetsOf, List.take_take, List.drop_take, ih _ (by omega),
      Nat.min_eq_left (by omega)]

theorem packetsOf_flatten (n : Nat) : ∀ {buf : List UInt8}, n * packetLen ≤ buf.length →
    (packetsOf n buf).flatten = buf.take (n * packetLen) := by
  induction n with
  | zero => intro buf _; simp [packetsOf]
  | succ n ih =>
    intro buf h
    rw [Nat.succ_mul] at h
    rw [packetsOf, List.flatten_cons, ih (by rw [List.length_drop]; omega), Nat.succ_mul,
      Nat.add_comm (n * packetLen), List.take_add]

theorem packetsOf_whole (n : Nat) : ∀ {buf : List UInt8}, n * packetLen ≤ buf.length →
    ∀ p ∈ packetsOf n buf, p.length = packetLen := by
  induction n with
  | zero => intro buf _ p hp; cases hp
  | succ n ih =>
    intro buf h p hp
    rw [Nat.succ_mul] at h
    rcases List.mem_cons.mp hp with rfl | hp
    · rw [List.length_take]
      omega
    · exact ih (by rw [List.length_drop]; omega) p hp

end Packets

/-!
## The ring
-/

namespace DvbRingbuffer
variable {rb : DvbRingbuffer}

/-- The positions lie in the ring; the read position may stand at its end. -/
structure Valid (rb : DvbRingbuffer) : Prop where
  pread : rb.pread ≤ rb.size
  pwrite : rb.pwrite < rb.size

/-- The bytes that wait to be read. -/
def unread (rb : DvbRingbuffer) : List UInt8 :=
  content rb.data 0 rb.size rb.pread (rb.len1 + rb.len2)

theorem unread_length : rb.unread.length = rb.len1 + rb.len2 := content_length ..

/-- Where the unread bytes end. -/
theorem Valid.stop (h : rb.Valid) : rb.len1 + rb.len2 < rb.size ∧
    (rb.pread + (rb.len1 + rb.len2) = rb.pwrite ∨
      rb.pread + (rb.len1 + rb.len2) = rb.pwrite + rb.size) := by
  have hr := h.pread
  have hw := h.pwrite
  unfold len1 len2
  split <;> omega

/-- A ring whose unread bytes end at the write position. -/
theorem len_of_stop {left : Nat} (hr : rb.pread ≤ rb.size) (hleft : left < rb.size)
    (hstop : rb.pread + left = rb.pwrite ∨ rb.pread + left = rb.pwrite + rb.size) :
    rb.len1 + rb.len2 = left := by
  unfold len1 len2
  split <;> omega

theorem read_eq {pos len : Nat} (h : pos + len ≤ rb.size) :
    rb.read pos len = some (content rb.data 0 rb.size pos len) := by
  rw [read, if_pos h, content]
  refine congrArg some (List.map_congr_left fun k hk => ?_)
  have hk := List.mem_range.mp hk
  rw [Int.zero_add]
  by_cases hlt : pos + k < rb.size
  · rw [Nat.mod_eq_of_lt hlt]
  · omega

theorem free_eq (h : rb.Valid) : rb.free + (rb.len1 + rb.len2) + 1 = rb.size := by
  have hr := h.pread
  have hw := h.pwrite
  have hmod : ∀ a : Int, 0 ≤ a → a < rb.size → a.emod rb.size = a := fun a h0 h1 =>
    Int.emod_eq_of_lt h0 h1
  unfold free len1 len2
  split
  · have hneg : ((rb.pread : Int) - rb.pwrite - 1).emod rb.size =
        (rb.pread : Int) - rb.pwrite - 1 + rb.size := by
      rw [← hmod ((rb.pread : Int) - rb.pwrite - 1 + rb.size) (by omega) (by omega)]
      exact (Int.add_emod_right _ _).symm
    rw [hneg]
    omega
  · rw [hmod _ (by omega) (by omega)]
    omega

/-- A write that fits appends to the unread bytes. -/
theorem Valid.write (h : rb.Valid) {src : List UInt8} (hfit : src.length ≤ rb.free) :
    (rb.write src).Valid ∧ (rb.write src).unread = rb.unread ++ src ∧
      (rb.write src).pread = rb.pread ∧ (rb.write src).size = rb.size := by
  have hfree := free_eq h
  obtain ⟨hlt, hstop⟩ := h.stop
  have hr := h.pread
  have hw := h.pwrite
  have hpos : 0 < rb.size := by omega
  have hpread : rb.pread % rb.size < rb.size := Nat.mod_lt _ hpos
  obtain ⟨u, hu⟩ : ∃ u, rb.len1 + rb.len2 = u := ⟨_, rfl⟩
  rw [hu] at hfree hlt hstop
  have hend : (rb.pread % rb.size + u) % rb.size = rb.pwrite := by
    rw [Nat.mod_add_mod]
    rcases hstop with hstop | hstop
    · rw [hstop, Nat.mod_eq_of_lt hw]
    · rw [hstop, Nat.add_mod_right, Nat.mod_eq_of_lt hw]
  have hsize : (rb.write src).size = rb.size := by unfold DvbRingbuffer.write; split <;> rfl
  have hread : (rb.write src).pread = rb.pread := by unfold DvbRingbuffer.write; split <;> rfl
  have hwrite : (rb.write src).pwrite = (rb.pwrite + src.length) % rb.size := by
    unfold DvbRingbuffer.write
    split
    · next hover =>
      show (src.length - (rb.size - rb.pwrite)) % rb.size = _
      rw [show rb.pwrite + src.length = src.length - (rb.size - rb.pwrite) + rb.size by omega,
        Nat.add_mod_right]
    · rfl
  have hvalid : (rb.write src).Valid :=
    ⟨by rw [hread, hsize]; exact h.pread, by rw [hwrite, hsize]; exact Nat.mod_lt _ hpos⟩
  have hlen : (rb.write src).len1 + (rb.write src).len2 = u + src.length := by
    apply len_of_stop hvalid.pread (by rw [hsize]; omega)
    rw [hread, hwrite, hsize]
    by_cases hover : rb.pwrite + src.length < rb.size
    · rw [Nat.mod_eq_of_lt hover]
      omega
    · rw [Nat.mod_eq_sub_mod (by omega), Nat.mod_eq_of_lt (by omega)]
      omega
  refine ⟨hvalid, ?_, hread, hsize⟩
  rw [unread, unread, hlen, hu, hread, hsize, ← content_mod rb.data 0 rb.size rb.pread u,
    ← content_mod _ 0 rb.size rb.pread (u + src.length)]
  unfold DvbRingbuffer.write
  split
  · next hover =>
    -- the bytes up to the end of the ring, then the others from its start on
    have htake : (src.take (rb.size - rb.pwrite)).length = rb.size - rb.pwrite := by
      rw [List.length_take]
      omega
    have hdrop : (src.drop (rb.size - rb.pwrite)).length =
        src.length - (rb.size - rb.pwrite) := List.length_drop
    have hfirst := content_put rb.data 0 rb.size (rb.pread % rb.size) u
      (src.take (rb.size - rb.pwrite)) hpread (by omega) (by rw [hend]; omega)
    have hwrap : (rb.pread % rb.size + (u + (src.take (rb.size - rb.pwrite)).length)) % rb.size =
        0 := by
      rw [htake, ← Nat.add_assoc, Nat.add_mod, hend, Nat.add_mod_mod,
        show rb.pwrite + (rb.size - rb.pwrite) = rb.size by omega, Nat.mod_self]
    have hsecond := content_put
      (put rb.data rb.pwrite (src.take (rb.size - rb.pwrite))) 0 rb.size (rb.pread % rb.size)
      (u + (src.take (rb.size - rb.pwrite)).length) (src.drop (rb.size - rb.pwrite)) hpread
      (by omega) (by rw [hwrap]; omega)
    rw [hend, Int.zero_add] at hfirst
    rw [hwrap] at hsecond
    rw [hfirst, List.append_assoc, List.take_append_drop, Nat.add_assoc, htake, hdrop,
      show rb.size - rb.pwrite + (src.length - (rb.size - rb.pwrite)) = src.length by omega]
      at hsecond
    exact hsecond
  · next hover =>
    have hone := content_put rb.data 0 rb.size (rb.pread % rb.size) u src hpread (by omega)
      (by rw [hend]; omega)
    rw [hend, Int.zero_add] at hone
    exact hone

end DvbRingbuffer

/-!
## The packets of the ring
-/

section Scan
variable {rb : DvbRingbuffer} {u : List UInt8} {s : Scan} {c : Nat}

/-- `c` packets of the unread bytes `u` are passed on; the others are still in the two segments. -/
structure Scan.At (rb : DvbRingbuffer) (u : List UInt8) (s : Scan) (c : Nat) : Prop where
  packets : s.packets = packetsOf c u
  left : c * packetLen + (s.len1 + s.len2) = u.length
  unread : content rb.data 0 rb.size s.pread (s.len1 + s.len2) = u.drop (c * packetLen)
  inside : s.pread + s.len1 ≤ rb.size
  stop : s.pread + (s.len1 + s.len2) = rb.pwrite ∨
    s.pread + (s.len1 + s.len2) = rb.pwrite + rb.size
  wraps : s.len2 ≠ 0 → s.len2 = rb.pwrite ∧ (s.pread + s.len1 = rb.size ∨ s.pread = 0 ∧ s.len1 = 0)

/-- The packets read from the front of a queue. -/
theorem packets_of_content {pos len n : Nat} (hn : n * packetLen ≤ len)
    (hu : content rb.data 0 rb.size pos len = u.drop (c * packetLen)) :
    packetsOf (c + n) u =
      packetsOf c u ++ packetsOf n (content rb.data 0 rb.size pos (n * packetLen)) := by
  have hsplit := content_add rb.data 0 rb.size pos (n * packetLen) (len - n * packetLen)
  rw [Nat.add_sub_cancel' hn] at hsplit
  have htake : content rb.data 0 rb.size pos (n * packetLen) =
      (u.drop (c * packetLen)).take (n * packetLen) := by
    rw [← hu, hsplit, List.take_left' (content_length ..)]
  rw [packetsOf_add, htake, packetsOf_take n _ (Nat.le_refl _)]

theorem content_rest {pos len n : Nat} (hn : n * packetLen ≤ len)
    (hu : content rb.data 0 rb.size pos len = u.drop (c * packetLen)) :
    content rb.data 0 rb.size (pos + n * packetLen) (len - n * packetLen) =
      u.drop ((c + n) * packetLen) := by
  rw [← content_drop rb.data 0 rb.size pos len hn, hu, List.drop_drop, Nat.add_mul]

/-- The first part leaves less than a packet before the end of the ring. -/
theorem Scan.At.before (h : s.At rb u c) :
    ∃ s' n, beforeEnd rb s = some s' ∧ s'.At rb u (c + n) ∧ s'.len1 = s.len1 % packetLen ∧
      s'.len2 = s.len2 ∧ s'.pread + s'.len1 = s.pread + s.len1 ∧ n = s.len1 / packetLen := by
  have hdiv : s.len1 / packetLen * packetLen + s.len1 % packetLen = s.len1 :=
    Nat.div_add_mod' ..
  have hleft := h.left
  have hin := h.inside
  have hstop := h.stop
  have hmod : s.len1 - s.len1 / packetLen * packetLen = s.len1 % packetLen := by omega
  have hadd := Nat.add_mul c (s.len1 / packetLen) packetLen
  simp only [beforeEnd]
  split
  · rw [DvbRingbuffer.read_eq (by omega), Option.map_some]
    refine ⟨_, s.len1 / packetLen, rfl, ⟨?_, ?_, ?_, ?_, ?_, ?_⟩, hmod, rfl, ?_, rfl⟩
    · rw [h.packets]
      exact (packets_of_content (by omega) h.unread).symm
    · show _ + (s.len1 - _ + s.len2) = _
      omega
    · show content _ _ _ (s.pread + _) (s.len1 - _ + s.len2) = _
      rw [← content_rest (by omega) h.unread]
      congr 1
      omega
    · show s.pread + _ + (s.len1 - _) ≤ _
      omega
    · show s.pread + _ + (s.len1 - _ + s.len2) = _ ∨ s.pread + _ + (s.len1 - _ + s.len2) = _
      omega
    · intro hne
      have hw := h.wraps hne
      show s.len2 = _ ∧ (s.pread + _ + (s.len1 - _) = _ ∨ s.pread + _ = 0 ∧ s.len1 - _ = 0)
      omega
    · show s.pread + _ + (s.len1 - _) = _
      omega
  · next h0 =>
    rw [ne_eq, not_not] at h0
    rw [h0, Nat.zero_mul, Nat.zero_add] at hdiv
    exact ⟨s, 0, rfl, h, hdiv.symm, rfl, rfl, h0.symm⟩

/-- The end of the pass: `c` packets of `u` are passed on, and the rest is still in the ring. -/
structure Scan.Done (rb : DvbRingbuffer) (u : List UInt8) (s : Scan) (c : Nat) : Prop where
  packets : s.packets = packetsOf c u
  le : c * packetLen ≤ u.length
  rest : u.length - c * packetLen ≤ packetLen
  inside : s.pread ≤ rb.size
  unread : content rb.data 0 rb.size s.pread (u.length - c * packetLen) = u.drop (c * packetLen)
  stop : s.pread + (u.length - c * packetLen) = rb.pwrite ∨
    s.pread + (u.length - c * packetLen) = rb.pwrite + rb.size

/-- A rest of at most one packet ends the pass. -/
theorem Scan.At.done (h : s.At rb u c) (hrest : s.len1 + s.len2 ≤ packetLen) : s.Done rb u c := by
  have hleft := h.left
  have hlen : u.length - c * packetLen = s.len1 + s.len2 := by omega
  exact ⟨h.packets, by omega, by omega, by have hin := h.inside; omega, hlen ▸ h.unread,
    hlen ▸ h.stop⟩

/-- The last part, when all that is left lies in one piece from the read position on. -/
theorem behindEnd_spec (hp : s.packets = packetsOf c u) (hleft : c * packetLen + s.len2 = u.length)
    (hu : content rb.data 0 rb.size s.pread s.len2 = u.drop (c * packetLen))
    (hstop : s.pread + s.len2 = rb.pwrite) (hw : rb.pwrite < rb.size) :
    ∃ s', behindEnd rb s = some s' ∧ s'.Done rb u (c + s.len2 / packetLen) := by
  have hdiv : s.len2 / packetLen * packetLen + s.len2 % packetLen = s.len2 := Nat.div_add_mod' ..
  have hmod : s.len2 % packetLen < packetLen := Nat.mod_lt _ (by decide)
  have hadd := Nat.add_mul c (s.len2 / packetLen) packetLen
  have hlen : u.length - (c + s.len2 / packetLen) * packetLen =
      s.len2 - s.len2 / packetLen * packetLen := by omega
  simp only [behindEnd]
  split
  · rw [DvbRingbuffer.read_eq (by omega), Option.map_some]
    refine ⟨_, rfl, ⟨?_, by omega, by omega, ?_, ?_, ?_⟩⟩
    · rw [hp]
      exact (packets_of_content (by omega) hu).symm
    · show s.pread + _ ≤ _
      omega
    · rw [hlen]
      exact content_rest (by omega) hu
    · rw [hlen]
      show s.pread + _ + (s.len2 - _) = _ ∨ _
      omega
  · next h0 =>
    have hcount : s.len2 / packetLen = 0 := by
      by_contra hne
      refine h0 ⟨fun hz => hne ?_, hne⟩
      rw [hz]
      rfl
    rw [hcount, Nat.zero_mul] at hdiv
    rw [hcount, Nat.zero_mul, Nat.add_zero] at hlen
    rw [hcount, Nat.add_zero]
    exact ⟨s, rfl, ⟨hp, by omega, by omega, by omega, by rw [hlen]; exact hu, by omega⟩⟩

/-- The packet across the end, and the ones behind it. -/
theorem Scan.At.across (h : s.At rb u c) (hw : rb.pwrite < rb.size) (hlt : s.len1 < packetLen)
    (hne : s.len1 ≠ 0) : ∃ s' c', c ≤ c' ∧
      (acrossEnd rb s).bind (behindEnd rb) = some s' ∧ s'.Done rb u c' := by
  have hleft := h.left
  simp only [acrossEnd]
  split
  · next hacross =>
    obtain ⟨h2, -, hmore⟩ := hacross
    obtain ⟨hpw, hend⟩ := h.wraps h2
    have hend : s.pread + s.len1 = rb.size := hend.resolve_right fun h0 => hne h0.2
    have hpl : 1 * packetLen = packetLen := Nat.one_mul _
    have hadd := Nat.add_mul c 1 packetLen
    -- the packet in two pieces
    have hjoin : content rb.data 0 rb.size s.pread (1 * packetLen) =
        content rb.data 0 rb.size s.pread s.len1 ++
          content rb.data 0 rb.size 0 (packetLen - s.len1) := by
      have hsum : s.len1 + (packetLen - s.len1) = packetLen := by omega
      have hadd := content_add rb.data 0 rb.size s.pread s.len1 (packetLen - s.len1)
      rw [hsum, hend, ← content_mod rb.data 0 rb.size rb.size, Nat.mod_self] at hadd
      rw [hpl, hadd]
    have hbehind : content rb.data 0 rb.size (packetLen - s.len1) (s.len2 - (packetLen - s.len1)) =
        u.drop ((c + 1) * packetLen) := by
      have hrest := content_rest (show 1 * packetLen ≤ s.len1 + s.len2 by omega) h.unread
      rw [← content_mod rb.data 0 rb.size (s.pread + 1 * packetLen),
        show s.pread + 1 * packetLen = packetLen - s.len1 + rb.size by omega, Nat.add_mod_right,
        content_mod, show s.len1 + s.len2 - 1 * packetLen = s.len2 - (packetLen - s.len1) by omega]
        at hrest
      exact hrest
    rw [DvbRingbuffer.read_eq h.inside, Option.bind_some,
      DvbRingbuffer.read_eq (show 0 + (packetLen - s.len1) ≤ rb.size by omega), Option.map_some,
      Option.bind_some]
    let s₂ : Scan := { s with
      packets := s.packets ++ packetsOf 1 (content rb.data 0 rb.size s.pread s.len1 ++
        content rb.data 0 rb.size 0 (packetLen - s.len1))
      pread := packetLen - s.len1
      len2 := s.len2 - (packetLen - s.len1) }
    have hp : s₂.packets = packetsOf (c + 1) u := by
      show s.packets ++ _ = _
      rw [← hjoin, h.packets]
      exact (packets_of_content (by omega) h.unread).symm
    have hl : (c + 1) * packetLen + s₂.len2 = u.length := by
      show _ + (s.len2 - _) = _
      omega
    have hst : s₂.pread + s₂.len2 = rb.pwrite := by
      show packetLen - s.len1 + (s.len2 - _) = _
      omega
    obtain ⟨s', hs', hdone⟩ := behindEnd_spec hp hl hbehind hst hw
    exact ⟨s', _, (Nat.le_add_right c 1).trans (Nat.le_add_right ..), hs', hdone⟩
  · next hsmall =>
    have hle : s.len2 = 0 ∨ s.len1 + s.len2 ≤ packetLen := by
      by_contra hno
      rw [not_or] at hno
      exact hsmall ⟨hno.1, hne, by omega⟩
    have hcount : s.len2 / packetLen = 0 := Nat.div_eq_of_lt (by omega)
    refine ⟨s, c, Nat.le_refl c, ?_, h.done (by omega)⟩
    rw [Option.bind_some]
    simp only [behindEnd, hcount, ne_eq, not_true_eq_false, and_false, if_false]

/-- With nothing left before the end of the ring, the packets behind it are read at its start. -/
theorem Scan.At.atEnd (h : s.At rb u c) (hw : rb.pwrite < rb.size) (h1 : s.len1 = 0)
    (hstart : packetLen ≤ s.len2 → s.pread = 0) : ∃ s' c', c ≤ c' ∧
      (acrossEnd rb s).bind (behindEnd rb) = some s' ∧ s'.Done rb u c' ∧
      (s.len2 < packetLen ∨ c < c') := by
  have hleft := h.left
  have hu := h.unread
  rw [h1, Nat.zero_add] at hleft hu
  simp only [acrossEnd, h1, ne_eq, not_true_eq_false, false_and, and_false, if_false,
    Option.bind_some]
  by_cases hfew : s.len2 < packetLen
  · refine ⟨s, c, Nat.le_refl c, ?_, h.done (by omega), Or.inl hfew⟩
    simp only [behindEnd, Nat.div_eq_of_lt hfew, ne_eq, not_true_eq_false, and_false, if_false]
  · have h0 := hstart (by omega)
    have hpos : packetLen ≠ 0 := by decide
    have hpw := (h.wraps (by omega)).1
    obtain ⟨s', hs', hdone⟩ := behindEnd_spec h.packets hleft hu (by omega) hw
    have hcount : 0 < s.len2 / packetLen := Nat.div_pos (by omega) (by decide)
    exact ⟨s', _, Nat.le_add_right .., hs', hdone, Or.inr (by omega)⟩

/-- Packets that fill the ring up to its end make the last part read outside of it. -/
theorem read_outside (h1 : s.len1 = 0) (hmany : packetLen ≤ s.len2) (hend : s.pread = rb.size) :
    (acrossEnd rb s).bind (behindEnd rb) = none := by
  have hcount : 0 < s.len2 / packetLen := Nat.div_pos hmany (by decide)
  have hbytes : 0 < s.len2 / packetLen * packetLen := Nat.mul_pos hcount (by decide)
  have hnone : rb.read s.pread (s.len2 / packetLen * packetLen) = none := if_neg (by omega)
  have hlen : packetLen ≠ 0 := by decide
  simp only [acrossEnd, h1, ne_eq, not_true_eq_false, false_and, and_false, if_false,
    Option.bind_some, behindEnd]
  rw [if_pos ⟨by omega, by omega⟩, hnone, Option.map_none]

end Scan

end MediaModules.HwDemux
