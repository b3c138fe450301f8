import MediaModules.StreamBuffer.RingBuffer
import Mathlib.Tactic.Linarith

/-!
# The stream ring buffer is a queue

A write appends what it accepts and a moved read position drops what it passes. Two kinds of writes
have to be left out: one that fills the empty ring from its start to its end, and a virtual source
longer than a mapping window.
-/
namespace MediaModules.StreamBuffer

open MediaModules.Lib.Run
open MediaModules.Lib.Ring
open MediaModules.Lib.Words

section Copy
variable {range : Nat} {wp : Int} {size : Nat} {src : Source} {windows : Nat → Window} {mem : Int → UInt8}

/-- The windows are those that start inside the copied range. -/
theorem lt_windowCount (hr : 0 < range) {j : Nat} : j < windowCount range size ↔ j * range < size := by
  rw [windowCount, Nat.lt_div_iff_mul_lt hr, Nat.add_sub_cancel]

/-- Where a window starts and how long it is. -/
theorem window_span {j : Nat} (hsize : size < 2147483648) (hj : j * range < size) :
    s32 (j * range : Nat) = (j * range : Nat) ∧
      (if u32 (size - s32 (j * range : Nat)) > range then (range : Int)
        else s32 (u32 (size - s32 (j * range : Nat)))) =
        (min range (size - j * range) : Nat) := by
  have hi : s32 (j * range : Nat) = (j * range : Nat) := s32_of_range (by omega) (by omega)
  refine ⟨hi, ?_⟩
  rw [hi, u32_of_range (by omega) (by omega)]
  split
  · omega
  · rw [s32_of_range (by omega) (by omega)]
    omega

theorem window_length (src : Source) (i : Int) (len : Nat) : (src.window i len).length ≤ len := by
  simp only [Source.window, List.length_take, Int.toNat_natCast]
  omega

/-- A copy changes the memory between its two ends only. -/
theorem copyWindows_outside (src : Source) (windows : Nat → Window) (mem : Int → UInt8)
    (hsize : size < 2147483648) {js : List Nat}
    (hjs : ∀ j ∈ js, j * range < size) {i : Int} (hi : i < wp ∨ wp + size ≤ i) :
    (copyWindows range wp src size windows js mem).2 i = mem i := by
  induction js generalizing mem with
  | nil => rfl
  | cons j js ih =>
    have hj := hjs j List.mem_cons_self
    obtain ⟨hstart, hlen⟩ := window_span hsize hj
    have hput : ∀ xs : List UInt8, xs.length ≤ min range (size - j * range) →
        put mem (wp + (j * range : Nat)) xs i = mem i := fun xs hxs =>
      hi.elim (fun h => put_of_lt mem _ xs (by omega)) fun h => put_of_ge mem _ xs (by omega)
    have hwin := window_length src (j * range : Nat) (min range (size - j * range))
    simp only [copyWindows, hlen]
    rw [hstart]
    cases windows j with
    | unmapped => rfl
    | short n =>
      apply hput _
      rw [List.length_take]
      omega
    | copied =>
      simp only
      rw [ih _ fun j' h => hjs j' (List.mem_cons_of_mem _ h)]
      exact hput _ hwin

/-- The bytes of a window are those of the source, also when the source repeats its first window. -/
theorem window_eq (j len : Nat) (hper : src.isPhybuf = false → src.Periodic range size)
    (hlen : len ≤ range) (hend : j * range + len ≤ size) :
    src.window (j * range : Nat) len = (src.bytes.drop (j * range)).take len := by
  simp only [Source.window, Int.toNat_natCast]
  cases hphy : src.isPhybuf with
  | true => rfl
  | false =>
    apply List.ext_getElem?
    intro k
    simp only [List.getElem?_take, List.getElem?_drop, Bool.false_eq_true, if_false]
    by_cases hk : k < len
    · have hmod : (j * range + k) % range = k := Nat.mul_add_mod_of_lt (by omega)
      rw [if_pos hk, if_pos hk, hper hphy (j * range + k) (by omega), hmod]
    · rw [if_neg hk, if_neg hk]

theorem copyWindows_done (hsize : size < 2147483648) (hbytes : size ≤ src.bytes.length)
    (hper : src.isPhybuf = false → src.Periodic range size) {j m : Nat}
    (hr : 0 < range) (hm : j + m = windowCount range size)
    (hdone : (copyWindows range wp src size windows (List.range' j m) mem).1 = 0) :
    (copyWindows range wp src size windows (List.range' j m) mem).2 =
      put mem (wp + (j * range : Nat)) ((src.bytes.take size).drop (j * range)) := by
  induction m generalizing j mem with
  | zero =>
    have hlast : ¬ j * range < size := by
      rw [← lt_windowCount hr]
      omega
    have hend : (src.bytes.take size).drop (j * range) = [] := by
      apply List.drop_eq_nil_of_le
      rw [List.length_take]
      omega
    rw [hend, put_nil]
    rfl
  | succ m ih =>
    have hj : j * range < size := by
      rw [← lt_windowCount hr]
      omega
    obtain ⟨hstart, hlen⟩ := window_span hsize hj
    simp only [List.range'_succ, copyWindows, hlen] at hdone ⊢
    rw [hstart] at hdone ⊢
    have hwin := window_eq j (min range (size - j * range)) hper (by omega) (by omega)
    cases hw : windows j with
    | unmapped => simp only [hw] at hdone; exact absurd hdone (by decide)
    | short n => simp only [hw] at hdone; exact absurd hdone (by decide)
    | copied =>
      simp only [hw] at hdone ⊢
      rw [ih (by omega) hdone, hwin]
      have hfirst : (src.bytes.drop (j * range)).take (min range (size - j * range)) =
          ((src.bytes.take size).drop (j * range)).take range := by
        rw [List.drop_take, List.take_take]
      have hrest : (src.bytes.take size).drop ((j + 1) * range) =
          ((src.bytes.take size).drop (j * range)).drop range := by
        rw [List.drop_drop, Nat.succ_mul]
      rw [hfirst, hrest]
      generalize hrem : (src.bytes.take size).drop (j * range) = rem
      have hremlen : rem.length = size - j * range := by
        rw [← hrem, List.length_drop, List.length_take]
        omega
      by_cases hlast : rem.length ≤ range
      · rw [List.drop_eq_nil_of_le hlast, put_nil, List.take_of_length_le hlast]
      · have hfull : (rem.take range).length = range := by
          rw [List.length_take]
          omega
        have haddr : wp + (((j + 1) * range : Nat) : Int) =
            wp + (j * range : Nat) + (rem.take range).length := by
          rw [hfull, Nat.succ_mul]
          push_cast
          omega
        rw [haddr, put_append, List.take_append_drop]

theorem copyWindows_zero {js : List Nat} :
    (copyWindows range wp src size windows js mem).1 = 0 ↔ ∀ j ∈ js, windows j = .copied := by
  induction js generalizing mem with
  | nil => exact ⟨fun _ => by simp, fun _ => rfl⟩
  | cons j js ih =>
    simp only [copyWindows, List.mem_cons, forall_eq_or_imp]
    cases windows j with
    | unmapped => simp [EFAULT]
    | short n => simp [EAGAIN]
    | copied => simp only [ih, true_and]

theorem copyWindows_nonpos {js : List Nat} : (copyWindows range wp src size windows js mem).1 ≤ 0 := by
  induction js generalizing mem with
  | nil => exact le_refl 0
  | cons j js ih =>
    simp only [copyWindows]
    cases windows j with
    | unmapped => simp [EFAULT]
    | short n => simp [EAGAIN]
    | copied => exact ih

theorem copyAll_done (hsize : size < 2147483648) (hbytes : size ≤ src.bytes.length)
    (hper : src.isPhybuf = false → src.Periodic range size) (hr : 0 < range)
    (hdone : (copyWindows range wp src size windows (List.range (windowCount range size)) mem).1 =
      0) :
    (copyWindows range wp src size windows (List.range (windowCount range size)) mem).2 =
      put mem wp (src.bytes.take size) := by
  have hcount : 0 + windowCount range size = windowCount range size := Nat.zero_add _
  rw [List.range_eq_range'] at hdone ⊢
  rw [copyWindows_done hsize hbytes hper hr hcount hdone, Nat.zero_mul, Nat.cast_zero, add_zero,
    List.drop_zero]

end Copy

section Whole
variable {s : StreamBuf} {src : Source} {windows : Nat → Window} {n : Nat}

theorem mem_windows {j : Nat} :
    j ∈ List.range (windowCount MAP_RANGE n) ↔ j * MAP_RANGE < n := by
  rw [List.mem_range]
  exact lt_windowCount (by decide)

theorem streamBufferCopy_eq : streamBufferCopy s src n windows =
    copyWindows MAP_RANGE s.bufWp src n windows (List.range (windowCount MAP_RANGE n)) s.mem := by
  rw [streamBufferCopy, Int.toNat_natCast]

/-- What a copy of `n` bytes leaves: a result that tells whether every window went through, and a
memory that differs only where the bytes were to go. -/
structure Copied (s : StreamBuf) (src : Source) (windows : Nat → Window) (n : Nat)
    (r : Int × (Int → UInt8)) : Prop where
  nonpos : r.1 ≤ 0
  zero_iff : r.1 = 0 ↔ Uninterrupted windows MAP_RANGE n
  outside : ∀ i : Int, i < s.bufWp ∨ s.bufWp + n ≤ i → r.2 i = s.mem i
  done : n ≤ src.bytes.length → (src.isPhybuf = false → src.Periodic MAP_RANGE n) → r.1 = 0 →
    r.2 = put s.mem s.bufWp (src.bytes.take n)

theorem streamBufferCopy_copied (s : StreamBuf) (src : Source) (windows : Nat → Window)
    (hn : n < 2147483648) : ∃ r, streamBufferCopy s src n windows = r ∧
      Copied s src windows n r := by
  have hr : 0 < MAP_RANGE := by decide
  refine ⟨_, streamBufferCopy_eq, ?_⟩
  constructor
  case nonpos => exact copyWindows_nonpos
  case zero_iff => simp only [copyWindows_zero, mem_windows, Uninterrupted, Nat.cast_lt]
  case outside =>
    intro i hi
    exact copyWindows_outside src windows s.mem hn (fun j hj => mem_windows.mp hj) hi
  case done =>
    intro hbytes hper
    exact copyAll_done hn hbytes hper hr

end Whole

/-- An internal buffer in the 52-bit physical address space. -/
structure Placed (s : StreamBuf) : Prop where
  start : 0 < s.bufStart
  size : 0 < s.bufSize
  word : s.bufSize < 4294967296
  top : s.bufStart + s.bufSize ≤ 4503599627370496
  internal : s.extBufAddr = 0

/-- The setters measure a move of less than the whole ring. -/
theorem distance_eq {s : StreamBuf} (hp : Placed s) {pos val : Int} {n : Nat}
    (hpos : s.bufStart ≤ pos ∧ pos < s.bufStart + s.bufSize)
    (hval : s.bufStart ≤ val ∧ val < s.bufStart + s.bufSize) (hn : n < 2147483648)
    (hmove : val - pos = n ∨ val - pos = n - s.bufSize) (hless : (n : Int) < s.bufSize) :
    s.distance pos val = n := by
  have htop := hp.top
  have hstart := hp.start
  have hword := hp.word
  simp only [StreamBuf.distance]
  split
  · rw [s32_of_range (by omega) (by omega)]
    omega
  · rw [u64_of_range (by omega) (by omega), s32_of_range (by omega) (by omega)]
    omega

section Queue
variable {s : Stream} (h : Represents s) (hp : Placed s.buf)
include h hp

/-- The two positions are as far apart as the queue is long, perhaps once round the ring. -/
theorem Represents.gap : s.buf.bufWp - s.buf.bufRp = s.unread.length ∨
    s.buf.bufWp - s.buf.bufRp = s.unread.length - s.buf.bufSize := by
  obtain ⟨k, hk⟩ := Int.dvd_of_emod_eq_zero h.apart
  have hroom := h.room
  have hwp := h.wpInside
  have hrp := h.rpInside
  have hsize := hp.size
  rw [h.payload] at hk
  have hlow : -2 < k := by nlinarith
  have hhigh : k < 1 := by nlinarith
  obtain rfl | rfl : k = 0 ∨ k = -1 := by omega
  · left
    omega
  · right
    omega

theorem freeSpace_eq : u32 (getFreeSpace s.buf) = s.buf.bufSize - s.unread.length := by
  have hroom := h.room
  have hword := hp.word
  have hsize := hp.size
  have hwp := h.wpInside
  have hrp := h.rpInside
  have hgap := h.gap hp
  simp only [getFreeSpace, h.payload]
  split
  · rw [u32_s32, u32_of_range (by omega) (by omega)]
    omega
  · split
    · rw [u32_s32, u64_of_range (by omega) (by omega), u32_of_range (by omega) (by omega)]
      omega
    · split
      · rw [u32_s32, u32_of_range (by omega) (by omega)]
        omega
      · rw [u32_of_range (by omega) (by omega)]
        omega

/-- Where the next byte goes: right behind the queue. -/
theorem write_offset : s.buf.bufStart + ((((s.buf.bufRp - s.buf.bufStart).toNat + s.unread.length) %
    s.buf.bufSize.toNat : Nat) : Int) = s.buf.bufWp := by
  have hroom := h.room
  have hsize := hp.size
  have hwp := h.wpInside
  have hrp := h.rpInside
  rcases h.gap hp with hgap | hgap
  · rw [Nat.mod_eq_of_lt (by omega)]
    omega
  · rw [Nat.mod_eq_sub_mod (by omega), Nat.mod_eq_of_lt (by omega)]
    omega

/-- A change of the free space leaves the queue. -/
theorem represents_withMem {mem : Int → UInt8} {n : Nat}
    (hroom : s.unread.length + n ≤ s.buf.bufSize.toNat)
    (hsame : ∀ i : Int, i < s.buf.bufWp ∨ s.buf.bufWp + n ≤ i → mem i = s.buf.mem i) :
    Represents ⟨s.buf.withMem mem, s.unread⟩ := by
  have hrp := h.rpInside
  refine ⟨h.payload, h.room, h.wpInside, h.rpInside, h.apart, ?_⟩
  rw [← write_offset h hp] at hsame
  exact (content_of_same_outside s.buf.mem _ _ _ _ (by omega) hroom hsame).trans h.bytes

omit hp in
theorem chunk_bounds (src : Source) : 0 ≤ s.buf.chunk src ∧ s.buf.chunk src ≤ src.bytes.length ∧
    s.buf.chunk src ≤ s.buf.bufStart + s.buf.bufSize - s.buf.bufWp := by
  have hwp := h.wpInside
  simp only [StreamBuf.chunk]
  omega

variable {src : Source} {windows : Nat → Window}
  (hfit : (src.bytes.length : Int) ≤ s.buf.bufSize - s.unread.length)
include hfit

/-- What `rb_push_data` does with a source that fits. -/
theorem rbPushData_eq (hsmall : s.buf.chunk src < 2147483648) :
    rbPushData s.buf src src.bytes.length windows =
      (if (streamBufferCopy s.buf src (s.buf.chunk src) windows).1 ≠ 0 then
        ((streamBufferCopy s.buf src (s.buf.chunk src) windows).1,
          s.buf.withMem (streamBufferCopy s.buf src (s.buf.chunk src) windows).2)
      else (s.buf.chunk src, streamBufferSetWp
        (s.buf.withMem (streamBufferCopy s.buf src (s.buf.chunk src) windows).2)
        (if s.buf.bufWp + s.buf.chunk src ≥ s.buf.bufStart + s.buf.bufSize then s.buf.bufStart
          else s.buf.bufWp + s.buf.chunk src))) := by
  obtain ⟨hlow, hlen, hend⟩ := chunk_bounds h src
  have hwp := h.wpInside
  have htop := hp.top
  have hstart := hp.start
  have hsize := hp.size
  have hchunk : s.buf.chunk src =
      min (src.bytes.length : Int) (s.buf.bufStart + s.buf.bufSize - s.buf.bufWp) := rfl
  have hword := hp.word
  have hsp : u64 (s.buf.bufWp + src.bytes.length) = s.buf.bufWp + src.bytes.length :=
    u64_of_range (by omega) (by omega)
  have hep : u64 (s.buf.bufStart + s.buf.bufSize) = s.buf.bufStart + s.buf.bufSize :=
    u64_of_range (by omega) (by omega)
  have hrest : u64 (s.buf.bufStart + s.buf.bufSize - s.buf.bufWp) =
      s.buf.bufStart + s.buf.bufSize - s.buf.bufWp := u64_of_range (by omega) (by omega)
  have hpiece : (if s.buf.bufWp + src.bytes.length > s.buf.bufStart + s.buf.bufSize then
      s.buf.bufStart + s.buf.bufSize - s.buf.bufWp else (src.bytes.length : Int)) =
      s.buf.chunk src := by
    split <;> omega
  have hnext : u64 (s.buf.bufWp + s.buf.chunk src) = s.buf.bufWp + s.buf.chunk src :=
    u64_of_range (by omega) (by omega)
  simp only [rbPushData, hsp, hep, hrest, hpiece, s32_of_range (show -2147483648 ≤ s.buf.chunk src by
    omega) hsmall, u32_of_range hlow (show s.buf.chunk src < 4294967296 by omega), hnext,
    if_pos hp.internal]

/-- A write appends what it accepts. -/
theorem rbPushData_represents (hok : s.buf.chunk src < 2147483648 ∧
      (Uninterrupted windows MAP_RANGE (s.buf.chunk src) →
        s.buf.payload + s.buf.chunk src < 2147483648 ∧ s.buf.chunk src < s.buf.bufSize ∧
        (src.isPhybuf = false → src.Periodic MAP_RANGE (s.buf.chunk src)))) :
    Represents ⟨(rbPushData s.buf src src.bytes.length windows).2, s.unread ++
      src.bytes.take (rbPushData s.buf src src.bytes.length windows).1.toNat⟩ := by
  obtain ⟨hlow, hlen, hend⟩ := chunk_bounds h src
  obtain ⟨hsmall, hok⟩ := hok
  rw [rbPushData_eq h hp hfit hsmall]
  obtain ⟨n, hn⟩ : ∃ n : Nat, s.buf.chunk src = n := ⟨_, (Int.toNat_of_nonneg hlow).symm⟩
  have hsplit : n < s.buf.bufStart + s.buf.bufSize - s.buf.bufWp →
      (n : Int) = src.bytes.length := by
    have hchunk : s.buf.chunk src =
      min (src.bytes.length : Int) (s.buf.bufStart + s.buf.bufSize - s.buf.bufWp) := rfl
    omega
  rw [hn] at hok hsmall hlow hlen hend ⊢
  obtain ⟨r, hr, hcopied⟩ := streamBufferCopy_copied s.buf src windows (n := n) (by omega)
  rw [hr]
  have hroom : s.unread.length + n ≤ s.buf.bufSize.toNat := by omega
  have hrp := h.rpInside
  have hwp := h.wpInside
  have hgap := h.gap hp
  have hword := hp.word
  have htop := hp.top
  have hstart := hp.start
  by_cases hdone : r.1 = 0
  case neg =>
    rw [if_pos hdone, Int.toNat_of_nonpos hcopied.nonpos, List.take_zero, List.append_nil]
    exact represents_withMem h hp hroom hcopied.outside
  case pos =>
    obtain ⟨hcount, hless, hper⟩ := hok (hcopied.zero_iff.mp hdone)
    rw [if_neg (not_not_intro hdone), hcopied.done (by omega) hper hdone]
    have htake : (src.bytes.take n).length = n := by
      rw [List.length_take]
      omega
    have hpay := h.payload
    have hbytes : content (put s.buf.mem s.buf.bufWp (src.bytes.take n)) s.buf.bufStart
        s.buf.bufSize.toNat (s.buf.bufRp - s.buf.bufStart).toNat (s.unread.length + n) =
        s.unread ++ src.bytes.take n := by
      have hput := content_put s.buf.mem s.buf.bufStart s.buf.bufSize.toNat
        (s.buf.bufRp - s.buf.bufStart).toNat s.unread.length (src.bytes.take n) (by omega)
        (by omega) (by have := write_offset h hp; omega)
      rw [write_offset h hp, h.bytes, htake] at hput
      exact hput
    have hval : ∃ val, (if s.buf.bufWp + n ≥ s.buf.bufStart + s.buf.bufSize then s.buf.bufStart
        else s.buf.bufWp + n) = val ∧ s.buf.bufStart ≤ val ∧
        val < s.buf.bufStart + s.buf.bufSize ∧
        (val - s.buf.bufWp = n ∨ val - s.buf.bufWp = n - s.buf.bufSize) := by
      refine ⟨_, rfl, ?_⟩
      split <;> omega
    obtain ⟨val, hval, hval1, hval2, hmove⟩ := hval
    have hdist : s.buf.distance s.buf.bufWp val = n :=
      distance_eq hp hwp ⟨hval1, hval2⟩ (by omega) hmove hless
    have hlength : (s.unread ++ src.bytes.take n).length = s.unread.length + n := by
      rw [List.length_append, htake]
    have hpayload : s32 (s.buf.payload + n) = (s.unread.length + n : Nat) := by
      rw [s32_of_range (by omega) (by omega)]
      omega
    rw [hval, Int.toNat_natCast]
    refine ⟨?_, ?_, ⟨hval1, hval2⟩, hrp, ?_, ?_⟩
    · show s32 (s.buf.payload + s.buf.distance s.buf.bufWp val) = _
      rw [hdist, hpayload, hlength]
    · show ((s.unread ++ src.bytes.take n).length : Int) ≤ s.buf.bufSize
      omega
    · show (val - s.buf.bufRp - s32 (s.buf.payload + s.buf.distance s.buf.bufWp val)) %
        s.buf.bufSize = 0
      rw [hdist, hpayload]
      have hstep : s.buf.bufSize ∣ val - s.buf.bufWp - n :=
        hmove.elim (fun e => ⟨0, by omega⟩) fun e => ⟨-1, by omega⟩
      have hsum := Int.dvd_add (Int.dvd_of_emod_eq_zero h.apart) hstep
      rw [show val - s.buf.bufRp - (s.unread.length + n : Nat) =
        s.buf.bufWp - s.buf.bufRp - s.buf.payload + (val - s.buf.bufWp - n) by omega]
      exact Int.emod_eq_zero_of_dvd hsum
    · show content (put s.buf.mem s.buf.bufWp (src.bytes.take n)) s.buf.bufStart
        s.buf.bufSize.toNat (s.buf.bufRp - s.buf.bufStart).toNat
        (s.unread ++ src.bytes.take n).length = _
      rw [hlength, hbytes]

omit hfit in
/-- A moved read position drops what it passes. -/
theorem setRp_represents {val : Int} (hval : s.buf.bufStart ≤ val ∧
    val < s.buf.bufStart + s.buf.bufSize) (hmove : s.buf.advance val ≤ s.unread.length)
    (hcount : s.unread.length < 2147483648) :
    Represents ⟨streamBufferSetRp s.buf val, s.unread.drop (s.buf.advance val)⟩ := by
  have hroom := h.room
  have hrp := h.rpInside
  have hsize := hp.size
  have hword := hp.word
  have hpay := h.payload
  have hadv : (s.buf.advance val : Int) = (val - s.buf.bufRp) % s.buf.bufSize :=
    Int.toNat_of_nonneg (Int.emod_nonneg _ (by omega))
  have hless : (s.buf.advance val : Int) < s.buf.bufSize := by
    rw [hadv]
    exact Int.emod_lt_of_pos _ hsize
  generalize s.buf.advance val = d at hmove hadv hless ⊢
  have hround : val - s.buf.bufRp = d ∨ val - s.buf.bufRp = d - s.buf.bufSize := by
    by_cases hge : val ≥ s.buf.bufRp
    · rw [Int.emod_eq_of_lt (by omega) (by omega)] at hadv
      omega
    · rw [← Int.add_emod_right, Int.emod_eq_of_lt (by omega) (by omega)] at hadv
      omega
  have hdist : s.buf.distance s.buf.bufRp val = d :=
    distance_eq hp hrp hval (by omega) hround hless
  have hpayload : s32 (s.buf.payload - d) = (s.unread.length - d : Nat) := by
    rw [s32_of_range (by omega) (by omega)]
    omega
  have hlength : (s.unread.drop d).length = s.unread.length - d := List.length_drop
  refine ⟨?_, ?_, h.wpInside, hval, ?_, ?_⟩
  · show s32 (s.buf.payload - s.buf.distance s.buf.bufRp val) = _
    rw [hdist, hpayload, hlength]
  · show ((s.unread.drop d).length : Int) ≤ s.buf.bufSize
    omega
  · show (s.buf.bufWp - val - s32 (s.buf.payload - s.buf.distance s.buf.bufRp val)) %
      s.buf.bufSize = 0
    rw [hdist, hpayload]
    have hstep : s.buf.bufSize ∣ d - (val - s.buf.bufRp) :=
      hround.elim (fun e => ⟨0, by omega⟩) fun e => ⟨1, by omega⟩
    have hsum := Int.dvd_add (Int.dvd_of_emod_eq_zero h.apart) hstep
    rw [show s.buf.bufWp - val - (s.unread.length - d : Nat) =
      s.buf.bufWp - s.buf.bufRp - s.buf.payload + (d - (val - s.buf.bufRp)) by omega]
    exact Int.emod_eq_zero_of_dvd hsum
  · show content s.buf.mem s.buf.bufStart s.buf.bufSize.toNat (val - s.buf.bufStart).toNat
      (s.unread.drop d).length = s.unread.drop d
    have hpos : (val - s.buf.bufStart).toNat =
        ((s.buf.bufRp - s.buf.bufStart).toNat + d) % s.buf.bufSize.toNat := by
      rcases hround with e | e
      · rw [Nat.mod_eq_of_lt (by omega)]
        omega
      · rw [Nat.mod_eq_sub_mod (by omega), Nat.mod_eq_of_lt (by omega)]
        omega
    rw [hlength, hpos, content_mod, ← content_drop s.buf.mem s.buf.bufStart _ _ _ hmove, h.bytes]

end Queue

/-- What the allowed calls keep. -/
structure Kept (s : Stream) : Prop where
  represents : Represents s
  placed : Placed s.buf
  counted : s.unread.length < 2147483648

/-- A write leaves the ring where it is. -/
theorem rbPushData_placed {s : Stream} {src : Source} {windows : Nat → Window} (h : Represents s)
    (hp : Placed s.buf) (hfit : (src.bytes.length : Int) ≤ s.buf.bufSize - s.unread.length)
    (hsmall : s.buf.chunk src < 2147483648) :
    Placed (rbPushData s.buf src src.bytes.length windows).2 := by
  rw [rbPushData_eq h hp hfit hsmall]
  obtain ⟨r, hr⟩ : ∃ r, streamBufferCopy s.buf src (s.buf.chunk src) windows = r := ⟨_, rfl⟩
  rw [hr]
  split <;> exact ⟨hp.start, hp.size, hp.word, hp.top, hp.internal⟩

/-- A write that is let in leaves less than 2^31 bytes when `CallOk` says so. -/
theorem rbPushData_counted {s : Stream} {src : Source} {windows : Nat → Window}
    (h : Represents s) (hp : Placed s.buf) (hcount : s.unread.length < 2147483648)
    (hfit : (src.bytes.length : Int) ≤ s.buf.bufSize - s.unread.length)
    (hsmall : s.buf.chunk src < 2147483648)
    (hok : Uninterrupted windows MAP_RANGE (s.buf.chunk src) → s.buf.payload + s.buf.chunk src < 2147483648) :
    (s.unread ++ src.bytes.take (rbPushData s.buf src src.bytes.length windows).1.toNat).length <
      2147483648 := by
  have hpay := h.payload
  have hlen := (chunk_bounds h src).2.1
  obtain ⟨n, hn⟩ : ∃ n : Nat, s.buf.chunk src = n :=
    ⟨_, (Int.toNat_of_nonneg (chunk_bounds h src).1).symm⟩
  rw [hn] at hsmall
  obtain ⟨r, hr, hcopied⟩ := streamBufferCopy_copied s.buf src windows (n := n) (by omega)
  rw [rbPushData_eq h hp hfit (hn ▸ hsmall), hn, hr, List.length_append, List.length_take]
  rw [hn] at hok
  by_cases hdone : r.1 = 0
  · have := hok (hcopied.zero_iff.mp hdone)
    rw [if_neg (not_not_intro hdone), Int.toNat_natCast]
    omega
  · rw [if_pos hdone, Int.toNat_of_nonpos hcopied.nonpos]
    omega

theorem Kept.step {s t : Stream} {c : Call} (h : Kept s) (hd : InDomain s c) (hok : CallOk s c)
    (ht : step s c = some t) : Kept t := by
  cases c with
  | setRp val =>
    obtain rfl := Option.some.inj ht
    obtain ⟨hlow, hhigh, hmove⟩ := hd
    have hlength := List.length_drop (i := s.buf.advance val) (l := s.unread)
    exact ⟨setRp_represents h.represents h.placed ⟨hlow, hhigh⟩ hmove h.counted,
      ⟨h.placed.start, h.placed.size, h.placed.word, h.placed.top, h.placed.internal⟩,
      by have := h.counted; show (s.unread.drop _).length < _; omega⟩
  | write input windows =>
    obtain rfl := Option.some.inj ht
    have hstay : ∀ ret : Int, ret ≤ 0 →
        Kept ⟨s.buf, s.unread ++ (input.elim [] Source.bytes).take ret.toNat⟩ := fun ret hret => by
      rw [Int.toNat_of_nonpos hret, List.take_zero, List.append_nil]
      exact h
    cases input with
    | none => exact hstay (-1) (by decide)
    | some src =>
      show Kept ⟨(streamBufferWriteInner s.buf (some src) windows).2, s.unread ++
        src.bytes.take (streamBufferWriteInner s.buf (some src) windows).1.toNat⟩
      simp only [streamBufferWriteInner]
      split
      · exact hstay (-1) (by decide)
      · split
        · exact hstay (-EAGAIN) (by decide)
        · rename_i hsize hfree
          have hfree' := Int.not_lt.mp hfree
          have hok' := hok src rfl ⟨Int.not_lt.mp hsize, hfree'⟩
          rw [freeSpace_eq h.represents h.placed] at hfree'
          exact ⟨rbPushData_represents h.represents h.placed hfree' hok',
            rbPushData_placed h.represents h.placed hfree' hok'.1,
            rbPushData_counted h.represents h.placed h.counted hfree' hok'.1
              fun hun => (hok'.2 hun).1⟩

/-- What the allocator gives `stream_buffer_init` for an internal buffer: a non-empty piece of the
52-bit physical address space. -/
structure Allocated (s₀ : StreamBuf) (addr : Int) : Prop where
  unused : s₀.bufStart = 0
  internal : s₀.extBufAddr = 0
  addr_pos : 0 < addr
  size_pos : 0 < pageAlign s₀.bufSize
  top : addr + pageAlign s₀.bufSize ≤ 4503599627370496

/-- A fresh buffer holds the empty queue. -/
theorem streamBufferInit_kept {s₀ : StreamBuf} {addr : Int} (ha : Allocated s₀ addr) :
    Kept ⟨(streamBufferInit s₀ addr 0).2, []⟩ := by
  have haddr : addr ≠ 0 := by have := ha.addr_pos; omega
  have hword : pageAlign s₀.bufSize < 4294967296 := by
    simp only [pageAlign, u32]
    omega
  have hsize := ha.size_pos
  simp only [streamBufferInit, ha.unused, ha.internal, haddr, ne_eq, not_true_eq_false, if_false]
  refine ⟨⟨rfl, ?_, ?_, ?_, ?_, rfl⟩, ⟨ha.addr_pos, hsize, hword, ha.top, rfl⟩, by simp⟩
  · exact Int.le_of_lt hsize
  · exact ⟨Int.le_refl addr, Int.lt_add_of_pos_right addr hsize⟩
  · exact ⟨Int.le_refl addr, Int.lt_add_of_pos_right addr hsize⟩
  · show (addr - addr - 0) % _ = 0
    rw [Int.sub_self, Int.sub_zero, Int.zero_emod]

/-- From a fresh buffer on, as long as all writes are allowed ones, the ring holds exactly the
accepted bytes that were not read yet. -/
theorem ring_represents {s₀ : StreamBuf} {addr : Int} (ha : Allocated s₀ addr) {calls : List Call}
    (hd : Guarded step InDomain ⟨(streamBufferInit s₀ addr 0).2, []⟩ calls)
    (hok : Guarded step CallOk ⟨(streamBufferInit s₀ addr 0).2, []⟩ calls) :
    Always step Represents ⟨(streamBufferInit s₀ addr 0).2, []⟩ calls :=
  (always_of_guarded (fun _ _ _ h hboth ht => h.step hboth.1 hboth.2 ht)
    (streamBufferInit_kept ha) (guarded_and.mpr ⟨hd, hok⟩)).imp fun _ h => h.represents

section Page

/-- A buffer of one page, before and after its initialisation. -/
def unusedPage : StreamBuf := { bufSize := 4096, mem := fun _ => 0 }

def freshPage : StreamBuf := ⟨65536, 4096, 65536, 65536, 0, 0, fun _ => 0⟩

theorem freshPage_eq : (streamBufferInit unusedPage 65536 0).2 = freshPage := rfl

theorem unusedPage_allocated : Allocated unusedPage 65536 :=
  ⟨rfl, rfl, by decide, by decide, by decide⟩

instance (s : Stream) : (call : Call) → Decidable (InDomain s call)
  | .write input _ => inferInstanceAs (Decidable (∀ src ∈ input, src.bytes.length < 4294967296))
  | .setRp val => inferInstanceAs (Decidable (s.buf.bufStart ≤ val ∧
      val < s.buf.bufStart + s.buf.bufSize ∧ s.buf.advance val ≤ s.unread.length))

/-- A short source is allowed where the ring has room for what is copied. -/
theorem callOk_short {s : Stream} {src : Source} {windows : Nat → Window}
    (hshort : src.bytes.length ≤ MAP_RANGE) (hroom : s.buf.payload + src.bytes.length < 2147483648)
    (hpart : s.buf.chunk src < s.buf.bufSize) : CallOk s (.write (some src) windows) := by
  rintro _ ⟨⟩ -
  have hchunk : s.buf.chunk src ≤ src.bytes.length := min_le_left ..
  have hrange : MAP_RANGE = 1048576 := rfl
  refine ⟨by omega, fun _ => ⟨by omega, hpart, fun _ k hk => ?_⟩⟩
  rw [Nat.mod_eq_of_lt (by omega)]

/-- 3000 bytes are written and most of them read, of the next 2000 those up to the end of the ring
are accepted, the others come back to its start, and the reader follows round the end. -/
def wrappingCalls : List Call :=
  [.write (some ⟨List.replicate 3000 7, false⟩) fun _ => .copied, .setRp 68000,
    .write (some ⟨List.replicate 2000 8, false⟩) fun _ => .copied,
    .write (some ⟨List.replicate 904 9, false⟩) fun _ => .copied, .setRp 66000]

/-- A run round the end of a page-sized ring that meets the conditions. -/
theorem ring_represents_wrapping :
    Always step Represents ⟨(streamBufferInit unusedPage 65536 0).2, []⟩ wrappingCalls := by
  refine ring_represents unusedPage_allocated ?_ ?_
  · rw [freshPage_eq]
    decide +kernel
  · rw [freshPage_eq]
    refine ⟨callOk_short (by decide +kernel) (by decide +kernel) (by decide +kernel), fun t ht => ?_⟩
    obtain rfl := Option.some.inj ht
    refine ⟨trivial, fun t ht => ?_⟩
    obtain rfl := Option.some.inj ht
    refine ⟨callOk_short (by decide +kernel) (by decide +kernel) (by decide +kernel), fun t ht => ?_⟩
    obtain rfl := Option.some.inj ht
    exact ⟨callOk_short (by decide +kernel) (by decide +kernel) (by decide +kernel),
      fun _ _ => ⟨trivial, fun _ _ => trivial⟩⟩

/-- Filling the ring from its start to its end leaves a payload of 0. -/
theorem full_write_lost : ∃ (s₀ : StreamBuf) (addr : Int) (calls : List Call),
    Allocated s₀ addr ∧ Guarded step InDomain ⟨(streamBufferInit s₀ addr 0).2, []⟩ calls ∧
    ¬ Always step Represents ⟨(streamBufferInit s₀ addr 0).2, []⟩ calls := by
  refine ⟨unusedPage, 65536, [.write (some ⟨List.replicate 4096 7, false⟩) fun _ => .copied],
    unusedPage_allocated, ?_, ?_⟩
  · decide +kernel
  · rw [freshPage_eq]
    rintro ⟨-, h⟩
    exact absurd (h _ rfl).payload (by decide +kernel)

end Page

end MediaModules.StreamBuffer
