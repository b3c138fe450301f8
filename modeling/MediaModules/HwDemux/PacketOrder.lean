import MediaModules.HwDemux.RingFilter

/-!
# The order of the filtered packets

What one pass over the ring skips, passes on and leaves, and from it what a run of writes and passes
delivers: the packets of the stream in order, as long as they do not end exactly at the end of the
ring with more of them behind it.
-/
namespace MediaModules.HwDemux

open MediaModules.Lib.Ring
open MediaModules.Lib.Run

/-- The ring, the bytes it accepted and the packets passed on. -/
structure Filtered where
  ring : DvbRingbuffer
  accepted : List UInt8 := []
  delivered : List (List UInt8) := []

/-- `_rbuf_write` takes the bytes. -/
def Accepts (rb : DvbRingbuffer) (src : List UInt8) : Prop := src ≠ [] ∧ src.length ≤ rb.free

instance (rb : DvbRingbuffer) (src : List UInt8) : Decidable (Accepts rb src) :=
  inferInstanceAs (Decidable (_ ∧ _))

/-- `_rbuf_write`, and `_rbuf_filter_pkts` when bytes were written. -/
def filterStep (s : Filtered) (src : List UInt8) : Option Filtered :=
  if Accepts s.ring src then
    (rbufFilterPkts (s.ring.write src)).map fun r =>
      ⟨r.1, s.accepted ++ src, s.delivered ++ r.2⟩
  else some s

/-- A stream without the bytes before its first `0x47`. -/
def body (stream : List UInt8) : List UInt8 := stream.dropWhile (· != syncByte)

/-- Behind a prefix without `0x47`, every 188 bytes start with one. -/
def WellFormed (stream : List UInt8) : Prop :=
  ∀ k, packetLen * k < (body stream).length → (body stream)[packetLen * k]? = some syncByte

/-- The packets passed on are the first ones of the stream, and at most 188 bytes are left. -/
structure InOrder (s : Filtered) : Prop where
  whole : ∀ p ∈ s.delivered, p.length = packetLen
  first : s.delivered.flatten <+: body s.accepted
  rest : (body s.accepted).length ≤ s.delivered.flatten.length + packetLen

/-- What goes wrong in the ring `_rbuf_filter_pkts` sees: the unread bytes go on behind the end of
the ring for a packet or more, and the packets before the end fill the ring up exactly, or the bytes
before the first `0x47` do not stop there. -/
def Aligned (rb : DvbRingbuffer) : Prop :=
  rb.pwrite < rb.pread → packetLen ≤ rb.pwrite → ∀ off, syncOff rb = some off →
    (off < rb.len1 → ¬ packetLen ∣ rb.len1 - off) ∧ (off = rb.len1 → rb.data 0 = syncByte)

section Filter
variable {rb : DvbRingbuffer}

namespace DvbRingbuffer

theorem Valid.inside (h : rb.Valid) : rb.pread + rb.len1 ≤ rb.size := by
  have hr := h.pread
  have hw := h.pwrite
  unfold len1
  split <;> omega

/-- The second segment starts at the start of the ring. -/
theorem Valid.behind (h : rb.Valid) (hne : rb.len2 ≠ 0) :
    rb.len2 = rb.pwrite ∧ rb.pread + rb.len1 = rb.size := by
  have hr := h.pread
  unfold len2 at hne ⊢
  unfold len1
  split at hne <;> split <;> omega

theorem Valid.unread_behind (h : rb.Valid) (hne : rb.len2 ≠ 0) :
    rb.unread[rb.len1]? = some (rb.data 0) := by
  have hlt : rb.len1 < rb.len1 + rb.len2 := by omega
  rw [unread, content, List.getElem?_map, List.getElem?_range hlt, Option.map_some,
    (h.behind hne).2, Nat.mod_self]
  rfl

end DvbRingbuffer

/-- The bytes before the first `0x47` of the first segment. -/
theorem syncOff_spec (h : rb.Valid) : ∃ off, syncOff rb = some off ∧ off ≤ rb.len1 ∧
    (∀ x ∈ rb.unread.take off, x ≠ syncByte) ∧
    (off < rb.len1 → rb.unread[off]? = some syncByte) := by
  have hseg : rb.unread = content rb.data 0 rb.size rb.pread rb.len1 ++
      content rb.data 0 rb.size (rb.pread + rb.len1) rb.len2 := content_add ..
  have hlen : (content rb.data 0 rb.size rb.pread rb.len1).length = rb.len1 := content_length ..
  obtain ⟨seg, hdef⟩ : ∃ seg, content rb.data 0 rb.size rb.pread rb.len1 = seg := ⟨_, rfl⟩
  rw [hdef] at hseg hlen
  have hle : seg.findIdx (· == syncByte) ≤ seg.length := List.findIdx_le_length
  refine ⟨_, by rw [syncOff, DvbRingbuffer.read_eq h.inside, Option.map_some, hdef], hlen ▸ hle,
    ?_, ?_⟩
  · intro x hx
    rw [hseg, List.take_append_of_le_length hle] at hx
    obtain ⟨i, hi, rfl⟩ := List.mem_iff_getElem.mp hx
    rw [List.length_take] at hi
    rw [List.getElem_take]
    have hnot := List.not_of_lt_findIdx (show i < seg.findIdx (· == syncByte) by omega)
    simpa using hnot
  · intro hlt
    rw [hseg, List.getElem?_append_left (by omega), List.getElem?_eq_getElem (by omega)]
    have hfound := @List.findIdx_getElem _ (· == syncByte) seg (by omega)
    simpa using hfound

theorem scan_start (h : rb.Valid) {off : Nat} (hoff : off ≤ rb.len1) :
    let s : Scan := { pread := (rb.pread + off) % rb.size, len1 := rb.len1 - off, len2 := rb.len2 }
    s.At rb (rb.unread.drop off) 0 ∧
      (off < rb.len1 → s.pread + s.len1 = rb.pread + rb.len1) := by
  have hin := h.inside
  have hw := h.pwrite
  obtain ⟨-, hstop⟩ := h.stop
  have hbehind := h.behind
  have hlen : rb.unread.length = rb.len1 + rb.len2 := DvbRingbuffer.unread_length
  have hpread : (rb.pread + off) % rb.size = rb.pread + off ∧ rb.pread + off < rb.size ∨
      (rb.pread + off) % rb.size = 0 ∧ off = rb.len1 ∧ rb.pread + off = rb.size := by
    by_cases hlt : rb.pread + off < rb.size
    · exact Or.inl ⟨Nat.mod_eq_of_lt hlt, hlt⟩
    · have hend : rb.pread + off = rb.size := by omega
      exact Or.inr ⟨by rw [hend, Nat.mod_self], by omega, hend⟩
  refine ⟨⟨rfl, ?_, ?_, ?_, ?_, ?_⟩, ?_⟩
  · show 0 * packetLen + (rb.len1 - off + rb.len2) = _
    rw [List.length_drop, hlen]
    omega
  · show content rb.data 0 rb.size ((rb.pread + off) % rb.size) (rb.len1 - off + rb.len2) = _
    rw [content_mod, Nat.zero_mul, List.drop_zero, DvbRingbuffer.unread,
      content_drop _ _ _ _ _ (show off ≤ rb.len1 + rb.len2 by omega)]
    congr 1
    omega
  · show (rb.pread + off) % rb.size + (rb.len1 - off) ≤ _
    omega
  · show (rb.pread + off) % rb.size + (rb.len1 - off + rb.len2) = rb.pwrite ∨
      (rb.pread + off) % rb.size + (rb.len1 - off + rb.len2) = rb.pwrite + rb.size
    by_cases hne : rb.len2 = 0
    · omega
    · have hb := hbehind hne
      omega
  · intro hne
    have hb := hbehind hne
    show rb.len2 = _ ∧ ((rb.pread + off) % rb.size + (rb.len1 - off) = _ ∨
      (rb.pread + off) % rb.size = 0 ∧ rb.len1 - off = 0)
    omega
  · intro hlt
    show (rb.pread + off) % rb.size + (rb.len1 - off) = _
    omega

/-- The filter skipped `off` bytes of the ring and passed `c` packets on. -/
structure Passed (rb : DvbRingbuffer) (off c : Nat) (r : DvbRingbuffer × List (List UInt8)) :
    Prop where
  packets : r.2 = packetsOf c (rb.unread.drop off)
  le : off + c * packetLen ≤ rb.unread.length
  rest : rb.unread.length - (off + c * packetLen) ≤ packetLen
  valid : r.1.Valid
  unread : r.1.unread = rb.unread.drop (off + c * packetLen)
  progress : off = rb.len1 → packetLen ≤ rb.len2 → 0 < c

theorem Scan.Done.passed {s : Scan} {off c : Nat} (h : s.Done rb (rb.unread.drop off) c)
    (hv : rb.Valid) (hoff : off ≤ rb.unread.length)
    (hprogress : off = rb.len1 → packetLen ≤ rb.len2 → 0 < c) :
    Passed rb off c ({ rb with pread := s.pread }, s.packets) := by
  have hle := h.le
  have hrest := h.rest
  have hstop := h.stop
  have hu := h.unread
  rw [List.length_drop] at hle hrest hstop hu
  have hlt := hv.stop.1
  rw [← DvbRingbuffer.unread_length] at hlt
  have hlen : DvbRingbuffer.len1 { rb with pread := s.pread } +
      DvbRingbuffer.len2 { rb with pread := s.pread } =
        rb.unread.length - off - c * packetLen :=
    DvbRingbuffer.len_of_stop h.inside (show _ < rb.size by omega) hstop
  refine ⟨h.packets, by omega, by omega, ⟨h.inside, hv.pwrite⟩, ?_, hprogress⟩
  rw [DvbRingbuffer.unread, hlen, ← List.drop_drop]
  exact hu

/-- Unless packets fill the ring up to its end with another one behind it, the filter reads inside
the ring and passes whole packets on. -/
theorem filter_spec (h : rb.Valid) {off : Nat} (hoff : syncOff rb = some off)
    (hgood : off < rb.len1 → packetLen ≤ rb.len2 → ¬ packetLen ∣ rb.len1 - off) :
    ∃ r c, rbufFilterPkts rb = some r ∧ Passed rb off c r := by
  obtain ⟨off', hoff', hle, -⟩ := syncOff_spec h
  obtain rfl : off' = off := Option.some.inj (hoff'.symm.trans hoff)
  obtain ⟨hstart, hpos⟩ := scan_start h hle
  obtain ⟨s, n, hs, hat, hlen1, hlen2, hsum, hn⟩ := hstart.before
  have hmod : s.len1 < packetLen := hlen1 ▸ Nat.mod_lt _ (by decide)
  have hlen : off' ≤ rb.unread.length := by
    rw [DvbRingbuffer.unread_length]
    omega
  simp only [rbufFilterPkts, hoff, Option.bind_some, hs]
  by_cases h1 : s.len1 = 0
  · have hzero : packetLen ≤ s.len2 → s.pread = 0 := by
      intro hmany
      have hw := hat.wraps (by have hp : packetLen ≠ 0 := by decide
                               omega)
      rcases hw.2 with hend | h0
      · by_contra hne
        rw [h1, Nat.add_zero] at hend
        by_cases hlt : off' < rb.len1
        · exact hgood hlt (le_of_le_of_eq hmany hlen2) (Nat.dvd_of_mod_eq_zero (hlen1.symm.trans h1))
        · -- nothing before the end: the scan starts at the start of the ring
          have heq : off' = rb.len1 := by omega
          have hb := h.behind (by rw [← show s.len2 = rb.len2 from hlen2]; omega)
          have hs0 : s.pread + s.len1 = (rb.pread + off') % rb.size + (rb.len1 - off') := hsum
          rw [heq, hb.2, Nat.mod_self, Nat.sub_self, h1] at hs0
          exact hne hs0
      · exact h0.1
    obtain ⟨s', c', -, hs', hdone, hprog⟩ := hat.atEnd h.pwrite h1 hzero
    refine ⟨_, c', ?_, hdone.passed h hlen fun _ hmany => ?_⟩
    · cases ha : acrossEnd rb s with
      | none => rw [ha] at hs'; cases hs'
      | some t =>
        rw [ha, Option.bind_some] at hs'
        rw [Option.bind_some, hs', Option.map_some]
    · rcases hprog with hfew | hlt
      · rw [hlen2] at hfew
        exact absurd hmany (Nat.not_le.mpr hfew)
      · exact Nat.pos_of_ne_zero fun h0 => by omega
  · obtain ⟨s', c', hc, hs', hdone⟩ := hat.across h.pwrite hmod h1
    refine ⟨_, c', ?_, hdone.passed h hlen fun heq _ => ?_⟩
    · cases ha : acrossEnd rb s with
      | none => rw [ha] at hs'; cases hs'
      | some t =>
        rw [ha, Option.bind_some] at hs'
        rw [Option.bind_some, hs', Option.map_some]
    · rw [show rb.len1 - off' = 0 by omega, Nat.zero_mod] at hlen1
      exact absurd hlen1 h1

theorem filter_outside (h : rb.Valid) {off : Nat} (hoff : syncOff rb = some off)
    (hlt : off < rb.len1) (hmany : packetLen ≤ rb.len2) (hdvd : packetLen ∣ rb.len1 - off) :
    rbufFilterPkts rb = none := by
  obtain ⟨hstart, hpos⟩ := scan_start h hlt.le
  obtain ⟨s, n, hs, -, hlen1, hlen2, hsum, -⟩ := hstart.before
  have h1 : s.len1 = 0 := hlen1.trans (Nat.mod_eq_zero_of_dvd hdvd)
  have hb := h.behind (by have hp : packetLen ≠ 0 := by decide
                          omega)
  have hend : s.pread = rb.size := by
    have hs0 := hsum.trans (hpos hlt)
    rw [h1, Nat.add_zero] at hs0
    exact hs0.trans hb.2
  have hnone : (acrossEnd rb s).bind (behindEnd rb) = none :=
    read_outside h1 (hlen2.symm ▸ hmany) hend
  simp only [rbufFilterPkts, hoff, Option.bind_some, hs]
  cases ha : acrossEnd rb s with
  | none => rfl
  | some t =>
    rw [ha, Option.bind_some] at hnone
    rw [Option.bind_some, hnone, Option.map_none]

end Filter

/-!
## Runs
-/

section Body

/-- Bytes other than `0x47` in front are skipped. -/
theorem body_skip {g : List UInt8} (hg : ∀ x ∈ g, x ≠ syncByte) (t : List UInt8) :
    body (g ++ t) = body t := by
  induction g with
  | nil => rfl
  | cons x g ih =>
    have hx : (x != syncByte) = true := by simpa using hg x List.mem_cons_self
    rw [body, List.cons_append, List.dropWhile_cons, if_pos hx]
    exact ih fun y hy => hg y (List.mem_cons_of_mem _ hy)

theorem body_synced {t : List UInt8} (h : t.head? = some syncByte) : body t = t := by
  cases t with
  | nil => rfl
  | cons x t =>
    have hx : ¬ (x != syncByte) = true := by
      rw [List.head?_cons, Option.some.injEq] at h
      simp [h]
    rw [body, List.dropWhile_cons, if_neg hx]

theorem body_length_le (t : List UInt8) : (body t).length ≤ t.length :=
  (List.dropWhile_sublist _).length_le

end Body

/-- What the filter's state means: behind bytes without `0x47`, the packets passed on, then what is
still in the ring. -/
structure Filtered.Sound (n : Nat) (s : Filtered) : Prop where
  size : s.ring.size = n
  valid : s.ring.Valid
  whole : ∀ p ∈ s.delivered, p.length = packetLen
  synced : s.delivered ≠ [] → s.delivered.flatten.head? = some syncByte
  left : s.ring.unread.length ≤ packetLen
  bytes : ∃ g, (∀ x ∈ g, x ≠ syncByte) ∧ s.accepted = g ++ (s.delivered.flatten ++ s.ring.unread)

section Runs
variable {n : Nat} {s : Filtered} {src : List UInt8}

theorem flatten_length_of_whole {l : List (List UInt8)} (h : ∀ p ∈ l, p.length = packetLen) :
    l.flatten.length = packetLen * l.length := by
  induction l with
  | nil => rfl
  | cons p l ih =>
    rw [List.flatten_cons, List.length_append, List.length_cons, h p List.mem_cons_self,
      ih fun q hq => h q (List.mem_cons_of_mem _ hq), Nat.mul_succ, Nat.add_comm]

theorem Filtered.Sound.inOrder (h : s.Sound n) : InOrder s := by
  obtain ⟨g, hg, hbytes⟩ := h.bytes
  have hleft := h.left
  by_cases hd : s.delivered = []
  · have hbody : body s.accepted = body s.ring.unread := by
      rw [hbytes, body_skip hg, hd, List.flatten_nil, List.nil_append]
    have hlen := body_length_le s.ring.unread
    refine ⟨h.whole, ?_, ?_⟩
    · rw [hd]
      exact List.nil_prefix
    · rw [hbody]
      omega
  · have hhead := h.synced hd
    have hbody : body s.accepted = s.delivered.flatten ++ s.ring.unread := by
      rw [hbytes, body_skip hg, body_synced]
      rw [List.head?_append, hhead]
      rfl
    refine ⟨h.whole, ?_, ?_⟩
    · rw [hbody]
      exact List.prefix_append ..
    · rw [hbody, List.length_append]
      omega

/-- The bytes of the stream that are accepted next keep it well formed. -/
def StreamFits (s : Filtered) (src : List UInt8) : Prop :=
  Accepts s.ring src → WellFormed (s.accepted ++ src)

/-- The ring that `_rbuf_filter_pkts` sees is aligned with the packets. -/
def StepAligned (s : Filtered) (src : List UInt8) : Prop :=
  Accepts s.ring src → Aligned (s.ring.write src)

/-- Where the second segment holds a packet, the ring has wrapped. -/
theorem wrapped_of_len2 (rb : DvbRingbuffer) (hne : rb.len2 ≠ 0) :
    rb.pwrite < rb.pread ∧ rb.len2 = rb.pwrite := by
  unfold DvbRingbuffer.len2 at hne ⊢
  split at hne
  · exact absurd rfl hne
  · next h => exact ⟨by omega, if_neg h⟩

theorem len2_of_wrapped {rb : DvbRingbuffer} (h : rb.pwrite < rb.pread) : rb.len2 = rb.pwrite :=
  if_neg (by omega)

/-- The state after an accepted write and the pass over the ring. -/
theorem filterStep_accepted (hacc : Accepts s.ring src) {r : DvbRingbuffer × List (List UInt8)}
    (hr : rbufFilterPkts (s.ring.write src) = some r) :
    filterStep s src = some ⟨r.1, s.accepted ++ src, s.delivered ++ r.2⟩ := by
  rw [filterStep, if_pos hacc, hr, Option.map_some]

/-- An aligned step stays inside the ring and keeps the order of the packets. -/
theorem Filtered.Sound.step (h : s.Sound n) (hdom : StreamFits s src) (hok : StepAligned s src) :
    ∃ s', filterStep s src = some s' ∧ s'.Sound n := by
  by_cases hacc : Accepts s.ring src
  · obtain ⟨hv, hun, -, hsize⟩ := h.valid.write hacc.2
    obtain ⟨off, hoff, hle, hskip, hsync⟩ := syncOff_spec hv
    obtain ⟨w, hw⟩ : ∃ w, s.ring.write src = w := ⟨_, rfl⟩
    have haligned := hok hacc
    rw [hw] at hv hun hsize hoff hle hskip hsync haligned
    obtain ⟨r, c, hr, hp⟩ := filter_spec hv hoff fun hlt hmany => by
      have hpos : packetLen ≠ 0 := by decide
      obtain ⟨hwrap, hlen2⟩ := wrapped_of_len2 w (by omega)
      exact (haligned hwrap (hlen2 ▸ hmany) off hoff).1 hlt
    refine ⟨_, filterStep_accepted hacc (hw ▸ hr), ?_⟩
    obtain ⟨g, hg, hbytes⟩ := h.bytes
    have hacc' : s.accepted ++ src = g ++ (s.delivered.flatten ++ w.unread) := by
      rw [hbytes, hun, List.append_assoc, List.append_assoc]
    have hple := hp.le
    have hlen : (w.unread.drop off).length = w.unread.length - off := List.length_drop
    have hflat : r.2.flatten = (w.unread.drop off).take (c * packetLen) := by
      rw [hp.packets, packetsOf_flatten c (by omega)]
    have hwhole : ∀ p ∈ s.delivered ++ r.2, p.length = packetLen := fun p hp' => by
      rcases List.mem_append.mp hp' with hp' | hp'
      · exact h.whole p hp'
      · rw [hp.packets] at hp'
        exact packetsOf_whole c (by omega) p hp'
    have hrest : r.2.flatten ++ r.1.unread = w.unread.drop off := by
      rw [hflat, hp.unread, ← List.drop_drop, List.take_append_drop]
    have hrsize : r.1.size = n := by
      have hsame : r.1.size = w.size := by
        simp only [rbufFilterPkts, Option.bind_eq_some_iff, Option.map_eq_some_iff] at hr
        obtain ⟨-, -, -, -, -, -, -, -, rfl⟩ := hr
        rfl
      rw [hsame, hsize, h.size]
    have hleft : r.1.unread.length ≤ packetLen := by
      rw [hp.unread, List.length_drop]
      exact hp.rest
    by_cases hd : s.delivered = []
    · -- no packet yet: the bytes skipped hold no `0x47`
      refine ⟨hrsize, hp.valid, hwhole, fun hne => ?_, hleft, g ++ w.unread.take off, ?_, ?_⟩
      · rw [hd, List.nil_append] at hne ⊢
        have hc : 0 < c := Nat.pos_of_ne_zero fun h0 => hne (by rw [hp.packets, h0]; rfl)
        have hbytes : packetLen ≤ c * packetLen := Nat.le_mul_of_pos_left _ hc
        have hpos : packetLen ≠ 0 := by decide
        rw [hflat, List.head?_take, if_neg (by omega), List.head?_drop]
        by_cases hlt : off < w.len1
        · exact hsync hlt
        · have heq : off = w.len1 := by omega
          rw [DvbRingbuffer.unread_length] at hple
          obtain ⟨hwrap, hlen2⟩ := wrapped_of_len2 w (by omega)
          rw [heq, hv.unread_behind (by omega)]
          exact congrArg some ((haligned hwrap (by omega) off hoff).2 heq)
      · intro x hx
        rcases List.mem_append.mp hx with hx | hx
        · exact hg x hx
        · exact hskip x hx
      · show s.accepted ++ src = _
        rw [hacc', hd, List.nil_append, List.flatten_nil, List.nil_append, hrest,
          List.append_assoc, List.take_append_drop]
    · -- behind a packet the ring starts with the `0x47` of the next one: nothing is skipped
      have hhead := h.synced hd
      have hbody : body (s.accepted ++ src) = s.delivered.flatten ++ w.unread := by
        rw [hacc', body_skip hg, body_synced]
        rw [List.head?_append, hhead]
        rfl
      have hoff0 : off = 0 := by
        by_contra hne
        have hlen1 : 0 < w.unread.length := by
          rw [DvbRingbuffer.unread_length]
          omega
        have hstart := hdom hacc s.delivered.length
        rw [hbody, ← flatten_length_of_whole h.whole, List.length_append,
          List.getElem?_append_right (Nat.le_refl _), Nat.sub_self] at hstart
        have hfirst := hstart (by omega)
        obtain ⟨x, t, hxt⟩ := List.exists_cons_of_length_pos hlen1
        rw [hxt, List.getElem?_cons_zero, Option.some.injEq] at hfirst
        refine hskip x ?_ hfirst
        rw [hxt]
        obtain ⟨k, rfl⟩ := Nat.exists_eq_succ_of_ne_zero hne
        exact List.mem_cons_self
      rw [hoff0, List.drop_zero] at hrest
      refine ⟨hrsize, hp.valid, hwhole, fun _ => ?_, hleft, g, hg, ?_⟩
      · rw [List.flatten_append, List.head?_append, hhead]
        rfl
      · show s.accepted ++ src = _
        rw [hacc', List.flatten_append, List.append_assoc, hrest]
  · exact ⟨s, if_neg hacc, h⟩

/-- A step that is not aligned reads outside, or passes on bytes that are no packet. -/
theorem Filtered.Sound.step_breaks (h : s.Sound n) (hdom : StreamFits s src)
    (hok : ¬ StepAligned s src) {s' : Filtered} (hs : filterStep s src = some s') :
    ¬ InOrder s' := by
  rw [StepAligned, Classical.not_imp] at hok
  obtain ⟨hacc, hbad⟩ := hok
  obtain ⟨hv, hun, -, -⟩ := h.valid.write hacc.2
  obtain ⟨w, hw⟩ : ∃ w, s.ring.write src = w := ⟨_, rfl⟩
  rw [hw] at hv hun hbad
  simp only [Aligned, Classical.not_imp, not_forall, not_and_or] at hbad
  obtain ⟨hwrap, hmany, off, hoff, hbad⟩ := hbad
  have hpos : packetLen ≠ 0 := by decide
  have hlen2 := len2_of_wrapped hwrap
  rcases hbad with ⟨hlt, hdvd⟩ | ⟨heq, hdata⟩
  · rw [not_not] at hdvd
    have hnone := filter_outside hv hoff hlt (by omega) hdvd
    rw [filterStep, if_pos hacc, hw, hnone] at hs
    cases hs
  · obtain ⟨r, c, hr, hp⟩ := filter_spec hv hoff fun hlt => absurd heq hlt.ne
    have hc := hp.progress heq (by omega)
    have hbytes : packetLen ≤ c * packetLen := Nat.le_mul_of_pos_left _ hc
    obtain rfl := Option.some.inj ((filterStep_accepted hacc (hw ▸ hr)).symm.trans hs)
    intro horder
    have hple := hp.le
    rw [DvbRingbuffer.unread_length] at hple
    have hflat : r.2.flatten = (w.unread.drop off).take (c * packetLen) := by
      rw [hp.packets, packetsOf_flatten c]
      rw [List.length_drop, DvbRingbuffer.unread_length]
      omega
    obtain ⟨t, ht⟩ := horder.first
    rw [List.flatten_append, List.append_assoc] at ht
    have hlen : 0 < r.2.flatten.length := by
      rw [hflat, List.length_take, List.length_drop, DvbRingbuffer.unread_length]
      omega
    -- the packet after the ones passed on before starts with a `0x47`, the bytes passed on do not
    have hsync := hdom hacc s.delivered.length
    rw [← flatten_length_of_whole h.whole, ← ht, List.length_append, List.length_append,
      List.getElem?_append_right (Nat.le_refl _), Nat.sub_self,
      List.getElem?_append_left hlen] at hsync
    have hfirst := hsync (by omega)
    rw [hflat, List.getElem?_take, if_pos (by omega), List.getElem?_drop, Nat.add_zero, heq,
      hv.unread_behind (by omega), Option.some.injEq] at hfirst
    exact hdata hfirst

end Runs

/-- The filter stays inside the ring and passes the packets of the stream on in order, each once and
all but the last 188 bytes, exactly when every pass finds the ring aligned with the packets. -/
theorem packets_in_order_iff {rb : DvbRingbuffer} (hempty : rb.pread = rb.pwrite)
    (hsize : rb.pwrite < rb.size) {srcs : List (List UInt8)}
    (hstream : Guarded filterStep StreamFits ⟨rb, [], []⟩ srcs) :
    ((∃ t, run filterStep ⟨rb, [], []⟩ srcs = some t) ∧
      Always filterStep InOrder ⟨rb, [], []⟩ srcs) ↔
    Guarded filterStep StepAligned ⟨rb, [], []⟩ srcs := by
  have hnone : rb.unread = [] := by
    apply List.eq_nil_of_length_eq_zero
    rw [DvbRingbuffer.unread_length, DvbRingbuffer.len1, DvbRingbuffer.len2, if_pos hempty.le,
      if_pos hempty.le, hempty, Nat.sub_self]
  have hstart : Filtered.Sound rb.size ⟨rb, [], []⟩ := by
    refine ⟨rfl, ⟨hempty.le.trans hsize.le, hsize⟩, fun p hp => (by cases hp), fun hne => absurd rfl hne, ?_, [],
      fun x hx => (by cases hx), ?_⟩
    · rw [hnone]
      exact Nat.zero_le _
    · rw [hnone]
      rfl
  exact defined_iff_guarded_within (fun _ h => h.inOrder) (fun _ _ h hdom hok => h.step hdom hok)
    (fun _ _ _ h hdom hok hs => h.step_breaks hdom hok hs) hstart hstream

/-- An empty ring of `size` bytes. -/
def emptyRing (size : Nat) : DvbRingbuffer := ⟨fun _ => 0, size, 0, 0⟩

/-- Two writes of a stream whose bytes behind the first are all `0x47`: `m` packets, and `n` more. -/
def twoWrites (m n : Nat) : List (List UInt8) :=
  [0 :: List.replicate (packetLen * m) syncByte, List.replicate (packetLen * n) syncByte]

theorem wellFormed_replicate (m : Nat) : WellFormed (List.replicate m syncByte) ∧
    WellFormed (0 :: List.replicate m syncByte) := by
  have hsame : body (List.replicate m syncByte) = List.replicate m syncByte := by
    cases m with
    | zero => rfl
    | succ m => exact body_synced rfl
  have hbody : body (0 :: List.replicate m syncByte) = List.replicate m syncByte :=
    (body_skip (g := [0]) (fun x hx => by rw [List.mem_singleton.mp hx]; decide) _).trans hsame
  have hget : ∀ k, packetLen * k < (List.replicate m syncByte).length →
      (List.replicate m syncByte)[packetLen * k]? = some syncByte := fun k hk => by
    rw [List.length_replicate] at hk
    rw [List.getElem?_replicate, if_pos hk]
  rw [WellFormed, WellFormed, hsame, hbody]
  exact ⟨hget, hget⟩

theorem filterStep_accepted_bytes {s s' : Filtered} {src : List UInt8}
    (h : filterStep s src = some s') : s'.accepted = s.accepted ++ src ∨ s'.accepted = s.accepted := by
  unfold filterStep at h
  split at h
  · obtain ⟨r, -, rfl⟩ := Option.map_eq_some_iff.mp h
    exact Or.inl rfl
  · exact Or.inr (congrArg Filtered.accepted (Option.some.inj h).symm)

theorem streamFits_writes (rb : DvbRingbuffer) (m n : Nat) :
    Guarded filterStep StreamFits ⟨rb, [], []⟩ (twoWrites m n) := by
  refine ⟨fun _ => (wellFormed_replicate _).2, fun s' hs => ⟨fun _ => ?_, fun _ _ => trivial⟩⟩
  rcases filterStep_accepted_bytes hs with h | h
  · rw [h, List.nil_append, List.cons_append, List.replicate_append_replicate]
    exact (wellFormed_replicate _).2
  · rw [h]
    exact (wellFormed_replicate _).1

instance (rb : DvbRingbuffer) : Decidable (Aligned rb) :=
  inferInstanceAs (Decidable (rb.pwrite < rb.pread → packetLen ≤ rb.pwrite → ∀ off ∈ syncOff rb,
    (off < rb.len1 → ¬ packetLen ∣ rb.len1 - off) ∧ (off = rb.len1 → rb.data 0 = syncByte)))

instance (s : Filtered) (src : List UInt8) : Decidable (StepAligned s src) :=
  inferInstanceAs (Decidable (Accepts s.ring src → Aligned (s.ring.write src)))

/-- The second write goes round the end of a ring of 600 bytes: one packet ends before the end, one
lies across it and one behind it, and all are passed on. -/
theorem packets_in_order_wrapped :
    ((run filterStep ⟨emptyRing 600, [], []⟩ (twoWrites 2 3)).map fun t => t.delivered.length) =
      some 5 ∧
    ((∃ t, run filterStep ⟨emptyRing 600, [], []⟩ (twoWrites 2 3) = some t) ∧
      Always filterStep InOrder ⟨emptyRing 600, [], []⟩ (twoWrites 2 3)) := by
  refine ⟨by decide +kernel, ?_⟩
  refine (packets_in_order_iff (by decide) (by decide) (streamFits_writes _ 2 3)).mpr ?_
  decide +kernel

/-- The second write fills a ring of 377 bytes up to its end and holds a packet behind it: the pass
reads outside the ring. -/
theorem packet_read_outside :
    Guarded filterStep StreamFits ⟨emptyRing 377, [], []⟩ (twoWrites 1 2) ∧
    (run filterStep ⟨emptyRing 377, [], []⟩ (twoWrites 1 2)).isSome = false :=
  ⟨streamFits_writes _ 1 2, by decide +kernel⟩

end MediaModules.HwDemux
