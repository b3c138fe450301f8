import Mathlib.Data.Nat.Bitwise
import MediaModules.Lib.RingLog
import MediaModules.Lib.Run

/-!
# The frame records of a decoder

`vdec_fill_vdec_frame` keeps a record of every frame in a ring, and `vdec_get_frame_vdec` hands out
the records behind the last ones it handed out. Both positions run freely as 32-bit numbers. The
sizes of the ring and of a block that is handed out are macros of a header of the kernel. The frame
rate that the first frames report only reads the records.
-/
namespace MediaModules.FrameFifo

open Lib.Run Lib.RingLog

/-- The fields of `struct vframe_counter_s` that are written; `κ` is `vframe_qos_s`, `ν` and `ι` are
the infos taken from `vdec_info`. -/
structure VframeCounter (κ ν ι : Type*) where
  decodeTimeCost : Nat
  qos : κ
  normalInfo : ν
  ipb : ι
  avResynchCounter : Nat
  vfType : Nat
  signalType : Nat
  pts : Nat
  ptsUs64 : Nat
deriving DecidableEq, Repr

/-- The fields of `struct vframe_s` that are read. -/
structure Vframe where
  type : Nat
  signalType : Nat
  pts : Nat
  ptsUs64 : Nat
deriving DecidableEq, Repr

/-- The arguments of a fill, and the value of `timestamp_avsync_counter_get`. -/
structure FillArgs (κ ν ι : Type*) where
  vframeQos : Option κ
  vinfo : Option (ν × ι)
  vf : Option Vframe
  hwDecTime : Nat
  avsyncCounter : Nat
deriving DecidableEq, Repr

/-- `struct vdec_frames_s`, as far as it is used. `wr` and `rd` have 32 bits. -/
structure VdecFrames (κ ν ι : Type*) where
  wr : Nat
  rd : Nat
  fifoBuf : Nat → VframeCounter κ ν ι

variable {κ ν ι : Type*}

/-- What a fill makes of the record of its slot. What is not given stays as it was. -/
def fillRecord (a : FillArgs κ ν ι) (f : VframeCounter κ ν ι) : VframeCounter κ ν ι :=
  let f := { f with decodeTimeCost := a.hwDecTime }
  let f := match a.vframeQos with
    | none => f
    | some qos => { f with qos }
  let f := match a.vinfo with
    | none => f
    | some (normalInfo, ipb) => { f with normalInfo, ipb, avResynchCounter := a.avsyncCounter }
  match a.vf with
  | none => f
  | some vf =>
    { f with vfType := vf.type, signalType := vf.signalType, pts := vf.pts, ptsUs64 := vf.ptsUs64 }

section Model

variable (NUM_FRAME_VDEC QOS_FRAME_NUM : Nat)

/-- The slot of a position. -/
def slotOf (position : Nat) : Nat := position &&& (NUM_FRAME_VDEC - 1)

/-- The record that a fill leaves in its slot. -/
def filledRecord (m : VdecFrames κ ν ι) (a : FillArgs κ ν ι) : VframeCounter κ ν ι :=
  fillRecord a (m.fifoBuf (slotOf NUM_FRAME_VDEC m.wr))

/-- `vdec_fill_vdec_frame`. -/
def vdecFillVdecFrame (mvfrm : Option (VdecFrames κ ν ι)) (a : FillArgs κ ν ι) :
    Option (VdecFrames κ ν ι) :=
  mvfrm.map fun m =>
    { m with
      fifoBuf := Function.update m.fifoBuf (slotOf NUM_FRAME_VDEC m.wr)
        (filledRecord NUM_FRAME_VDEC m a)
      wr := (m.wr + 1) % 2 ^ 32 }

/-- Where a read starts. -/
def readFrom (m : VdecFrames κ ν ι) (toread : Nat) : Nat :=
  if toread ≥ NUM_FRAME_VDEC - QOS_FRAME_NUM then
    (m.wr + 2 ^ 32 - (NUM_FRAME_VDEC - QOS_FRAME_NUM)) % 2 ^ 32
  else m.rd

/-- The records that are copied to the caller's buffer, in one piece or in two. -/
def copied (m : VdecFrames κ ν ι) (slotRd toread : Nat) : List (VframeCounter κ ν ι) :=
  if slotRd + toread ≤ NUM_FRAME_VDEC then block m.fifoBuf slotRd toread
  else
    let exeed := slotRd + toread - NUM_FRAME_VDEC
    block m.fifoBuf slotRd (NUM_FRAME_VDEC - slotRd) ++ block m.fifoBuf 0 exeed

/-- `vdec_get_frame_vdec`, with the records it returns the number of. -/
def vdecGetFrameVdec (mvfrm : Option (VdecFrames κ ν ι)) :
    Option (VdecFrames κ ν ι) × List (VframeCounter κ ν ι) :=
  match mvfrm with
  | none => (none, [])
  | some m =>
    let toread := (m.wr + 2 ^ 32 - m.rd) % 2 ^ 32
    if toread = 0 then (some m, [])
    else
      let rd := readFrom NUM_FRAME_VDEC QOS_FRAME_NUM m toread
      let toread := if toread ≥ QOS_FRAME_NUM then QOS_FRAME_NUM else toread
      (some { m with rd := (rd + toread) % 2 ^ 32 },
        copied NUM_FRAME_VDEC m (slotOf NUM_FRAME_VDEC rd) toread)

/-! ## Runs -/

inductive FrameOp (κ ν ι : Type*)
  | fill (a : FillArgs κ ν ι)
  | get

/-- The records of a decoder, all that were filled so far, and the blocks that were handed out, each
with the number of records filled by then. -/
structure FrameRun (κ ν ι : Type*) where
  mvfrm : Option (VdecFrames κ ν ι)
  filled : List (VframeCounter κ ν ι)
  reads : List (Nat × List (VframeCounter κ ν ι))

def frameStep (s : FrameRun κ ν ι) : FrameOp κ ν ι → Option (FrameRun κ ν ι)
  | .fill a =>
    some { s with
      mvfrm := vdecFillVdecFrame NUM_FRAME_VDEC s.mvfrm a
      filled := s.filled ++ (s.mvfrm.map fun m => filledRecord NUM_FRAME_VDEC m a).toList }
  | .get =>
    let done := vdecGetFrameVdec NUM_FRAME_VDEC QOS_FRAME_NUM s.mvfrm
    some { s with mvfrm := done.1, reads := s.reads ++ [(s.filled.length, done.2)] }

end Model

/-- A new decoder. -/
structure FrameRun.Start (s : FrameRun κ ν ι) : Prop where
  wr : ∀ m ∈ s.mvfrm, m.wr = 0
  rd : ∀ m ∈ s.mvfrm, m.rd = 0
  filled : s.filled = []
  reads : s.reads = []

/-- The ring has a power of two of slots, and no less than two blocks. -/
structure Sizes (n q : Nat) : Prop where
  pow : ∃ k, k < 31 ∧ n = 2 ^ k
  blocks : 2 * q ≤ n

/-- The positions are those of the log of all records, whose end the ring shows; the reader is behind
record `next`. -/
structure Held (n q : Nat) (s : FrameRun κ ν ι) (next : Nat) : Prop where
  wr : ∀ m ∈ s.mvfrm, m.wr = s.filled.length % 2 ^ 32
  rd : ∀ m ∈ s.mvfrm, m.rd = next % 2 ^ 32
  shows : ∀ m ∈ s.mvfrm, Shows n m.fifoBuf s.filled
  none : s.mvfrm = none → s.filled = []
  served : Served n (n - q) s.filled s.reads next
  blocks : ∀ b ∈ s.reads, b.2.length ≤ q

section

variable {n q next : Nat} {s t : FrameRun κ ν ι} {m : VdecFrames κ ν ι}

theorem Sizes.pos (h : Sizes n q) : 0 < n := by
  obtain ⟨k, -, rfl⟩ := h.pow
  exact Nat.two_pow_pos k

theorem Sizes.le (h : Sizes n q) : n ≤ 2 ^ 30 := by
  obtain ⟨k, hk, rfl⟩ := h.pow
  exact Nat.pow_le_pow_right (by decide) (by omega)

/-- The slot of a position of 32 bits is the cell of the entry it stands for. -/
theorem Sizes.slotOf (h : Sizes n q) (i : Nat) : slotOf n (i % 2 ^ 32) = i % n := by
  obtain ⟨k, hk, rfl⟩ := h.pow
  rw [FrameFifo.slotOf, Nat.and_two_pow_sub_one_eq_mod]
  exact Nat.mod_mod_of_dvd i (Nat.pow_dvd_pow 2 (by omega))

theorem held_init (hs : s.Start) : Held n q s 0 where
  wr m hm := by rw [hs.wr m hm, hs.filled]; rfl
  rd m hm := (hs.rd m hm).trans rfl
  shows m _ := by rw [hs.filled]; exact shows_nil
  none _ := hs.filled
  served := by rw [hs.reads]; exact .init
  blocks := by rw [hs.reads]; exact nofun

theorem held_fill (hn : Sizes n q) (h : Held n q s next) (a : FillArgs κ ν ι) :
    Held n q { s with
      mvfrm := vdecFillVdecFrame n s.mvfrm a
      filled := s.filled ++ (s.mvfrm.map fun m => filledRecord n m a).toList } next := by
  cases hm : s.mvfrm with
  | none =>
    have hfilled : s.filled ++ ((none : Option (VdecFrames κ ν ι)).map
        fun m => filledRecord n m a).toList = s.filled := List.append_nil _
    rw [hfilled]
    exact ⟨nofun, nofun, nofun, fun _ => h.none hm, h.served, h.blocks⟩
  | some m =>
    have hmem : m ∈ s.mvfrm := hm
    have hwr := h.wr m hmem
    simp only [vdecFillVdecFrame, Option.map_some, Option.toList_some]
    refine ⟨?_, ?_, ?_, nofun, h.served.push _, h.blocks⟩
    · intro m' hm'
      obtain rfl := Option.some.inj hm'
      simp only [hwr, List.length_append, List.length_singleton]
      omega
    · intro m' hm'
      obtain rfl := Option.some.inj hm'
      exact h.rd m hmem
    · intro m' hm'
      obtain rfl := Option.some.inj hm'
      have hslot : FrameFifo.slotOf n m.wr = s.filled.length % n := by rw [hwr, hn.slotOf]
      simp only [hslot]
      exact (h.shows m hmem).push _

/-- What a read takes out of the ring is a block of the log. -/
theorem copied_eq (hn : Sizes n q) {log : List (VframeCounter κ ν ι)} (h : Shows n m.fifoBuf log)
    {start len : Nat} (hlen : len ≤ q) (hend : start + len ≤ log.length)
    (hfresh : log.length ≤ start + n) :
    copied n m (start % n) len = (log.drop start).take len := by
  have hblocks := hn.blocks
  have hle : len ≤ n := hlen.trans (by omega)
  rw [← h.around_eq hend hfresh, copied]
  by_cases hwrap : start % n + len ≤ n
  · rw [if_pos hwrap, around_eq_block hwrap]
  · rw [if_neg hwrap, around_eq_blocks hn.pos hle (Nat.not_le.mp hwrap)]

/-- A read takes a block of the log, behind the last one or, from a long backlog, further on. -/
theorem vdecGetFrameVdec_reads (hn : Sizes n q) {log : List (VframeCounter κ ν ι)}
    (hwr : m.wr = log.length % 2 ^ 32) (hrd : m.rd = next % 2 ^ 32) (hshows : Shows n m.fifoBuf log)
    (hnext : next ≤ log.length) : ∃ start len, next ≤ start ∧ start + len ≤ log.length ∧
      log.length ≤ start + n ∧ (start ≠ next → n - q ≤ log.length - next) ∧ len ≤ q ∧
      vdecGetFrameVdec n q (some m) =
        (some { m with rd := (start + len) % 2 ^ 32 }, (log.drop start).take len) := by
  have hle := hn.le
  have hblocks := hn.blocks
  have htoread : (m.wr + 2 ^ 32 - m.rd) % 2 ^ 32 = (log.length - next) % 2 ^ 32 := by
    rw [hwr, hrd]
    omega
  obtain ⟨p, hp⟩ : ∃ p, p = (log.length - next) % 2 ^ 32 := ⟨_, rfl⟩
  simp only [vdecGetFrameVdec, htoread, ← hp]
  by_cases hzero : p = 0
  · refine ⟨log.length, 0, hnext, le_refl _, Nat.le_add_right _ _, fun _ => by omega,
      Nat.zero_le _, ?_⟩
    have hrd' : m.rd = (log.length + 0) % 2 ^ 32 := by omega
    rw [if_pos hzero, ← hrd', List.take_zero]
  · rw [if_neg hzero]
    -- the backlog is only known modulo 2^32
    obtain ⟨start, hstart, hfrom, hroom⟩ : ∃ start, next ≤ start ∧
        readFrom n q m p = start % 2 ^ 32 ∧ start ≤ log.length ∧ log.length ≤ start + n ∧
          (start ≠ next → n - q ≤ log.length - next) ∧ min p q ≤ log.length - start := by
      simp only [readFrom]
      by_cases hlong : p ≥ n - q
      · refine ⟨log.length - (n - q), by omega, ?_, by omega, by omega, fun _ => by omega, by omega⟩
        rw [if_pos hlong, hwr]
        omega
      · refine ⟨log.length - p, by omega, ?_, by omega, by omega, fun _ => by omega, by omega⟩
        rw [if_neg hlong, hrd]
        omega
    obtain ⟨hend, hfresh, hskips, hlen⟩ := hroom
    have hmin : (if p ≥ q then q else p) = min p q := by
      split <;> omega
    refine ⟨start, min p q, hstart, by omega, hfresh, hskips, by omega, ?_⟩
    rw [hmin, hfrom, hn.slotOf, copied_eq hn hshows (by omega) (by omega) hfresh, Nat.mod_add_mod]

theorem held_get (hn : Sizes n q) (h : Held n q s next) :
    ∃ next', Held n q { s with
      mvfrm := (vdecGetFrameVdec n q s.mvfrm).1
      reads := s.reads ++ [(s.filled.length, (vdecGetFrameVdec n q s.mvfrm).2)] } next' := by
  have hblocks {b : List (VframeCounter κ ν ι)} (hb : b.length ≤ q) :
      ∀ b' ∈ s.reads ++ [(s.filled.length, b)], b'.2.length ≤ q := by
    intro b' hb'
    rcases List.mem_append.mp hb' with hb' | hb'
    · exact h.blocks b' hb'
    · rw [List.mem_singleton.mp hb']
      exact hb
  cases hm : s.mvfrm with
  | none =>
    have hnil := h.none hm
    have hserved := h.served
    have hnext : next = 0 := by
      have hle := hserved.next_le_length
      rw [hnil] at hle
      exact Nat.le_zero.mp hle
    refine ⟨0 + 0, nofun, nofun, nofun, fun _ => hnil, ?_, hblocks (Nat.zero_le _)⟩
    rw [hnil, hnext] at hserved
    simp only [hnil]
    show Served n (n - q) [] (s.reads ++ [(0, (([] : List (VframeCounter κ ν ι)).drop 0).take 0)])
      (0 + 0)
    exact .read hserved (le_refl _) (le_refl _) (le_refl _) (Nat.zero_le _) fun hne => absurd rfl hne
  | some m =>
    have hmem : m ∈ s.mvfrm := hm
    obtain ⟨start, len, hstart, hend, hfresh, hskips, hlen, hread⟩ :=
      vdecGetFrameVdec_reads hn (h.wr m hmem) (h.rd m hmem) (h.shows m hmem)
        h.served.next_le_length
    rw [hread]
    refine ⟨start + len, ?_, ?_, ?_, nofun, ?_, hblocks ?_⟩
    · intro m' hm'
      obtain rfl := Option.some.inj hm'
      exact h.wr m hmem
    · intro m' hm'
      obtain rfl := Option.some.inj hm'
      rfl
    · intro m' hm'
      obtain rfl := Option.some.inj hm'
      exact h.shows m hmem
    · exact .read h.served hstart hend (le_refl _) hfresh hskips
    · exact le_trans (List.length_take_le _ _) hlen

/-- For every run from a new decoder: the records that are handed out are records that were filled, in
this order and each at most once; every block was in the ring in full, and it leaves records out only
if at least `NUM_FRAME_VDEC - QOS_FRAME_NUM` were waiting. -/
theorem records_in_order (hn : Sizes n q) {ops : List (FrameOp κ ν ι)} (hs : s.Start)
    (hr : run (frameStep n q) s ops = some t) :
    (t.reads.flatMap Prod.snd).Sublist t.filled ∧ (∀ b ∈ t.reads, b.2.length ≤ q) ∧
      ∃ next, Served n (n - q) t.filled t.reads next := by
  have hheld : ∃ next, Held n q t next := by
    refine run_invariant (P := fun s => ∃ next, Held n q s next) (fun s op s' h hs => ?_)
      ⟨0, held_init hs⟩ hr
    obtain ⟨next, h⟩ := h
    cases op with
    | fill a =>
      obtain rfl := Option.some.inj hs
      exact ⟨next, held_fill hn h a⟩
    | get =>
      obtain rfl := Option.some.inj hs
      exact held_get hn h
  obtain ⟨next, h⟩ := hheld
  exact ⟨h.served.sublist.trans (List.take_sublist _ _), h.blocks, next, h.served⟩

/-- A new decoder whose records carry no infos. -/
def newDecoder : FrameRun Unit Unit Unit where
  mvfrm := some ⟨0, 0, fun _ => ⟨0, (), (), (), 0, 0, 0, 0, 0⟩⟩
  filled := []
  reads := []

theorem newDecoder_start : newDecoder.Start where
  wr _ hm := by obtain rfl := Option.some.inj hm; rfl
  rd _ hm := by obtain rfl := Option.some.inj hm; rfl
  filled := rfl
  reads := rfl

/-- A frame that was decoded in this time. -/
def decodedIn (time : Nat) : FrameOp Unit Unit Unit := .fill ⟨none, none, none, time, 0⟩

theorem sizes_128_60 : Sizes 128 60 := ⟨⟨7, by decide, rfl⟩, by decide⟩

/-- The first read leaves out what is too long behind, and the second one goes round the end of the
ring. -/
theorem records_in_order_backlog : ∃ t,
    run (frameStep 128 60) newDecoder ((List.range 130).map decodedIn ++ [.get, .get]) = some t ∧
      t.reads.map (fun b => b.2.map VframeCounter.decodeTimeCost) =
        [List.range' 62 60, List.range' 122 8] ∧
      (t.reads.flatMap Prod.snd).Sublist t.filled := by
  obtain ⟨t, hr⟩ : ∃ t, run (frameStep 128 60) newDecoder
      ((List.range 130).map decodedIn ++ [.get, .get]) = some t := ⟨_, rfl⟩
  refine ⟨t, hr, ?_, (records_in_order sizes_128_60 newDecoder_start hr).1⟩
  rw [← Option.some.inj hr]
  decide +kernel

end

end MediaModules.FrameFifo
