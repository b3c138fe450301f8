import MediaModules.MediaSync.Parameters
import MediaModules.MediaSync.StcSample

/-!
# The cache between the packets and the frames

Without cached frames the duration of a cache is the distance from the current frame to the last
packet. Where the time stamps jump, the packet that jumps leaves a record, and the reader tells from signs
and thresholds of differences whether the frames are behind the jump. It clears the record when it takes
them to be, and also while there is no current frame at all; nobody writes it again.
-/
namespace MediaModules.MediaSync

open Lib.Run

/-- The two kinds of packets. -/
inductive Medium
  | audio | video
deriving DecidableEq, Repr

def MAX_CACHE_TIME_MS : Int := 60 * 1000

/-- The distance below which the last packet is taken for one behind a jump. -/
def Medium.lowest : Medium → Int
  | .audio => -27000
  | .video => -45000

/-- The longest duration that is believed while a jump is noted. -/
def Medium.limit : Medium → Int
  | .audio => MAX_CACHE_TIME_MS * 90 * 2
  | .video => MAX_CACHE_TIME_MS * 90

/-- `mediasync_discontinue_frame_info`. -/
structure DiscontinueFrameInfo where
  discontinuePtsBefore : Int := -1
  discontinuePtsAfter : Int := -1
  isDiscontinue : Int := 0
  lastDiscontinuePtsBefore : Int := -1
  lastDiscontinuePtsAfter : Int := -1
deriving DecidableEq, Repr

/-- What an instance keeps of both kinds of packets: the last and the first packet, the current frame,
the jump, the two update counts, and the duration reported last. -/
structure PacketSync where
  packetsPts : Int := -1
  firstPacketsPts : Int := -1
  curFramePts : Int := -1
  discontinueInfo : DiscontinueFrameInfo := {}
  cacheUpdateCount : Nat := 0
  getCacheUpdateCount : Nat := 0
  cacheDuration : Int := -1
deriving DecidableEq, Repr

namespace PacketSync

variable (s : PacketSync)

def countUpdate : PacketSync := { s with cacheUpdateCount := (s.cacheUpdateCount + 1) % COUNT_RANGE }

/-- A packet: one that is half a second away from the last one leaves a record. -/
def setPacketsInfo (packetsPts : Int) : PacketSync :=
  let d := s.discontinueInfo
  { s with
    discontinueInfo :=
      if s.packetsPts ≠ -1 ∧ getLlabs (s64 (packetsPts - s.packetsPts)) ≥ 45000 then
        { discontinuePtsBefore := s.packetsPts
          discontinuePtsAfter := packetsPts
          isDiscontinue := 1
          lastDiscontinuePtsBefore := d.discontinuePtsBefore
          lastDiscontinuePtsAfter := d.discontinuePtsAfter }
      else d
    packetsPts := packetsPts
    firstPacketsPts := if s.firstPacketsPts = -1 then packetsPts else s.firstPacketsPts }.countUpdate

/-- The current frame: `mediasync_ins_set_curaudioframeinfo`, and the same for video, without cached
frames. -/
def setCurFrameInfo (framePts : Int) : PacketSync :=
  { s with curFramePts := framePts }.countUpdate

/-- The record is cleared. -/
def clearDiscontinue : PacketSync :=
  let d := s.discontinueInfo
  if d.isDiscontinue = 1 then
    { s with discontinueInfo :=
      { discontinuePtsBefore := -1
        discontinuePtsAfter := -1
        isDiscontinue := 0
        lastDiscontinuePtsBefore := d.discontinuePtsBefore
        lastDiscontinuePtsAfter := d.discontinuePtsAfter } }
  else s

/-- The current frame is not far in front of the packet that jumped, or none did. -/
def isDiscontinueDone : Bool :=
  let diff := s64 (s.curFramePts - s.discontinueInfo.discontinuePtsAfter)
  !(s.discontinueInfo.discontinuePtsAfter ≠ -1 ∧ diff < 0 ∧ getLlabs diff > 45000)

/-- The two ends of the jump are there. -/
def hasRecord : Bool :=
  s.discontinueInfo.discontinuePtsAfter ≠ -1 ∧ s.discontinueInfo.discontinuePtsBefore ≠ -1

/-- The way from a time stamp to the jump; when the frame is not in front of it and an earlier jump is
known, from there to that one and on. -/
def beforeDiff (pts : Int) : Int :=
  let d := s.discontinueInfo
  let diff := s64 (d.discontinuePtsBefore - pts)
  if diff < 0 ∧ d.lastDiscontinuePtsBefore ≠ -1 ∧ d.lastDiscontinuePtsAfter ≠ -1 then
    s64 (s64 (d.lastDiscontinuePtsBefore - pts) +
      s64 (d.discontinuePtsBefore - d.lastDiscontinuePtsAfter))
  else diff

/-- The way from the jump to the last packet. -/
def afterDiff : Int := s64 (s.packetsPts - s.discontinueInfo.discontinuePtsAfter)

/-- The duration with a current frame. -/
def playing (m : Medium) : Int × PacketSync :=
  let cacheDuration := s64 (s.packetsPts - s.curFramePts)
  if cacheDuration > m.lowest ∧ s.isDiscontinueDone then
    (if cacheDuration > 0 then s32 cacheDuration else 0, s.clearDiscontinue)
  else if s.hasRecord then
    let cacheDuration := s32 (s64 (s.beforeDiff s.curFramePts + s.afterDiff))
    (if s.discontinueInfo.isDiscontinue ≠ 0 ∧ (cacheDuration < 0 ∨ cacheDuration > m.limit) then 0
      else cacheDuration, s)
  else (0, s)

/-- The duration while there is no current frame. -/
def waiting : Int × PacketSync :=
  if s.packetsPts > s.firstPacketsPts then
    (s32 (s64 (s.packetsPts - s.firstPacketsPts)), s.clearDiscontinue)
  else if s.hasRecord then
    (s32 (s64 (s64 (s.discontinueInfo.discontinuePtsBefore - s.firstPacketsPts) + s.afterDiff)), s)
  else (0, s)

/-- A query: the duration is computed again when the update counts differ. -/
def getCacheInfo (m : Medium) : Int × PacketSync :=
  if s.cacheUpdateCount = s.getCacheUpdateCount then (s.cacheDuration, s)
  else
    let s := { s with getCacheUpdateCount := s.cacheUpdateCount }
    let r := if s.curFramePts ≠ -1 then s.playing m else s.waiting
    (r.1, { r.2 with cacheDuration := r.1 })

end PacketSync

/-- The packets of an instance, of one kind, and the sizes that go with them. -/
structure AudioPackets extends PacketSync where
  cacheSize : Int := -1

structure VideoPackets extends PacketSync where
  cacheSize : Int := -1
  specialSizeCount : Int := 0

/-- `mediasync_videoinfo`. -/
structure VideoInfo where
  cacheSize : Int
  specialSizeCount : Int
  cacheDuration : Int
deriving DecidableEq, Repr

/-- `mediasync_ins_set_audio_packets_info_implementation`. -/
def AudioPackets.setAudioPacketsInfo (s : AudioPackets) (packetsPts : Int) : AudioPackets :=
  { s with toPacketSync := s.toPacketSync.setPacketsInfo packetsPts }

/-- `mediasync_ins_get_audio_cache_info_implementation`; the size is what the caller has in `info`. -/
def AudioPackets.getAudioCacheInfo (s : AudioPackets) (info : CacheInfo) : CacheInfo × AudioPackets :=
  let r := s.toPacketSync.getCacheInfo .audio
  if s.cacheUpdateCount = s.getCacheUpdateCount then (⟨s.cacheSize, r.1⟩, s)
  else (⟨info.cacheSize, r.1⟩, { toPacketSync := r.2, cacheSize := info.cacheSize })

/-- `mediasync_ins_set_video_packets_info_implementation`: small packets in a row are counted. -/
def VideoPackets.setVideoPacketsInfo (s : VideoPackets) (packetsPts packetsSize : Int) :
    VideoPackets :=
  { s with
    toPacketSync := s.toPacketSync.setPacketsInfo packetsPts
    specialSizeCount :=
      if s.specialSizeCount < 8 then if packetsSize < 15 then s.specialSizeCount + 1 else 0
      else s.specialSizeCount }

/-- `mediasync_ins_get_video_cache_info_implementation`. -/
def VideoPackets.getVideoCacheInfo (s : VideoPackets) : VideoInfo × VideoPackets :=
  let r := s.toPacketSync.getCacheInfo .video
  if s.cacheUpdateCount = s.getCacheUpdateCount then (⟨s.cacheSize, s.specialSizeCount, r.1⟩, s)
  else
    (⟨0, s.specialSizeCount, r.1⟩,
      { toPacketSync := r.2, cacheSize := 0, specialSizeCount := s.specialSizeCount })

/-- The calls for audio do to the packets what the shared ones do. -/
theorem audio_shared (s : AudioPackets) (pts : Int) (info : CacheInfo) :
    (s.setAudioPacketsInfo pts).toPacketSync = s.toPacketSync.setPacketsInfo pts ∧
      (s.getAudioCacheInfo info).1.cacheDuration = (s.toPacketSync.getCacheInfo .audio).1 ∧
      (s.getAudioCacheInfo info).2.toPacketSync = (s.toPacketSync.getCacheInfo .audio).2 := by
  refine ⟨rfl, ?_⟩
  by_cases hsame : s.cacheUpdateCount = s.getCacheUpdateCount
  · rw [AudioPackets.getAudioCacheInfo, PacketSync.getCacheInfo, if_pos hsame, if_pos hsame]
    exact ⟨rfl, rfl⟩
  · rw [AudioPackets.getAudioCacheInfo, if_neg hsame]
    exact ⟨rfl, rfl⟩

/-- So do those for video, whatever the sizes. -/
theorem video_shared (s : VideoPackets) (pts size : Int) :
    (s.setVideoPacketsInfo pts size).toPacketSync = s.toPacketSync.setPacketsInfo pts ∧
      s.getVideoCacheInfo.1.cacheDuration = (s.toPacketSync.getCacheInfo .video).1 ∧
      s.getVideoCacheInfo.2.toPacketSync = (s.toPacketSync.getCacheInfo .video).2 := by
  refine ⟨rfl, ?_⟩
  by_cases hsame : s.cacheUpdateCount = s.getCacheUpdateCount
  · rw [VideoPackets.getVideoCacheInfo, PacketSync.getCacheInfo, if_pos hsame, if_pos hsame]
    exact ⟨rfl, rfl⟩
  · rw [VideoPackets.getVideoCacheInfo, if_neg hsame]
    exact ⟨rfl, rfl⟩

/-! ## Runs -/

/-- A jump: the place of the packet that jumps, the time stamp before it and its own. -/
structure Jump where
  place : Nat
  before : Int
  after : Int
deriving DecidableEq, Repr

/-- The packets of one kind, the time stamps received so far, the jump among them, which of them the
current frame has, the updates since the last query, and what that reported, if it was behind an update
and there is a current frame. -/
structure PacketRun where
  sync : PacketSync := {}
  stream : List Int := []
  jump : Option Jump := none
  cur : Option Nat := none
  updates : Nat := 0
  reported : Option Int := none

inductive PacketOp
  | packet (pts : Int)
  | frame (place : Nat)
  | query

namespace PacketRun

variable (s : PacketRun)

/-- The last time stamp received. -/
def last : Int := s.stream.getLastD 0

/-- What is queued behind a frame. -/
def queuedBehind (place : Nat) : Int :=
  let pts := s.stream.getD place 0
  match s.jump with
  | none => s.last - pts
  | some g => if place < g.place then (g.before - pts) + (s.last - g.after) else s.last - pts

/-- What is queued behind the current frame. -/
def queued : Int := match s.cur with
  | none => 0
  | some place => s.queuedBehind place

end PacketRun

/-- One step; a frame has the time stamp of a packet that was received. -/
def packetStep (m : Medium) (s : PacketRun) : PacketOp → Option PacketRun
  | .packet pts => some
    { s with
      sync := s.sync.setPacketsInfo pts
      stream := s.stream ++ [pts]
      jump := if s.stream ≠ [] ∧ (45000 ≤ pts - s.last ∨ 45000 ≤ s.last - pts) then
        some ⟨s.stream.length, s.last, pts⟩ else s.jump
      updates := s.updates + 1
      reported := none }
  | .frame place => s.stream[place]?.map fun pts =>
    { s with
      sync := s.sync.setCurFrameInfo pts
      cur := some place
      updates := s.updates + 1
      reported := none }
  | .query =>
    let r := s.sync.getCacheInfo m
    some
      { s with
        sync := r.2
        updates := 0
        reported := if s.updates ≠ 0 ∧ s.cur.isSome then some r.1 else none }

/-- What was reported is what is queued. -/
def PacketRight (s : PacketRun) : Prop := ∀ d ∈ s.reported, d = s.queued

/-- The distance of the time stamps is a number of 64 bits. -/
abbrev Near (x y : Int) : Prop := x - y < 9223372036854775808 ∧ y - x < 9223372036854775808

instance (s : PacketRun) : Decidable (PacketRight s) :=
  inferInstanceAs (Decidable (∀ d ∈ s.reported, d = s.queued))

/-- The time stamps advance by less than half a second, but for one jump of at least that and twice the
duration `most`; none is the mark of a missing one, and their distances fit; a frame has the time stamp
of a packet that was received; and no more than `most` is queued at a query. -/
def OneJump (most : Nat) (s : PacketRun) : PacketOp → Prop
  | .packet pts => (pts ≠ -1 ∧ ∀ p ∈ s.stream, Near pts p) ∧ (s.stream ≠ [] →
    (s.last ≤ pts ∧ pts - s.last < 45000) ∨
      s.jump = none ∧
        (45000 + 2 * (most : Int) ≤ pts - s.last ∨ 45000 + 2 * (most : Int) ≤ s.last - pts))
  | .frame place => place < s.stream.length
  | .query => s.queued ≤ most

instance (most : Nat) (s : PacketRun) (op : PacketOp) : Decidable (OneJump most s op) :=
  match op with
  | .packet _ => inferInstanceAs (Decidable (_ ∧ (_ → _)))
  | .frame _ => inferInstanceAs (Decidable (_ < _))
  | .query => inferInstanceAs (Decidable (_ ≤ _))

/-- The jump is told at a query with the frame in front of it: the record is there, and the jump is not
forward by just half a second from the frame; or, with the record cleared, the jump is back and nothing
is queued, or it is forward and as long as the numbers of 32 bits. -/
def JumpTold (s : PacketRun) (place : Nat) (g : Jump) : Prop :=
  if s.sync.discontinueInfo.isDiscontinue = 1 then g.after ≠ s.stream.getD place 0 + 45000
  else if g.after < g.before then s.queuedBehind place = 0
  else (g.after - g.before) % 4294967296 = 0

instance (s : PacketRun) (place : Nat) (g : Jump) : Decidable (JumpTold s place g) :=
  inferInstanceAs (Decidable (ite _ _ _))

/-- A query behind an update tells the jump; and if the count has run round, what was reported last is
right again. -/
def QueryTold (s : PacketRun) : PacketOp → Prop
  | .query => s.updates ≠ 0 → ∀ place ∈ s.cur,
    if s.updates % COUNT_RANGE = 0 then s.sync.cacheDuration = s.queuedBehind place
    else ∀ g ∈ s.jump, place < g.place → JumpTold s place g
  | _ => True

instance (s : PacketRun) (op : PacketOp) : Decidable (QueryTold s op) :=
  match op with
  | .query => inferInstanceAs (Decidable (_ → ∀ place ∈ s.cur, ite _ _ _))
  | .packet _ | .frame _ => .isTrue trivial

/-- The record of a jump, while it is there and after it was cleared. -/
def Noted (g : Jump) (d : DiscontinueFrameInfo) : Prop :=
  d = ⟨g.before, g.after, 1, -1, -1⟩ ∨ d = ⟨-1, -1, 0, g.before, g.after⟩

/-- Where the jump is among the time stamps. -/
structure Jumped (most : Nat) (s : PacketRun) (g : Jump) : Prop where
  place : g.place < s.stream.length
  apart : 45000 + 2 * (most : Int) ≤ g.after - g.before ∨ 45000 + 2 * (most : Int) ≤ g.before - g.after
  received : g.before ∈ s.stream ∧ g.after ∈ s.stream
  inFront : ∀ i p, s.stream[i]? = some p → i < g.place → p ≤ g.before
  behind : ∀ i p, s.stream[i]? = some p → g.place ≤ i → g.after ≤ p ∧ p ≤ s.last
  noted : Noted g s.sync.discontinueInfo

/-- What the instance knows of the packets received. -/
structure Received (s : PacketRun) : Prop where
  fits : ∀ p ∈ s.stream, p ≠ -1 ∧ ∀ q ∈ s.stream, Near p q
  packets : s.sync.packetsPts = s.stream.getLastD (-1)
  first : s.sync.firstPacketsPts = s.stream.headD (-1)
  cur : ∀ place ∈ s.cur, ∃ pts, s.stream[place]? = some pts ∧ s.sync.curFramePts = pts
  counts : s.sync.getCacheUpdateCount < COUNT_RANGE ∧
    s.sync.cacheUpdateCount = (s.sync.getCacheUpdateCount + s.updates) % COUNT_RANGE

/-- What it knows of the jump among them. -/
structure Followed (most : Nat) (s : PacketRun) : Prop extends Received s where
  straight : s.jump = none → s.sync.discontinueInfo = {} ∧ ∀ p ∈ s.stream, p ≤ s.last
  jumped : ∀ g ∈ s.jump, Jumped most s g

/-! ## Queries -/

section Values

variable {m : Medium} {s : PacketSync} {g : Jump} {pts last : Int}

theorem s64_sub {x y : Int} (h : Near x y) : s64 (x - y) = x - y := by
  obtain ⟨hlt, hgt⟩ := h
  unfold s64
  omega

/-- How far the last packet is ahead of the current frame. -/
theorem packets_ahead (hcur : s.curFramePts = pts) (hlast : s.packetsPts = last)
    (hnear : Near last pts) : s64 (s.packetsPts - s.curFramePts) = last - pts := by
  rw [hcur, hlast, s64_sub hnear]

theorem lowest_bounds (m : Medium) : -45000 ≤ m.lowest ∧ m.lowest < 0 := by
  cases m <;> decide

theorem limit_le (m : Medium) : 5400000 ≤ m.limit := by
  cases m <;> decide

/-- Without the time stamp of a jump there is none to wait for. -/
theorem isDiscontinueDone_of_none (h : s.discontinueInfo.discontinuePtsAfter = -1) :
    s.isDiscontinueDone = true := by
  simp [PacketSync.isDiscontinueDone, h]

/-- The frame is in front of the jump only if that is more than half a second ahead. -/
theorem isDiscontinueDone_iff (hcur : s.curFramePts = pts)
    (hjump : s.discontinueInfo.discontinuePtsAfter = g.after)
    (hnone : g.after ≠ -1) (hnear : Near pts g.after) :
    s.isDiscontinueDone = true ↔ g.after ≤ pts + 45000 := by
  obtain ⟨hlt, hgt⟩ := id hnear
  have hlength : pts - g.after < 0 → getLlabs (pts - g.after) = g.after - pts := by
    intro hneg
    rw [getLlabs, if_neg (by omega)]
    unfold u64
    omega
  rw [PacketSync.isDiscontinueDone, hcur, hjump]
  simp only [s64_sub hnear, Bool.not_eq_true', decide_eq_false_iff_not]
  constructor
  · intro hnot
    by_contra hgt
    refine hnot ⟨by omega, by omega, ?_⟩
    rw [hlength (by omega)]
    omega
  · rintro hle ⟨-, hneg, hlong⟩
    rw [hlength hneg] at hlong
    omega

/-- The last packet is taken for one of the frame's own stretch. -/
theorem playing_straight (hlow : m.lowest < s64 (s.packetsPts - s.curFramePts))
    (hdone : s.isDiscontinueDone = true) :
    s.playing m = (if s64 (s.packetsPts - s.curFramePts) > 0 then
      s32 (s64 (s.packetsPts - s.curFramePts)) else 0, s.clearDiscontinue) := by
  simp only [PacketSync.playing]
  exact if_pos ⟨hlow, hdone⟩

/-- The packets of the frame's own stretch. -/
theorem playing_ahead (hcur : s.curFramePts = pts) (hlast : s.packetsPts = last)
    (hle : pts ≤ last) (hmost : last - pts < 5400000) (hdone : s.isDiscontinueDone = true) :
    (s.playing m).1 = last - pts := by
  have hdiff := packets_ahead hcur hlast ⟨by omega, by omega⟩
  have hlow := lowest_bounds m
  rw [playing_straight (by omega) hdone, hdiff]
  dsimp only
  split
  · unfold s32
    omega
  · omega

/-- The way round the jump, while its record is there. -/
theorem playing_record (hcur : s.curFramePts = pts) (hlast : s.packetsPts = last)
    (hrecord : s.discontinueInfo = ⟨g.before, g.after, 1, -1, -1⟩)
    (hnear : Near last pts) (hbefore : g.before ≠ -1) (hafter : g.after ≠ -1) (hfront : pts ≤ g.before)
    (hback : g.after ≤ last) (hmost : (g.before - pts) + (last - g.after) < 5400000)
    (hround : ¬ (m.lowest < last - pts ∧ s.isDiscontinueDone = true)) :
    (s.playing m).1 = (g.before - pts) + (last - g.after) := by
  have hlimit := limit_le m
  have hdiff := packets_ahead hcur hlast hnear
  have hhas : s.hasRecord = true := by
    rw [PacketSync.hasRecord, hrecord]
    simp only [decide_eq_true_eq]
    omega
  have hfrontDiff : s.beforeDiff s.curFramePts = g.before - pts := by
    rw [PacketSync.beforeDiff, hrecord, hcur]
    dsimp only
    rw [s64_sub ⟨by omega, by omega⟩, if_neg (by omega)]
  have hbackDiff : s.afterDiff = last - g.after := by
    rw [PacketSync.afterDiff, hrecord, hlast]
    dsimp only
    exact s64_sub ⟨by omega, by omega⟩
  have hsum : s32 (s64 ((g.before - pts) + (last - g.after))) =
      (g.before - pts) + (last - g.after) := by
    unfold s32 s64
    omega
  simp only [PacketSync.playing]
  rw [hdiff, if_neg hround, if_pos hhas, hfrontDiff, hbackDiff, hsum, if_neg (by omega)]

/-- With the record cleared, a jump back leaves nothing. -/
theorem playing_cleared (hcur : s.curFramePts = pts) (hlast : s.packetsPts = last)
    (hcleared : s.discontinueInfo.discontinuePtsAfter = -1)
    (hnear : Near last pts) (hback : last - pts ≤ -45000) : (s.playing m).1 = 0 := by
  have hlow := lowest_bounds m
  have hdiff := packets_ahead hcur hlast hnear
  have hnone : ¬ s.hasRecord = true := by
    rw [PacketSync.hasRecord, hcleared]
    simp
  simp only [PacketSync.playing]
  rw [hdiff, if_neg (by omega), if_neg hnone]

end Values

section Queries

variable {m : Medium} {most : Nat} {s : PacketRun} {place : Nat}

theorem getLastD_eq {l : List Int} (h : l ≠ []) (a b : Int) : l.getLastD a = l.getLastD b := by
  rw [List.getLastD_eq_getLast?, List.getLastD_eq_getLast?, List.getLast?_eq_some_getLast h]
  rfl

theorem last_mem (hne : s.stream ≠ []) : s.last ∈ s.stream := by
  rw [PacketRun.last, List.getLastD_eq_getLast?, List.getLast?_eq_some_getLast hne]
  exact List.getLast_mem hne

/-- The stretch a query is about. -/
structure Stands (s : PacketRun) (place : Nat) (pts : Int) : Prop where
  cur : s.sync.curFramePts = pts
  packets : s.sync.packetsPts = s.last
  at_place : s.stream[place]? = some pts
  received : pts ∈ s.stream
  ahead : s.last ∈ s.stream

theorem Followed.stands (h : Followed most s) (hcur : s.cur = some place) :
    ∃ pts, Stands s place pts := by
  obtain ⟨pts, hplace, hpts⟩ := h.cur place hcur
  have hne : s.stream ≠ [] := fun hnil => by
    rw [hnil] at hplace
    exact nomatch hplace
  refine ⟨pts, hpts, ?_, hplace, List.mem_of_getElem? hplace, last_mem hne⟩
  rw [h.packets, PacketRun.last]
  exact getLastD_eq hne _ _

theorem Stands.getD {pts : Int} (h : Stands s place pts) : s.stream.getD place 0 = pts := by
  rw [List.getD_eq_getElem?_getD, h.at_place]
  rfl

/-- With no jump, or with the frame behind it, what is reported is what is queued. -/
theorem playing_own {pts : Int} (h : Followed most s) (hs : Stands s place pts)
    (hown : ∀ g ∈ s.jump, g.place ≤ place) (hqueued : s.queuedBehind place ≤ most)
    (hmost : (most : Int) < 5400000) : (s.sync.playing m).1 = s.queuedBehind place := by
  rw [PacketRun.queuedBehind, hs.getD] at hqueued ⊢
  cases hjump : s.jump with
  | none =>
    rw [hjump] at hqueued
    obtain ⟨hrecord, hle⟩ := h.straight hjump
    have hdone : s.sync.isDiscontinueDone = true :=
      isDiscontinueDone_of_none (by rw [hrecord])
    exact playing_ahead hs.cur hs.packets (hle pts hs.received)
      (Int.lt_of_le_of_lt hqueued hmost) hdone
  | some g =>
    have hplace := hown g hjump
    have hj := h.jumped g hjump
    obtain ⟨hafter, hle⟩ := hj.behind place pts hs.at_place hplace
    have hdone : s.sync.isDiscontinueDone = true := by
      rcases hj.noted with hset | hcleared
      · obtain ⟨hnone, hnear⟩ := h.fits g.after hj.received.2
        refine (isDiscontinueDone_iff hs.cur (by rw [hset]) hnone (hnear pts hs.received).symm).mpr ?_
        omega
      · exact isDiscontinueDone_of_none (by rw [hcleared])
    rw [hjump] at hqueued
    dsimp only at hqueued ⊢
    rw [if_neg (Nat.not_lt.mpr hplace)] at hqueued ⊢
    exact playing_ahead hs.cur hs.packets hle
      (Int.lt_of_le_of_lt hqueued hmost) hdone

theorem Jumped.after_le {g : Jump} (h : Jumped most s g) : g.after ≤ s.last := by
  have hget := List.getElem?_eq_getElem h.place
  obtain ⟨hafter, hlast⟩ := h.behind _ _ hget (le_refl _)
  exact Int.le_trans hafter hlast

/-- With the frame in front of the jump, what is reported is what is queued exactly when the jump is
told. -/
theorem playing_told_iff {pts : Int} {g : Jump} (h : Followed most s) (hs : Stands s place pts)
    (hjump : s.jump = some g) (hplace : place < g.place) (hqueued : s.queuedBehind place ≤ most)
    (hmost : (most : Int) < 5400000) :
    (s.sync.playing m).1 = s.queuedBehind place ↔ JumpTold s place g := by
  have hj := h.jumped g hjump
  have hlow := lowest_bounds m
  obtain ⟨hbefore, -⟩ := h.fits g.before hj.received.1
  obtain ⟨hafter, hnearAfter⟩ := h.fits g.after hj.received.2
  have hnear : Near s.last pts := (h.fits s.last hs.ahead).2 pts hs.received
  have hfront := hj.inFront place pts hs.at_place hplace
  have hback := hj.after_le
  have hqueue : s.queuedBehind place = (g.before - pts) + (s.last - g.after) := by
    rw [PacketRun.queuedBehind, hs.getD, hjump]
    exact if_pos hplace
  have hapart := hj.apart
  have hdiff := packets_ahead hs.cur hs.packets hnear
  rw [JumpTold, hqueue, hs.getD]
  rw [hqueue] at hqueued
  rcases hj.noted with hset | hcleared
  · rw [if_pos (by rw [hset])]
    have hdone := isDiscontinueDone_iff (g := g) hs.cur (by rw [hset]) hafter
      (hnearAfter pts hs.received).symm
    by_cases hhalf : g.after = pts + 45000
    · refine iff_of_false ?_ (not_not.mpr hhalf)
      have htake : s32 (s.last - pts) = s.last - pts := by
        unfold s32
        omega
      rw [playing_straight (by omega) (hdone.mpr (by omega)), hdiff, htake]
      dsimp only
      rw [if_pos (by omega)]
      omega
    · refine iff_of_true (playing_record hs.cur hs.packets hset hnear hbefore hafter
        hfront hback (by omega) ?_) hhalf
      rw [hdone]
      omega
  · have hdone : s.sync.isDiscontinueDone = true := isDiscontinueDone_of_none (by rw [hcleared])
    rw [if_neg (by rw [hcleared]; exact Int.zero_ne_one)]
    by_cases hbackward : g.after < g.before
    · rw [if_pos hbackward, playing_cleared hs.cur hs.packets (by rw [hcleared]) hnear (by omega)]
      exact eq_comm
    · have htake : s32 (s.last - pts) = (g.before - pts) + (s.last - g.after) ↔
          (g.after - g.before) % 4294967296 = 0 := by
        unfold s32
        omega
      rw [if_neg hbackward, playing_straight (by omega) hdone, hdiff]
      dsimp only
      rw [if_pos (by omega)]
      exact htake

/-- What a query leaves alone, and what becomes of the record. -/
structure Asked (s t : PacketSync) : Prop where
  packets : t.packetsPts = s.packetsPts
  first : t.firstPacketsPts = s.firstPacketsPts
  cur : t.curFramePts = s.curFramePts
  count : t.cacheUpdateCount = s.cacheUpdateCount
  seen : t.getCacheUpdateCount = s.getCacheUpdateCount
  record : t.discontinueInfo = s.discontinueInfo ∨
    t.discontinueInfo = s.clearDiscontinue.discontinueInfo

theorem asked_clear (s : PacketSync) : Asked s s.clearDiscontinue := by
  refine ⟨?_, ?_, ?_, ?_, ?_, Or.inr rfl⟩
  all_goals
    rw [PacketSync.clearDiscontinue]
    split <;> rfl

theorem asked_self (s : PacketSync) : Asked s s :=
  ⟨rfl, rfl, rfl, rfl, rfl, Or.inl rfl⟩

theorem asked_playing (m : Medium) (s : PacketSync) : Asked s (s.playing m).2 := by
  simp only [PacketSync.playing]
  split
  · exact asked_clear s
  · split <;> exact asked_self s

theorem asked_waiting (s : PacketSync) : Asked s s.waiting.2 := by
  rw [PacketSync.waiting]
  split
  · exact asked_clear s
  · split <;> exact asked_self s

/-- A query has seen the count. -/
theorem asked_query (m : Medium) (s : PacketSync) :
    Asked { s with getCacheUpdateCount := s.cacheUpdateCount } (s.getCacheInfo m).2 := by
  rw [PacketSync.getCacheInfo]
  split
  · next heq => exact ⟨rfl, rfl, rfl, rfl, heq.symm, Or.inl rfl⟩
  · have hasked : Asked { s with getCacheUpdateCount := s.cacheUpdateCount }
        (if ({ s with getCacheUpdateCount := s.cacheUpdateCount } : PacketSync).curFramePts ≠ -1 then
          ({ s with getCacheUpdateCount := s.cacheUpdateCount } : PacketSync).playing m
        else ({ s with getCacheUpdateCount := s.cacheUpdateCount } : PacketSync).waiting).2 := by
      split
      · exact asked_playing m _
      · exact asked_waiting _
    exact ⟨hasked.packets, hasked.first, hasked.cur, hasked.count, hasked.seen, hasked.record⟩

theorem Noted.clear {g : Jump} {s : PacketSync} (h : Noted g s.discontinueInfo) :
    Noted g s.clearDiscontinue.discontinueInfo := by
  rw [PacketSync.clearDiscontinue]
  rcases h with hset | hcleared
  · rw [if_pos (by rw [hset]), hset]
    exact Or.inr rfl
  · rw [if_neg (by rw [hcleared]; exact Int.zero_ne_one)]
    exact Or.inr hcleared

theorem Followed.query (h : Followed most s) (m : Medium) (reported : Option Int) :
    Followed most
      { s with sync := (s.sync.getCacheInfo m).2, updates := 0, reported := reported } := by
  have hasked := asked_query m s.sync
  have hstraight (hd : s.sync.discontinueInfo = {}) :
      (s.sync.getCacheInfo m).2.discontinueInfo = {} := by
    rcases hasked.record with hsame | hclear
    · exact hsame.trans hd
    · rw [hclear, PacketSync.clearDiscontinue]
      dsimp only
      rw [hd, if_neg Int.zero_ne_one]
  have hnoted (g : Jump) (hg : Noted g s.sync.discontinueInfo) :
      Noted g (s.sync.getCacheInfo m).2.discontinueInfo := by
    rcases hasked.record with hsame | hclear
    · exact hsame ▸ hg
    · rw [hclear]
      exact Noted.clear (s := { s.sync with getCacheUpdateCount := s.sync.cacheUpdateCount }) hg
  have hlt : s.sync.cacheUpdateCount < COUNT_RANGE := by
    rw [h.counts.2]
    exact Nat.mod_lt _ (by decide)
  refine ⟨⟨h.fits, hasked.packets.trans h.packets, hasked.first.trans h.first, fun place hcur => ?_,
    ⟨?_, ?_⟩⟩, fun hnone => ⟨hstraight (h.straight hnone).1, (h.straight hnone).2⟩, fun g hg => ?_⟩
  · obtain ⟨pts, hplace, hpts⟩ := h.cur place hcur
    exact ⟨pts, hplace, hasked.cur.trans hpts⟩
  · exact hasked.seen ▸ hlt
  · rw [hasked.count, hasked.seen, Nat.add_zero]
    exact (Nat.mod_eq_of_lt hlt).symm
  · have hj := h.jumped g hg
    exact ⟨hj.place, hj.apart, hj.received, hj.inFront, hj.behind, hnoted g hj.noted⟩

theorem Received.counted (h : Received s) :
    (s.sync.cacheUpdateCount + 1) % COUNT_RANGE =
      (s.sync.getCacheUpdateCount + (s.updates + 1)) % COUNT_RANGE := by
  rw [h.counts.2, Nat.mod_add_mod, Nat.add_assoc]

/-- A frame with the time stamp of a packet that was received. -/
theorem Followed.frame (h : Followed most s) {pts : Int} (hplace : s.stream[place]? = some pts)
    (reported : Option Int) :
    Followed most
      { s with
        sync := s.sync.setCurFrameInfo pts
        cur := some place
        updates := s.updates + 1
        reported := reported } := by
  refine ⟨⟨h.fits, h.packets, h.first, fun place' hcur => ?_, ⟨h.counts.1, h.counted⟩⟩, h.straight,
    fun g hg => ?_⟩
  · obtain rfl := Option.some.inj hcur
    exact ⟨pts, hplace, rfl⟩
  · have hj := h.jumped g hg
    exact ⟨hj.place, hj.apart, hj.received, hj.inFront, hj.behind, hj.noted⟩

theorem last_concat {t : PacketRun} {l : List Int} {pts : Int} (h : t.stream = l ++ [pts]) :
    t.last = pts := by
  rw [PacketRun.last, h, List.getLastD_eq_getLast?, List.getLast?_concat]
  rfl

/-- The record after a packet that comes up behind others. -/
theorem setPacketsInfo_record (h : Followed most s) (hne : s.stream ≠ []) {pts : Int}
    (hpts : ∀ p ∈ s.stream, Near pts p) :
    (s.sync.setPacketsInfo pts).discontinueInfo =
      if 45000 ≤ pts - s.last ∨ 45000 ≤ s.last - pts then
        { discontinuePtsBefore := s.last
          discontinuePtsAfter := pts
          isDiscontinue := 1
          lastDiscontinuePtsBefore := s.sync.discontinueInfo.discontinuePtsBefore
          lastDiscontinuePtsAfter := s.sync.discontinueInfo.discontinuePtsAfter }
      else s.sync.discontinueInfo := by
  have hlast : s.sync.packetsPts = s.last := h.packets.trans (getLastD_eq hne _ _)
  have hreal := (h.fits _ (last_mem hne)).1
  have hnear := hpts _ (last_mem hne)
  have hdistance : getLlabs (s64 (pts - s.last)) ≥ 45000 ↔
      45000 ≤ pts - s.last ∨ 45000 ≤ s.last - pts := by
    obtain ⟨hlt, hgt⟩ := hnear
    rw [s64_sub ⟨hlt, hgt⟩, getLlabs]
    split
    · omega
    · unfold u64
      omega
  show (if s.sync.packetsPts ≠ -1 ∧ getLlabs (s64 (pts - s.sync.packetsPts)) ≥ 45000 then _ else _) = _
  rw [hlast]
  refine if_congr ⟨fun hboth => hdistance.mp hboth.2, fun hfar => ⟨hreal, hdistance.mpr hfar⟩⟩
    rfl rfl

/-- A time stamp of the longer stream. -/
theorem getElem?_concat {l : List Int} {i : Nat} {p pts : Int} (h : (l ++ [pts])[i]? = some p) :
    l[i]? = some p ∨ i = l.length ∧ p = pts := by
  rcases Nat.lt_or_ge i l.length with hlt | hge
  · rw [List.getElem?_append_left hlt] at h
    exact Or.inl h
  · rw [List.getElem?_append_right hge] at h
    have hi : i - l.length = 0 := by
      by_contra hpos
      rw [List.getElem?_eq_none (by simp only [List.length_singleton]; omega)] at h
      exact nomatch h
    rw [hi] at h
    exact Or.inr ⟨by omega, (Option.some.inj h).symm⟩

theorem Received.packet (h : Received s) {pts : Int} (hpts : pts ≠ -1 ∧ ∀ p ∈ s.stream, Near pts p)
    (jump : Option Jump) (reported : Option Int) :
    Received
      { s with
        sync := s.sync.setPacketsInfo pts
        stream := s.stream ++ [pts]
        jump := jump
        updates := s.updates + 1
        reported := reported } := by
  refine ⟨fun p hp => ?_, ?_, ?_, fun place hcur => ?_, h.counts.1, h.counted⟩
  · have hnew : ∀ q ∈ s.stream ++ [pts], Near pts q := by
      intro q hq
      rcases List.mem_append.mp hq with hq | hq
      · exact hpts.2 q hq
      · rw [List.mem_singleton.mp hq]
        exact ⟨by omega, by omega⟩
    rcases List.mem_append.mp hp with hp | hp
    · refine ⟨(h.fits p hp).1, fun q hq => ?_⟩
      rcases List.mem_append.mp hq with hq | hq
      · exact (h.fits p hp).2 q hq
      · rw [List.mem_singleton.mp hq]
        exact (hpts.2 p hp).symm
    · rw [List.mem_singleton.mp hp]
      exact ⟨hpts.1, hnew⟩
  · show pts = (s.stream ++ [pts]).getLastD (-1)
    rw [List.getLastD_eq_getLast?, List.getLast?_concat]
    rfl
  · show (if s.sync.firstPacketsPts = -1 then pts else s.sync.firstPacketsPts) =
      (s.stream ++ [pts]).headD (-1)
    rw [h.first]
    cases hstream : s.stream with
    | nil => rfl
    | cons p l =>
      have hp := (h.fits p (hstream ▸ List.mem_cons_self)).1
      show (if p = -1 then pts else p) = p
      exact if_neg hp
  · obtain ⟨pts', hplace, hpts'⟩ := h.cur place hcur
    have hlt : place < s.stream.length := (List.getElem?_eq_some_iff.mp hplace).1
    exact ⟨pts', (List.getElem?_append_left hlt).trans hplace, hpts'⟩

/-- The first packet. -/
theorem Followed.start (h : Followed most s) (hnil : s.stream = []) {pts : Int}
    (hpts : pts ≠ -1 ∧ ∀ p ∈ s.stream, Near pts p) (reported : Option Int) :
    Followed most
      { s with
        sync := s.sync.setPacketsInfo pts
        stream := s.stream ++ [pts]
        updates := s.updates + 1
        reported := reported } := by
  have hnone : s.jump = none := by
    cases hjump : s.jump with
    | none => rfl
    | some g =>
      have hplace := (h.jumped g hjump).place
      rw [hnil] at hplace
      exact absurd hplace (Nat.not_lt_zero _)
  have hunset : s.sync.packetsPts = -1 := by
    rw [h.packets, hnil]
    rfl
  have hrecord : (s.sync.setPacketsInfo pts).discontinueInfo = s.sync.discontinueInfo :=
    if_neg fun hboth => hboth.1 hunset
  refine ⟨h.packet hpts s.jump reported, fun _ => ⟨hrecord.trans (h.straight hnone).1, ?_⟩,
    fun g hg => ?_⟩
  · intro p hp
    rw [last_concat rfl]
    rw [hnil] at hp
    exact Int.le_of_eq (List.mem_singleton.mp hp)
  · exact absurd (hnone.symm.trans hg) nofun

theorem Followed.advance (h : Followed most s) (hne : s.stream ≠ []) {pts : Int}
    (hpts : pts ≠ -1 ∧ ∀ p ∈ s.stream, Near pts p) (hle : s.last ≤ pts) (hnear : pts - s.last < 45000)
    (reported : Option Int) :
    Followed most
      { s with
        sync := s.sync.setPacketsInfo pts
        stream := s.stream ++ [pts]
        updates := s.updates + 1
        reported := reported } := by
  have hrecord : (s.sync.setPacketsInfo pts).discontinueInfo = s.sync.discontinueInfo := by
    rw [setPacketsInfo_record h hne hpts.2]
    exact if_neg (by omega)
  refine ⟨h.packet hpts s.jump reported, fun hnone => ⟨hrecord.trans (h.straight hnone).1, ?_⟩,
    fun g hg => ?_⟩
  · intro p hp
    rw [last_concat rfl]
    rcases List.mem_append.mp hp with hp | hp
    · exact Int.le_trans ((h.straight hnone).2 p hp) hle
    · exact Int.le_of_eq (List.mem_singleton.mp hp)
  · have hj := h.jumped g hg
    refine ⟨?_, hj.apart, ?_, fun i p hi hlt => ?_, fun i p hi hge => ?_, hrecord ▸ hj.noted⟩
    · show g.place < (s.stream ++ [pts]).length
      rw [List.length_append]
      exact Nat.lt_add_right _ hj.place
    · exact ⟨List.mem_append_left _ hj.received.1, List.mem_append_left _ hj.received.2⟩
    · have hplace := hj.place
      rcases getElem?_concat hi with hold | ⟨rfl, -⟩
      · exact hj.inFront i p hold hlt
      · omega
    · rw [last_concat rfl]
      rcases getElem?_concat hi with hold | ⟨-, rfl⟩
      · obtain ⟨hafter, hp⟩ := hj.behind i p hold hge
        exact ⟨hafter, Int.le_trans hp hle⟩
      · exact ⟨Int.le_trans hj.after_le hle, le_refl _⟩

theorem Followed.jump (h : Followed most s) (hne : s.stream ≠ []) (hnone : s.jump = none) {pts : Int}
    (hpts : pts ≠ -1 ∧ ∀ p ∈ s.stream, Near pts p)
    (hfar : 45000 + 2 * (most : Int) ≤ pts - s.last ∨ 45000 + 2 * (most : Int) ≤ s.last - pts)
    (reported : Option Int) :
    Followed most
      { s with
        sync := s.sync.setPacketsInfo pts
        stream := s.stream ++ [pts]
        jump := some ⟨s.stream.length, s.last, pts⟩
        updates := s.updates + 1
        reported := reported } := by
  obtain ⟨hempty, hascending⟩ := h.straight hnone
  have hrecord : (s.sync.setPacketsInfo pts).discontinueInfo = ⟨s.last, pts, 1, -1, -1⟩ := by
    rw [setPacketsInfo_record h hne hpts.2, if_pos (by omega), hempty]
  refine ⟨h.packet hpts _ reported, nofun, fun g hg => ?_⟩
  obtain rfl := Option.some.inj hg
  have hends : s.last ∈ s.stream ++ [pts] ∧ pts ∈ s.stream ++ [pts] :=
    ⟨List.mem_append_left _ (last_mem hne), List.mem_append_right _ List.mem_cons_self⟩
  refine ⟨?_, hfar, hends, fun i p hi hlt => ?_, fun i p hi hge => ?_, Or.inl hrecord⟩
  · show s.stream.length < (s.stream ++ [pts]).length
    rw [List.length_append]
    exact Nat.lt_add_one _
  · rcases getElem?_concat hi with hold | ⟨rfl, -⟩
    · exact hascending p (List.mem_of_getElem? hold)
    · exact absurd hlt (lt_irrefl _)
  · show pts ≤ p ∧ p ≤ _
    rw [last_concat rfl]
    rcases getElem?_concat hi with hold | ⟨-, rfl⟩
    · have hlt := (List.getElem?_eq_some_iff.mp hold).1
      exact absurd hlt (Nat.not_lt.mpr hge)
    · exact ⟨le_refl _, le_refl _⟩

/-- The count that was seen does not matter to the duration. -/
theorem playing_seen (m : Medium) (s : PacketSync) (seen : Nat) :
    (({ s with getCacheUpdateCount := seen } : PacketSync).playing m).1 = (s.playing m).1 := by
  simp only [PacketSync.playing, apply_ite Prod.fst]
  rfl

/-- Behind an update, what is reported is what is queued exactly when the query tells it. -/
theorem reported_iff (h : Followed most s) (m : Medium) (hcur : s.cur = some place)
    (hqueued : s.queuedBehind place ≤ most) (hmost : (most : Int) < 5400000) :
    (s.sync.getCacheInfo m).1 = s.queuedBehind place ↔
      if s.updates % COUNT_RANGE = 0 then s.sync.cacheDuration = s.queuedBehind place
      else ∀ g ∈ s.jump, place < g.place → JumpTold s place g := by
  obtain ⟨pts, hs⟩ := h.stands hcur
  obtain ⟨hlt, hcount⟩ := h.counts
  have hrange : COUNT_RANGE = 4294967296 := rfl
  have hsame : s.sync.cacheUpdateCount = s.sync.getCacheUpdateCount ↔
      s.updates % COUNT_RANGE = 0 := by
    rw [hrange] at hlt hcount ⊢
    omega
  have hplaying : s.sync.curFramePts ≠ -1 := by
    rw [hs.cur]
    exact (h.fits pts hs.received).1
  rw [PacketSync.getCacheInfo]
  by_cases hround : s.updates % COUNT_RANGE = 0
  · rw [if_pos hround, if_pos (hsame.mpr hround)]
  · rw [if_neg hround, if_neg (mt hsame.mp hround)]
    dsimp only
    rw [if_pos hplaying, playing_seen]
    by_cases hfront : ∃ g ∈ s.jump, place < g.place
    · obtain ⟨g, hjump, hplace⟩ := hfront
      rw [playing_told_iff h hs hjump hplace hqueued hmost]
      refine ⟨fun htold g' hg' _ => ?_, fun hall => hall g hjump hplace⟩
      obtain rfl := Option.some.inj (Eq.trans (Eq.symm hjump) hg')
      exact htold
    · have hown : ∀ g ∈ s.jump, g.place ≤ place := fun g hg =>
        Nat.not_lt.mp fun hlt => hfront ⟨g, hg, hlt⟩
      exact iff_of_true (playing_own h hs hown hqueued hmost)
        fun g hg hlt => absurd ⟨g, hg, hlt⟩ hfront

theorem query_right_iff (h : Followed most s) (m : Medium) (hqueued : s.queued ≤ most)
    (hmost : (most : Int) < 5400000) {t : PacketRun} (ht : packetStep m s .query = some t) :
    PacketRight t ↔ QueryTold s .query := by
  obtain rfl := Option.some.inj ht
  by_cases hreports : s.updates ≠ 0 ∧ s.cur.isSome
  · obtain ⟨hupdates, hsome⟩ := hreports
    obtain ⟨place, hcur⟩ := Option.isSome_iff_exists.mp hsome
    have hvalue : s.queued = s.queuedBehind place := by rw [PacketRun.queued, hcur]
    have hiff := reported_iff h m hcur (hvalue ▸ hqueued) hmost
    have hright : PacketRight
        { s with
          sync := (s.sync.getCacheInfo m).2
          updates := 0
          reported := if s.updates ≠ 0 ∧ s.cur.isSome then some (s.sync.getCacheInfo m).1 else none } ↔
        (s.sync.getCacheInfo m).1 = s.queued := by
      rw [PacketRight]
      dsimp only
      rw [if_pos ⟨hupdates, hsome⟩]
      exact ⟨fun hall => hall _ rfl, fun heq d hd => Option.some.inj hd ▸ heq⟩
    have htold : QueryTold s .query ↔
        if s.updates % COUNT_RANGE = 0 then s.sync.cacheDuration = s.queuedBehind place
        else ∀ g ∈ s.jump, place < g.place → JumpTold s place g := by
      refine ⟨fun hall => hall hupdates place hcur, fun hone _ place' hplace' => ?_⟩
      obtain rfl := Option.some.inj (hcur.symm.trans hplace')
      exact hone
    rw [htold, ← hiff, ← hvalue]
    exact hright
  · refine iff_of_true (fun d hd => ?_) fun hupdates place hplace => ?_
    · dsimp only at hd
      rw [if_neg hreports] at hd
      exact nomatch hd
    · exact absurd ⟨hupdates, Option.isSome_iff_exists.mpr ⟨place, hplace⟩⟩ hreports

theorem followed_step (h : Followed most s) (m : Medium) {op : PacketOp} (hd : OneJump most s op) :
    ∃ t, packetStep m s op = some t ∧ Followed most t := by
  cases op with
  | packet pts =>
    refine ⟨_, rfl, ?_⟩
    obtain ⟨hpts, hnext⟩ := hd
    by_cases hne : s.stream = []
    · have hnot : ¬ (s.stream ≠ [] ∧ (45000 ≤ pts - s.last ∨ 45000 ≤ s.last - pts)) :=
        fun hboth => hboth.1 hne
      rw [if_neg hnot]
      exact h.start hne hpts none
    · rcases hnext hne with ⟨hle, hnear⟩ | ⟨hnone, hfar⟩
      · have hnot : ¬ (s.stream ≠ [] ∧ (45000 ≤ pts - s.last ∨ 45000 ≤ s.last - pts)) := by omega
        rw [if_neg hnot]
        exact h.advance hne hpts hle hnear none
      · have hjumps : s.stream ≠ [] ∧ (45000 ≤ pts - s.last ∨ 45000 ≤ s.last - pts) :=
          ⟨hne, by omega⟩
        rw [if_pos hjumps]
        exact h.jump hne hnone hpts hfar none
  | frame place =>
    have hplace := List.getElem?_eq_getElem hd
    refine ⟨_, by rw [packetStep, hplace]; rfl, h.frame hplace none⟩
  | query => exact ⟨_, rfl, h.query m _⟩

theorem right_unless_query {t : PacketRun} {op : PacketOp} (hop : op ≠ .query)
    (ht : packetStep m s op = some t) : PacketRight t := by
  cases op with
  | packet pts =>
    obtain rfl := Option.some.inj ht
    exact nofun
  | frame place =>
    obtain ⟨pts, -, rfl⟩ := Option.map_eq_some_iff.mp ht
    exact nofun
  | query => exact absurd rfl hop

end Queries

theorem followed_init (most : Nat) : Followed most {} where
  fits := nofun
  packets := rfl
  first := rfl
  cur := nofun
  counts := ⟨by decide, rfl⟩
  straight _ := ⟨rfl, nofun⟩
  jumped := nofun

/-- For packets of either kind with one jump among them, in every order of packets, frames and queries:
what is reported behind an update is always what is queued, exactly when every query tells the jump. -/
theorem packet_cache_right_iff (m : Medium) {most : Nat}
    (hmost : (most : Int) < MAX_CACHE_TIME_MS * 90) {ops : List PacketOp}
    (hd : Guarded (packetStep m) (OneJump most) {} ops) :
    ((∃ t, run (packetStep m) {} ops = some t) ∧ Always (packetStep m) PacketRight {} ops) ↔
      Guarded (packetStep m) QueryTold {} ops := by
  have hstep (s : PacketRun) (op : PacketOp) (h : Followed most s ∧ PacketRight s)
      (hdom : OneJump most s op) (hok : QueryTold s op) :
      ∃ t, packetStep m s op = some t ∧ Followed most t ∧ PacketRight t := by
    obtain ⟨t, ht, hfollowed⟩ := followed_step h.1 m hdom
    refine ⟨t, ht, hfollowed, ?_⟩
    by_cases hop : op = .query
    · subst hop
      exact (query_right_iff h.1 m hdom hmost ht).mpr hok
    · exact right_unless_query hop ht
  refine defined_iff_guarded_within (P := fun s => Followed most s ∧ PacketRight s)
    (fun s h => h.2) hstep (fun s op t h hdom hno ht hright => ?_) ⟨followed_init most, nofun⟩ hd
  have hop : op = .query := by
    by_contra hother
    cases op with
    | packet pts => exact hno trivial
    | frame place => exact hno trivial
    | query => exact hother rfl
  subst hop
  exact hno ((query_right_iff h.1 m hdom hmost ht).mp hright)

/-- A jump forward, asked for with the frame in front of it and behind it. -/
theorem packet_cache_right_forward :
    (∃ t, run (packetStep .audio) {} [.packet 90000, .packet 93600, .frame 0, .packet 9000000,
        .query, .frame 2, .query] = some t) ∧
      Always (packetStep .audio) PacketRight {} [.packet 90000, .packet 93600, .frame 0,
        .packet 9000000, .query, .frame 2, .query] := by
  have hmost : ((3600 : Nat) : Int) < MAX_CACHE_TIME_MS * 90 := by decide
  exact (packet_cache_right_iff .audio hmost (by decide)).mpr (by decide)

/-- A query before the first frame takes the jump for played, and clears its record. -/
theorem jump_forgotten : ¬ ∀ (m : Medium) (most : Nat) (ops : List PacketOp),
    (most : Int) < MAX_CACHE_TIME_MS * 90 → Guarded (packetStep m) (OneJump most) {} ops →
    (∃ t, run (packetStep m) {} ops = some t) ∧ Always (packetStep m) PacketRight {} ops := by
  intro hall
  obtain ⟨-, halways⟩ := hall .audio 3600 [.packet 90000, .packet 93600, .packet 9000000, .query,
    .frame 0, .query] (by decide) (by decide)
  exact absurd (always_last halways rfl) (by decide)

end MediaModules.MediaSync
