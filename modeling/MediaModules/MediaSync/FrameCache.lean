import MediaModules.Lib.Run
import MediaModules.Lib.NodeLists
import MediaModules.MediaSync.Types
import Mathlib.Data.List.Find

/-!
# Frame caching

Each of the two frame tables of an instance has a fixed set of records. A queued frame takes the
first free record; expired records go back to the free ones, and a full table is emptied. Video
frames are kept in the order of their time stamps.
-/
namespace MediaModules.MediaSync

open Lib.Run Lib.NodeLists

namespace FrameTable

variable (t : FrameTable)

/-- `clear_frame_list`. -/
def clearFrameList : FrameTable :=
  let last := { t.mLastQueued with
    framePts := -1, remainedduration := -1, frameid := u64 (-1), frameSystemTime := -1 }
  { t with
    freeList := t.freeList ++ t.validList
    validList := []
    mCacheInfo := ⟨0, 0⟩
    mFrameCount := 0
    currentFrameId := 1
    mLastQueued := last
    mLastProcessedPts := -1
    mMinPtsFrame := last }

/-- A valid record is moved to the end of the free list. -/
def expire (rec : Nat) : FrameTable :=
  { t with
    validList := t.validList.erase rec
    freeList := t.freeList ++ [rec]
    mFrameCount := t.mFrameCount - 1 }

/-- The time stamp of the first of the records, or what is read through the list head. -/
def ptsOf (behind : FrameInfoInner) : List Nat → Int
  | [] => behind.framePts
  | rec :: _ => (t.recs rec).framePts

/-! ## The audio table -/

/-- The loop of `check_apts_valid`. -/
def findAframe (pts : Int) : List Nat → Option Nat
  | [] => none
  | rec :: rest =>
    let f := t.recs rec
    if pts ≥ f.framePts ∧ pts < s64 (f.framePts + f.frameduration) then some rec
    else findAframe pts rest

/-- The time stamp lies in the frame queued last. -/
def inLastQueued (pts : Int) : Bool :=
  pts ≥ t.mLastQueued.framePts ∧
    pts < s64 (t.mLastQueued.framePts + t.mLastQueued.frameduration)

/-- `check_apts_valid`. -/
def checkAptsValid (pts : Int) : FrameInfoInner × FrameTable :=
  let r : FrameInfoInner × FrameTable :=
    if t.validList ≠ [] ∧ validPts pts then
      if pts = t.mLastCheckedPts ∧ t.mLastCheckedFrame.frameid ≠ 0 then (t.mLastCheckedFrame, t)
      else match t.findAframe pts t.validList with
        | some rec =>
          (t.recs rec, { t with mLastCheckedPts := pts, mLastCheckedFrame := t.recs rec })
        | none => (⟨-1, -1, 0, 0, 0⟩, t)
    else (⟨-1, -1, 0, 0, 0⟩, t)
  if r.1.frameid = 0 ∧ r.2.inLastQueued pts then (r.2.mLastQueued, r.2) else r

/-- The loop of `update_audio_cache`: the first record with an older number is expired, the one
with this number has its duration updated. -/
def expireAframe (behind : FrameInfoInner) (frameid pts : Int) : List Nat → FrameTable
  | [] => t
  | rec :: rest =>
    let f := t.recs rec
    let cache := t.mCacheInfo
    if f.frameid < frameid then
      let next := match rest with
        | [] => behind
        | next :: _ => t.recs next
      { t with
        mCacheInfo := { cache with cacheDuration := s32 (cache.cacheDuration - f.remainedduration) }
        mMinPtsFrame := next }.expire rec
    else if f.frameid = frameid then
      let g := { f with remainedduration := s32 (f.frameduration - s64 (pts - f.framePts)) }
      { t with
        recs := Function.update t.recs rec g
        mCacheInfo := { cache with
          cacheDuration := s32 (cache.cacheDuration - f.remainedduration + g.remainedduration) }
        mMinPtsFrame := g }
    else expireAframe behind frameid pts rest

/-- `update_audio_cache`. -/
def updateAudioCache (behind : FrameInfoInner)
    (pts durationAdd : Int) : FrameTable :=
  let cache := t.mCacheInfo
  if durationAdd > 0 then
    { t with mCacheInfo := { cache with cacheDuration := s32 (cache.cacheDuration + durationAdd) } }
  else if t.validList = [] ∨ !validPts pts then
    { t with mCacheInfo := { cache with
      cacheDuration :=
        if t.inLastQueued pts then s32 (s64 (pts - t.mLastQueued.framePts)) else 0 } }
  else
    let r := t.checkAptsValid pts
    if r.1.frameid ≠ 0 then r.2.expireAframe behind r.1.frameid pts r.2.validList else r.2

/-- A record for the audio frame queued last: the first free one, after the list is emptied if it
is full. -/
def pushAframe (behind : FrameInfoInner) (aAdd : Int) : Option FrameTable :=
  let t := if t.freeList = [] then t.clearFrameList else t
  match t.freeList with
  | [] => none
  | rec :: free =>
    let duration := if aAdd < DEFAULT_FRAME_SEGMENT_THRESHOLD then s32 aAdd
      else t.mLastQueued.frameduration
    let u := { t with
      recs := Function.update t.recs rec
        { framePts := t.mLastQueued.framePts
          frameSystemTime := t.mLastQueued.frameSystemTime
          frameid := t.mLastQueued.frameid
          frameduration := duration
          remainedduration := duration }
      freeList := free
      validList := t.validList ++ [rec]
      mFrameCount := t.mFrameCount + 1 }
    some (u.updateAudioCache behind u.mLastProcessedPts aAdd)

/-- The frame queued last is kept until the next one tells how long it is. -/
def setLastQueued (info : FrameInfo) (aAdd : Int) : FrameTable :=
  let last := t.mLastQueued
  let duration :=
    if validPts last.framePts ∧ absSub aAdd 0 < 22500 then
      if last.frameduration ≤ 0 then s32 aAdd else s32 (divU64 (last.frameduration + aAdd) 2)
    else last.frameduration
  let queued : FrameInfoInner :=
    { framePts := info.framePts
      frameSystemTime := info.frameSystemTime
      frameid := t.currentFrameId
      frameduration := duration
      remainedduration := -1 }
  { t with
    mLastQueued := queued
    mMinPtsFrame := if !validPts t.mMinPtsFrame.framePts ∨ t.mMinPtsFrame.framePts > info.framePts
      then queued else t.mMinPtsFrame
    currentFrameId := u64 (t.currentFrameId + 1) }

/-- `mediasync_ins_set_queue_audio_info_l`, on the table. -/
def queueAudio (behind : FrameInfoInner) (info : FrameInfo) : Option FrameTable :=
  let last := t.mLastQueued
  let aAdd :=
    if !validPts last.framePts then 0
    else if absSub info.framePts last.framePts > DEFAULT_TRIGGER_DISCONTINUE_THRESHOLD then
      last.frameduration
    else s64 (info.framePts - last.framePts)
  let pushed := if validPts last.framePts then t.pushAframe behind aAdd else some t
  pushed.map fun u => u.setLastQueued info aAdd

/-! ## The video table -/

/-- The loop of `check_vpts_valid`, from the last record to the first. -/
def findVframe (behind : FrameInfoInner) (pts : Int) : List Nat → Option Nat
  | [] => none
  | rec :: rest =>
    if pts ≥ (t.recs rec).framePts ∧ pts < t.ptsOf behind rest then some rec
    else findVframe behind pts rest

/-- `check_vpts_valid`: the number of the frame, 0 when there is none. -/
def checkVptsValid (behind : FrameInfoInner) (pts : Int) : Int × FrameTable :=
  if t.validList ≠ [] ∧ validPts pts then
    if pts = t.mLastCheckedPts ∧ t.mLastCheckedFrame.frameid ≠ 0 then
      (t.mLastCheckedFrame.frameid, t)
    else match t.findVframe behind pts t.validList.reverse with
      | some rec =>
        ((t.recs rec).frameid, { t with mLastCheckedPts := pts, mLastCheckedFrame := t.recs rec })
      | none => (0, t)
  else (0, t)

/-- The records with an older number are expired. -/
def expireVframes (frameid : Int) : List Nat → FrameTable → FrameTable
  | [], t => t
  | rec :: rest, t =>
    expireVframes frameid rest (if (t.recs rec).frameid < frameid then t.expire rec else t)

/-- What the loop over the segments of the video list keeps: the first and the last frame of the
segment, the part of it before the time stamp, and the duration it adds to the video info. -/
structure Segments where
  min : FrameInfoInner := ⟨-1, -1, 0, 0, 0⟩
  max : FrameInfoInner := ⟨-1, -1, 0, 0, 0⟩
  before : Int := 0
  added : Int := 0
  minPts : FrameInfoInner

/-- The time stamp lies in the segment. -/
def Segments.within (g : Segments) (pts : Int) : Segments :=
  if pts ≥ g.min.framePts ∧ pts ≤ g.max.framePts then
    { g with before := s64 (pts - g.min.framePts) }
  else g

/-- The earliest frame of the segment is later than the one noted. -/
def Segments.noteMin (g : Segments) : Segments :=
  if g.minPts.framePts < g.min.framePts then { g with minPts := g.min } else g

/-- The loop of `update_video_cache` over the segments. -/
def segments (pts : Int) : List Nat → Segments → Segments
  | [], g => g
  | rec :: rest, g =>
    let f := t.recs rec
    let g := if !validPts g.min.framePts then { g with min := f, max := f } else g
    segments pts rest <| match rest with
      | [] => g
      | next :: _ =>
        if s64 (f.framePts - (t.recs next).framePts) > DEFAULT_FRAME_SEGMENT_THRESHOLD then
          let added := s32 (g.added + s64 (g.max.framePts - g.min.framePts))
          let g := ({ g with added }.within pts).noteMin
          { g with min := t.recs next, max := t.recs next }
        else if f.framePts > g.max.framePts then { g with max := f }
        else if f.framePts < g.min.framePts then { g with min := f }
        else g

/-- `update_video_cache`; `duration` is the cache duration of the video info, which the loop adds
to. -/
def updateVideoCache (behind : FrameInfoInner) (pts duration : Int) : FrameTable × Int :=
  let cache := t.mCacheInfo
  if !validPts pts then ({ t with mCacheInfo := { cache with cacheDuration := 0 } }, duration)
  else
    let r := t.checkVptsValid behind pts
    let u := if r.1 ≠ 0 then expireVframes r.1 r.2.validList r.2 else r.2
    let g := (u.segments pts u.validList { added := duration, minPts := u.mMinPtsFrame }).within pts
    let g := g.noteMin
    let total := s32 (s64 (g.max.framePts - g.min.framePts) - g.before)
    ({ u with
      mMinPtsFrame := g.minPts
      mCacheInfo := { cache with cacheDuration := if total < 0 then 0 else total } }, g.added)

/-- The numbers of the records are handed on, each record taking that of the one before it. -/
def shiftIds (recs : Nat → FrameInfoInner) (id : Int) : List Nat → (Nat → FrameInfoInner) × Int
  | [] => (recs, id)
  | rec :: rest =>
    shiftIds (Function.update recs rec { recs rec with frameid := id }) (recs rec).frameid rest

/-- How far the time stamps jump back behind a record; behind the last one, `next` is the list head
itself. -/
def jumpBack (behind : FrameInfoInner) (rec : Nat) (rest : List Nat) : Int :=
  s64 ((t.recs rec).framePts - t.ptsOf behind rest)

/-- `frame_swapid_head` after a record: the record behind a long jump. -/
def swapHeadAfter (behind : FrameInfoInner) (swapHead rec : Nat) : List Nat → Nat
  | [] => swapHead
  | next :: rest =>
    if rest ≠ [] ∧ t.jumpBack behind rec (next :: rest) > DEFAULT_TRIGGER_DISCONTINUE_THRESHOLD
    then next else swapHead

/-- The loop of `insert_video_frame_to_list`: the records passed, those still to come, and the
record from which numbers are handed on. `none` when a record has the same time stamp: the frame is
linked nowhere. -/
def insertVframe (behind : FrameInfoInner) (frame : Nat) :
    List Nat → List Nat → Nat → Option ((Nat → FrameInfoInner) × List Nat)
  | passed, [], _ => some (t.recs, passed ++ [frame])
  | passed, rec :: rest, swapHead =>
    let pts := (t.recs frame).framePts
    let head := t.swapHeadAfter behind swapHead rec rest
    if pts = (t.recs rec).framePts then none
    else if pts > (t.recs rec).framePts then
      let recs :=
        -- `next` is not the last record
        if rest.length ≠ 1 ∧ t.jumpBack behind rec rest < DEFAULT_TRIGGER_DISCONTINUE_THRESHOLD then
          let shifted := shiftIds t.recs (t.recs frame).frameid
            ((passed ++ [rec]).dropWhile fun r => r ≠ head)
          Function.update shifted.1 frame { shifted.1 frame with frameid := shifted.2 }
        else t.recs
      some (recs, passed ++ frame :: rec :: rest)
    else insertVframe behind frame (passed ++ [rec]) rest head

/-- A free record takes the frame. -/
def claimFrame (info : FrameInfo) (frame : Nat) (free : List Nat) : FrameTable :=
  { t with
    recs := Function.update t.recs frame { t.recs frame with
      framePts := info.framePts
      frameSystemTime := info.frameSystemTime
      frameid := t.currentFrameId }
    freeList := free
    currentFrameId := u64 (t.currentFrameId + 1) }

/-- The frame is linked and counted. -/
def linkFrame (behind : FrameInfoInner) (frame : Nat) : FrameTable :=
  let linked := (t.insertVframe behind frame [] t.validList (t.validList.headD frame)).getD
    (t.recs, t.validList)
  let queued := linked.1 frame
  { t with
    recs := linked.1
    validList := linked.2
    mLastQueued := queued
    mMinPtsFrame :=
      if !validPts t.mMinPtsFrame.framePts ∨ t.mMinPtsFrame.framePts > queued.framePts
      then queued else t.mMinPtsFrame
    mFrameCount := t.mFrameCount + 1 }

/-- `insert_video_frame_to_list`. -/
def insertVideoFrame (behind : FrameInfoInner) (info : FrameInfo) : Option FrameTable :=
  let t := if t.freeList = [] then t.clearFrameList else t
  match t.freeList with
  | [] => none
  | frame :: free => some ((t.claimFrame info frame free).linkFrame behind frame)

/-- `mediasync_ins_set_queue_video_info_l`, on the table and the cache duration of the video
info. -/
def queueVideo (behind : FrameInfoInner) (info : FrameInfo) (duration : Int) :
    Option (FrameTable × Int) :=
  if validPts info.framePts then
    (t.insertVideoFrame behind info).map fun u =>
      u.updateVideoCache behind u.mLastProcessedPts duration
  else some (t, duration)

end FrameTable

/-- The two frame tables of an instance, whether frames are cached, and the cache duration of the
video info. -/
structure FrameCache where
  mCacheFrames : Int := 0
  audio : FrameTable := {}
  video : FrameTable := {}
  videoCacheDuration : Int := 0

/-- An operation; `behind` is what is read through the head of a list. -/
inductive CacheOp
  | queueAudio (info : FrameInfo) (behind : FrameInfoInner)
  | queueVideo (info : FrameInfo) (behind : FrameInfoInner)
  | curAudio (info : FrameInfo) (behind : FrameInfoInner)
  | curVideo (info : FrameInfo) (behind : FrameInfoInner)
  | firstAudio (info : FrameInfo)
  | firstVideo (info : FrameInfo)
  | firstQueueAudio (info : FrameInfo)
  | firstQueueVideo (info : FrameInfo)
  | setCacheFrames (cache : Int)
  | reset

namespace FrameCache

variable (s : FrameCache)

/-- `mediasync_ins_set_queue_audio_info`. -/
def setQueueAudioInfo (info : FrameInfo) (behind : FrameInfoInner) : Option FrameCache :=
  if s.mCacheFrames ≠ 0 then (s.audio.queueAudio behind info).map fun audio => { s with audio }
  else some s

/-- `mediasync_ins_set_queue_video_info`. -/
def setQueueVideoInfo (info : FrameInfo) (behind : FrameInfoInner) : Option FrameCache :=
  if s.mCacheFrames ≠ 0 then
    (s.video.queueVideo behind info s.videoCacheDuration).map fun r =>
      { s with video := r.1, videoCacheDuration := r.2 }
  else some s

/-- `mediasync_ins_set_curaudioframeinfo`. -/
def setCurAudioFrameInfo (info : FrameInfo) (behind : FrameInfoInner) : FrameCache :=
  let audio := { s.audio with mLastProcessedPts := info.framePts }
  if s.mCacheFrames ≠ 0 ∧ info.framePts ≠ -1 then
    { s with audio := audio.updateAudioCache behind info.framePts 0 }
  else { s with audio }

/-- `mediasync_ins_set_curvideoframeinfo`. -/
def setCurVideoFrameInfo (info : FrameInfo) (behind : FrameInfoInner) : FrameCache :=
  let video := { s.video with mLastProcessedPts := info.framePts }
  if s.mCacheFrames ≠ 0 ∧ info.framePts ≠ -1 then
    let r := video.updateVideoCache behind info.framePts s.videoCacheDuration
    { s with video := r.1, videoCacheDuration := r.2 }
  else { s with video }

/-- The frame information that stands for none. -/
def cleared (info : FrameInfo) : Bool := info.framePts = -1 ∧ info.frameSystemTime = -1

/-- `mediasync_ins_set_firstaudioframeinfo`. -/
def setFirstAudioFrameInfo (info : FrameInfo) : FrameCache :=
  if cleared info then { s with audio := s.audio.clearFrameList } else s

/-- `mediasync_ins_set_firstvideoframeinfo`. -/
def setFirstVideoFrameInfo (info : FrameInfo) : FrameCache :=
  if cleared info then { s with video := s.video.clearFrameList } else s

/-- `mediasync_ins_set_first_queue_audio_info`. -/
def setFirstQueueAudioInfo (info : FrameInfo) : FrameCache :=
  { s with audio := { s.audio with mFirstPacket := info } }.setFirstAudioFrameInfo info

/-- `mediasync_ins_set_first_queue_video_info`. -/
def setFirstQueueVideoInfo (info : FrameInfo) : FrameCache :=
  { s with video := { s.video with mFirstPacket := info } }.setFirstVideoFrameInfo info

/-- `mediasync_ins_reset`. -/
def reset : FrameCache :=
  { s with
    mCacheFrames := 0
    videoCacheDuration := -1
    audio := s.audio.clearFrameList
    video := s.video.clearFrameList }

end FrameCache

/-- One call; `none` takes a record from an empty list. -/
def cacheStep (s : FrameCache) : CacheOp → Option FrameCache
  | .queueAudio info behind => s.setQueueAudioInfo info behind
  | .queueVideo info behind => s.setQueueVideoInfo info behind
  | .curAudio info behind => some (s.setCurAudioFrameInfo info behind)
  | .curVideo info behind => some (s.setCurVideoFrameInfo info behind)
  | .firstAudio info => some (s.setFirstAudioFrameInfo info)
  | .firstVideo info => some (s.setFirstVideoFrameInfo info)
  | .firstQueueAudio info => some (s.setFirstQueueAudioInfo info)
  | .firstQueueVideo info => some (s.setFirstQueueVideoInfo info)
  | .setCacheFrames cache => some { s with mCacheFrames := cache }
  | .reset => some s.reset

/-- `VIDEO_FRAME_LIST_SIZE` and `AUDIO_FRAME_LIST_SIZE`. -/
def FRAME_LIST_SIZE : Nat := 16384

/-- The bytes of a page and of a record. -/
def PAGE_SIZE : Nat := 4096

def FRAME_REC_SIZE : Nat := 48

/-- The records `alloc_frame_list` puts on the free list: whole pages of them. -/
def allocatedRecs : Nat :=
  let pageNums := FRAME_LIST_SIZE * FRAME_REC_SIZE / PAGE_SIZE
  (FRAME_LIST_SIZE + pageNums + 1) * FRAME_REC_SIZE / PAGE_SIZE * (PAGE_SIZE / FRAME_REC_SIZE)

/-- The tables `mediasync_ins_alloc` leaves, with frame caching set. -/
def startCache (cache : Int) : FrameCache :=
  { mCacheFrames := cache
    audio := { freeList := List.range allocatedRecs : FrameTable }.clearFrameList
    video := { freeList := List.range allocatedRecs : FrameTable }.clearFrameList
    videoCacheDuration := -1 }

/-! ## Records -/

/-- Every record is in one of the two lists, once, and the valid ones are counted. -/
structure TableKept (n : Nat) (t : FrameTable) : Prop where
  records : Partition (List.range n) t.validList t.freeList
  counted : t.mFrameCount = t.validList.length

/-- Both tables keep their records. -/
structure CacheKept (s : FrameCache) : Prop where
  audio : TableKept allocatedRecs s.audio
  video : TableKept allocatedRecs s.video

/-- The time stamp is that of the first valid frame that is not later. -/
def SamePts (t : FrameTable) (pts : Int) : Prop :=
  ∃ rec, t.validList.find? (fun r => (t.recs r).framePts ≤ pts) = some rec ∧
    (t.recs rec).framePts = pts

/-- A video frame that is queued in a table with room has not the time stamp of the first valid
frame that is not later. -/
def DistinctPts (s : FrameCache) : CacheOp → Prop
  | .queueVideo info _ => s.mCacheFrames ≠ 0 → validPts info.framePts = true →
    ¬ (s.video.freeList ≠ [] ∧ SamePts s.video info.framePts)
  | _ => True

section Tables

variable {n : Nat} {t u : FrameTable}

theorem TableKept.congr (h : TableKept n t) (hvalid : u.validList = t.validList)
    (hfree : u.freeList = t.freeList) (hcount : u.mFrameCount = t.mFrameCount) :
    TableKept n u := by
  refine ⟨?_, ?_⟩
  · rw [hvalid, hfree]
    exact h.records
  · rw [hcount, hvalid]
    exact h.counted

theorem TableKept.processed (h : TableKept n t) (pts : Int) :
    TableKept n { t with mLastProcessedPts := pts } := ⟨h.records, h.counted⟩

theorem TableKept.nodup (h : TableKept n t) : t.validList.Nodup :=
  (List.nodup_append.mp (h.records.nodup List.nodup_range)).1

/-- A full table is emptied. -/
theorem TableKept.clear (h : TableKept n t) : TableKept n t.clearFrameList := by
  refine ⟨?_, rfl⟩
  show (t.freeList ++ t.validList).Perm (List.range n)
  exact List.perm_append_comm.trans h.records

theorem TableKept.expire (h : TableKept n t) {rec : Nat} (hrec : rec ∈ t.validList) :
    TableKept n (t.expire rec) := by
  refine ⟨h.records.release hrec, ?_⟩
  have hlen := List.length_erase_add_one hrec
  have hcount := h.counted
  show t.mFrameCount - 1 = ((t.validList.erase rec).length : Int)
  omega

theorem checkAptsValid_lists (t : FrameTable) (pts : Int) :
    (t.checkAptsValid pts).2.validList = t.validList ∧
      (t.checkAptsValid pts).2.freeList = t.freeList ∧
      (t.checkAptsValid pts).2.mFrameCount = t.mFrameCount := by
  have hfound : ∀ r : FrameInfoInner × FrameTable,
      (r.2.validList = t.validList ∧ r.2.freeList = t.freeList ∧
        r.2.mFrameCount = t.mFrameCount) →
      ((if r.1.frameid = 0 ∧ r.2.inLastQueued pts then (r.2.mLastQueued, r.2) else r).2.validList =
        t.validList ∧
      (if r.1.frameid = 0 ∧ r.2.inLastQueued pts then (r.2.mLastQueued, r.2) else r).2.freeList =
        t.freeList ∧
      (if r.1.frameid = 0 ∧ r.2.inLastQueued pts then (r.2.mLastQueued, r.2) else r).2.mFrameCount =
        t.mFrameCount) := by
    intro r hr
    split <;> exact hr
  apply hfound _
  split
  · split
    · exact ⟨rfl, rfl, rfl⟩
    · split <;> exact ⟨rfl, rfl, rfl⟩
  · exact ⟨rfl, rfl, rfl⟩

theorem TableKept.expireAframe (h : TableKept n t) (behind : FrameInfoInner)
    (frameid pts : Int) (recs : List Nat)
    (hrecs : ∀ rec ∈ recs, rec ∈ t.validList) :
    TableKept n (t.expireAframe behind frameid pts recs) := by
  induction recs with
  | nil => exact h
  | cons rec rest ih =>
    simp only [FrameTable.expireAframe]
    split
    · refine TableKept.expire ?_ (hrecs rec List.mem_cons_self)
      exact h.congr rfl rfl rfl
    · split
      · exact h.congr rfl rfl rfl
      · exact ih fun r hr => hrecs r (List.mem_cons_of_mem rec hr)

theorem TableKept.updateAudioCache (h : TableKept n t) (behind : FrameInfoInner)
    (pts durationAdd : Int) :
    TableKept n (t.updateAudioCache behind pts durationAdd) := by
  unfold FrameTable.updateAudioCache
  dsimp only
  split
  · exact h.congr rfl rfl rfl
  · split
    · exact h.congr rfl rfl rfl
    · obtain ⟨hvalid, hfree, hcount⟩ := checkAptsValid_lists t pts
      have hchecked := h.congr hvalid hfree hcount
      split
      · exact hchecked.expireAframe _ _ _ _ fun _ hr => hr
      · exact hchecked

/-- A table with records has a free one, once it is emptied when full. -/
theorem TableKept.room (h : TableKept n t) (hn : 0 < n) :
    ∃ u rec free, (if t.freeList = [] then t.clearFrameList else t) = u ∧
      u.freeList = rec :: free ∧ TableKept n u := by
  split
  · next hfree =>
    refine ⟨t.clearFrameList, ?_⟩
    have hlen := h.records.length_add
    rw [hfree, List.length_range] at hlen
    have hfree' : t.clearFrameList.freeList = t.freeList ++ t.validList := rfl
    rw [hfree, List.nil_append] at hfree'
    cases hvalid : t.validList with
    | nil =>
      rw [hvalid] at hlen
      exact absurd hlen (Nat.ne_of_lt hn)
    | cons rec rest => exact ⟨rec, rest, rfl, hfree'.trans hvalid, h.clear⟩
  · next hfree =>
    obtain ⟨rec, free, hcons⟩ := List.exists_cons_of_ne_nil hfree
    exact ⟨t, rec, free, rfl, hcons, h⟩

theorem TableKept.queueAudio (h : TableKept n t) (hn : 0 < n) (behind : FrameInfoInner)
    (info : FrameInfo) :
    ∃ u, t.queueAudio behind info = some u ∧ TableKept n u := by
  have hpush (aAdd : Int) : ∃ u, t.pushAframe behind aAdd = some u ∧ TableKept n u := by
    obtain ⟨u, rec, free, hu, hfree, hkept⟩ := h.room hn
    unfold FrameTable.pushAframe
    rw [hu]
    dsimp only
    rw [hfree]
    refine ⟨_, rfl, TableKept.updateAudioCache ⟨?_, ?_⟩ _ _ _⟩
    · have hpart := hkept.records
      rw [hfree] at hpart
      exact hpart.claim (List.perm_append_singleton rec u.validList)
    · have hcount := hkept.counted
      show u.mFrameCount + 1 = ((u.validList ++ [rec]).length : Int)
      rw [List.length_append, List.length_singleton]
      omega
  unfold FrameTable.queueAudio
  dsimp only
  generalize (if !validPts t.mLastQueued.framePts then 0
    else if absSub info.framePts t.mLastQueued.framePts > DEFAULT_TRIGGER_DISCONTINUE_THRESHOLD then
      t.mLastQueued.frameduration
    else s64 (info.framePts - t.mLastQueued.framePts)) = aAdd
  split
  · obtain ⟨u, hu, hkept⟩ := hpush aAdd
    rw [hu]
    exact ⟨_, rfl, hkept.congr rfl rfl rfl⟩
  · exact ⟨_, rfl, h.congr rfl rfl rfl⟩

/-! ## The video table -/

theorem checkVptsValid_lists (t : FrameTable) (behind : FrameInfoInner) (pts : Int) :
    (t.checkVptsValid behind pts).2.validList = t.validList ∧
      (t.checkVptsValid behind pts).2.freeList = t.freeList ∧
      (t.checkVptsValid behind pts).2.mFrameCount = t.mFrameCount := by
  unfold FrameTable.checkVptsValid
  split
  · split
    · exact ⟨rfl, rfl, rfl⟩
    · split <;> exact ⟨rfl, rfl, rfl⟩
  · exact ⟨rfl, rfl, rfl⟩

theorem TableKept.expireVframes (h : TableKept n t) (frameid : Int) (recs : List Nat)
    (hnodup : recs.Nodup) (hrecs : ∀ rec ∈ recs, rec ∈ t.validList) :
    TableKept n (FrameTable.expireVframes frameid recs t) := by
  induction recs generalizing t with
  | nil => exact h
  | cons rec rest ih =>
    obtain ⟨hnot, hnodup⟩ := List.nodup_cons.mp hnodup
    simp only [FrameTable.expireVframes]
    split
    · apply ih (h.expire (hrecs rec List.mem_cons_self)) hnodup
      intro r hr
      have hne : r ≠ rec := fun heq => hnot (heq ▸ hr)
      exact (List.mem_erase_of_ne hne).mpr (hrecs r (List.mem_cons_of_mem rec hr))
    · exact ih h hnodup fun r hr => hrecs r (List.mem_cons_of_mem rec hr)

theorem TableKept.updateVideoCache (h : TableKept n t) (behind : FrameInfoInner)
    (pts duration : Int) :
    TableKept n (t.updateVideoCache behind pts duration).1 := by
  unfold FrameTable.updateVideoCache
  dsimp only
  split
  · exact h.congr rfl rfl rfl
  · obtain ⟨hvalid, hfree, hcount⟩ := checkVptsValid_lists t behind pts
    have hchecked := h.congr hvalid hfree hcount
    split
    · have hexpired := hchecked.expireVframes (t.checkVptsValid behind pts).1 _ hchecked.nodup
        fun _ hr => hr
      exact hexpired.congr rfl rfl rfl
    · exact hchecked.congr rfl rfl rfl

/-- The frame is linked before the first record with an earlier time stamp, unless one before it has
the same. -/
theorem insertVframe_spec (t : FrameTable) (behind : FrameInfoInner) (frame : Nat)
    (passed rest : List Nat) (swapHead : Nat) :
    ((∃ rec, rest.find? (fun r => (t.recs r).framePts ≤ (t.recs frame).framePts) = some rec ∧
        (t.recs rec).framePts = (t.recs frame).framePts) ∧
      t.insertVframe behind frame passed rest swapHead = none) ∨
    ((∀ rec, rest.find? (fun r => (t.recs r).framePts ≤ (t.recs frame).framePts) = some rec →
        (t.recs rec).framePts ≠ (t.recs frame).framePts) ∧
      ∃ recs, t.insertVframe behind frame passed rest swapHead = some (recs, passed ++
        insertBefore (fun r => (t.recs r).framePts < (t.recs frame).framePts) frame rest)) := by
  induction rest generalizing passed swapHead with
  | nil => exact Or.inr ⟨nofun, _, rfl⟩
  | cons rec rest ih =>
    simp only [FrameTable.insertVframe, List.find?_cons, insertBefore]
    by_cases heq : (t.recs frame).framePts = (t.recs rec).framePts
    · refine Or.inl ⟨⟨rec, ?_, heq.symm⟩, if_pos heq⟩
      rw [decide_eq_true (Int.le_of_eq heq.symm)]
    · rw [if_neg heq]
      by_cases hgt : (t.recs frame).framePts > (t.recs rec).framePts
      · refine Or.inr ⟨fun r hr => ?_, ?_⟩
        · rw [decide_eq_true (Int.le_of_lt hgt)] at hr
          rw [← Option.some.inj hr]
          exact Ne.symm heq
        · rw [if_pos hgt, if_pos (decide_eq_true hgt)]
          exact ⟨_, rfl⟩
      · have hle : ¬ (t.recs rec).framePts ≤ (t.recs frame).framePts := by omega
        rw [if_neg hgt, decide_eq_false hle, if_neg (by simpa using hgt)]
        dsimp only
        have hrest := ih (passed ++ [rec]) (t.swapHeadAfter behind swapHead rec rest)
        rw [List.append_assoc] at hrest
        exact hrest

theorem linkFrame_linked (behind : FrameInfoInner) {frame : Nat}
    (h : ¬ SamePts t (t.recs frame).framePts) :
    (t.linkFrame behind frame).validList = insertBefore
        (fun r => (t.recs r).framePts < (t.recs frame).framePts) frame t.validList ∧
      (t.linkFrame behind frame).freeList = t.freeList ∧
      (t.linkFrame behind frame).mFrameCount = t.mFrameCount + 1 := by
  rcases insertVframe_spec t behind frame [] t.validList (t.validList.headD frame) with
    ⟨hsame, -⟩ | ⟨-, recs, hlink⟩
  · exact absurd hsame h
  · unfold FrameTable.linkFrame
    rw [hlink]
    exact ⟨rfl, rfl, rfl⟩

theorem linkFrame_lost (behind : FrameInfoInner) {frame : Nat}
    (h : SamePts t (t.recs frame).framePts) :
    (t.linkFrame behind frame).validList = t.validList ∧
      (t.linkFrame behind frame).freeList = t.freeList := by
  rcases insertVframe_spec t behind frame [] t.validList (t.validList.headD frame) with
    ⟨-, hlink⟩ | ⟨hdistinct, -⟩
  · unfold FrameTable.linkFrame
    rw [hlink]
    exact ⟨rfl, rfl⟩
  · obtain ⟨rec, hrec, hpts⟩ := h
    exact absurd hpts (hdistinct rec hrec)

theorem samePts_claimFrame (info : FrameInfo) {frame : Nat} (free : List Nat)
    (hframe : frame ∉ t.validList) :
    SamePts (t.claimFrame info frame free) ((t.claimFrame info frame free).recs frame).framePts ↔
      SamePts t info.framePts := by
  have hpts : ((t.claimFrame info frame free).recs frame).framePts = info.framePts := by
    show (Function.update t.recs frame _ frame).framePts = info.framePts
    rw [Function.update_self]
  have hrecs : ∀ r ∈ t.validList, (t.claimFrame info frame free).recs r = t.recs r := by
    intro r hr
    have hne : r ≠ frame := fun heq => hframe (heq ▸ hr)
    exact Function.update_of_ne hne ..
  have hfind : t.validList.find? (fun r =>
      ((t.claimFrame info frame free).recs r).framePts ≤ info.framePts) =
      t.validList.find? fun r => (t.recs r).framePts ≤ info.framePts :=
    List.find?_congr fun r hr => by rw [hrecs r hr]
  rw [hpts]
  unfold SamePts
  apply exists_congr
  intro rec
  show t.validList.find? _ = some rec ∧ _ ↔ _
  rw [hfind]
  apply and_congr_right
  intro hrec
  rw [hrecs rec (List.mem_of_find?_eq_some hrec)]

/-- The frame takes a free record. With a time stamp of its own it is linked, else the record is
lost. -/
theorem TableKept.insertVideoFrame (h : TableKept n t) (hn : 0 < n) (behind : FrameInfoInner)
    (info : FrameInfo) :
    ∃ u, t.insertVideoFrame behind info = some u ∧
      (¬ (t.freeList ≠ [] ∧ SamePts t info.framePts) → TableKept n u) ∧
      (t.freeList ≠ [] ∧ SamePts t info.framePts →
        u.validList.Nodup ∧ u.validList.length + u.freeList.length < n) := by
  obtain ⟨v, frame, free, hv, hfree, hkept⟩ := h.room hn
  have hpart := hkept.records
  rw [hfree] at hpart
  have hframe : frame ∉ v.validList := fun hmem =>
    hpart.not_mem_free List.nodup_range hmem List.mem_cons_self
  have hclaim := samePts_claimFrame info free hframe
  unfold FrameTable.insertVideoFrame
  rw [hv]
  dsimp only
  rw [hfree]
  refine ⟨_, rfl, fun hdistinct => ?_, fun hsame => ?_⟩
  · have hno : ¬ SamePts v info.framePts := by
      by_cases hfull : t.freeList = []
      · rw [if_pos hfull] at hv
        rw [← hv]
        exact fun hs => absurd hs.choose_spec.1 nofun
      · rw [if_neg hfull] at hv
        exact hv ▸ fun hs => hdistinct ⟨hfull, hs⟩
    obtain ⟨hlist, hrest, hcount⟩ :=
      linkFrame_linked behind (mt hclaim.mp hno)
    refine ⟨?_, ?_⟩
    · rw [hlist, hrest]
      exact hpart.claim (insertBefore_perm ..)
    · rw [hlist, hcount, insertBefore_length]
      have hold := hkept.counted
      show v.mFrameCount + 1 = ((v.validList.length + 1 : Nat) : Int)
      omega
  · obtain ⟨hne, hsame⟩ := hsame
    rw [if_neg hne] at hv
    obtain ⟨hlist, hrest⟩ := linkFrame_lost behind (hclaim.mpr (hv ▸ hsame))
    have hlen := hpart.length_add
    rw [List.length_range, List.length_cons] at hlen
    rw [hlist, hrest]
    refine ⟨hkept.nodup, ?_⟩
    show v.validList.length + free.length < n
    omega

theorem expireVframes_room (frameid : Int) (recs : List Nat) (t : FrameTable)
    (hnodup : recs.Nodup) (hrecs : ∀ rec ∈ recs, rec ∈ t.validList) :
    (FrameTable.expireVframes frameid recs t).validList.length +
      (FrameTable.expireVframes frameid recs t).freeList.length =
    t.validList.length + t.freeList.length := by
  induction recs generalizing t with
  | nil => rfl
  | cons rec rest ih =>
    obtain ⟨hnot, hnodup⟩ := List.nodup_cons.mp hnodup
    have hrec := hrecs rec List.mem_cons_self
    simp only [FrameTable.expireVframes]
    split
    · have hlen := List.length_erase_add_one hrec
      rw [ih (t.expire rec) hnodup fun r hr => ?_]
      · show (t.validList.erase rec).length + (t.freeList ++ [rec]).length = _
        rw [List.length_append, List.length_singleton]
        omega
      · have hne : r ≠ rec := fun heq => hnot (heq ▸ hr)
        exact (List.mem_erase_of_ne hne).mpr (hrecs r (List.mem_cons_of_mem rec hr))
    · exact ih t hnodup fun r hr => hrecs r (List.mem_cons_of_mem rec hr)

theorem updateVideoCache_room (hnodup : t.validList.Nodup) (behind : FrameInfoInner)
    (pts duration : Int) :
    (t.updateVideoCache behind pts duration).1.validList.length +
      (t.updateVideoCache behind pts duration).1.freeList.length =
    t.validList.length + t.freeList.length := by
  obtain ⟨hvalid, hfree, -⟩ := checkVptsValid_lists t behind pts
  unfold FrameTable.updateVideoCache
  dsimp only
  split
  · rfl
  · dsimp only
    split
    · rw [expireVframes_room _ _ _ (hvalid ▸ hnodup) fun _ hr => hr, hvalid, hfree]
    · rw [hvalid, hfree]

theorem TableKept.room_eq (h : TableKept n t) : t.validList.length + t.freeList.length = n := by
  have hlen := h.records.length_add
  rwa [List.length_range] at hlen

/-- A video frame is queued: the table keeps its records exactly with a time stamp of its own. -/
theorem TableKept.queueVideo (h : TableKept n t) (hn : 0 < n) (behind : FrameInfoInner)
    (info : FrameInfo) (duration : Int) :
    ∃ r, t.queueVideo behind info duration = some r ∧
      (TableKept n r.1 ↔
        (validPts info.framePts = true → ¬ (t.freeList ≠ [] ∧ SamePts t info.framePts))) := by
  unfold FrameTable.queueVideo
  by_cases hvalid : validPts info.framePts = true
  · obtain ⟨u, hu, hlinked, hlost⟩ := h.insertVideoFrame hn behind info
    rw [if_pos hvalid, hu]
    refine ⟨_, rfl, fun hkept _ hsame => ?_, fun hdistinct => ?_⟩
    · obtain ⟨hnodup, hlt⟩ := hlost hsame
      have hroom := hkept.room_eq
      rw [updateVideoCache_room hnodup] at hroom
      omega
    · exact (hlinked (hdistinct hvalid)).updateVideoCache _ _ _
  · rw [if_neg hvalid]
    exact ⟨_, rfl, iff_of_true h fun hv => absurd hv hvalid⟩

end Tables

section Steps

variable {s t : FrameCache}

theorem allocatedRecs_pos : 0 < allocatedRecs := by decide

theorem CacheKept.setFirstAudio (h : CacheKept s) (info : FrameInfo) :
    CacheKept (s.setFirstAudioFrameInfo info) := by
  unfold FrameCache.setFirstAudioFrameInfo
  split
  · exact ⟨h.audio.clear, h.video⟩
  · exact h

theorem CacheKept.setFirstVideo (h : CacheKept s) (info : FrameInfo) :
    CacheKept (s.setFirstVideoFrameInfo info) := by
  unfold FrameCache.setFirstVideoFrameInfo
  split
  · exact ⟨h.audio, h.video.clear⟩
  · exact h

/-- Every call is defined, and keeps the records unless it queues a video frame without a time stamp
of its own. -/
theorem cacheKept_step (h : CacheKept s) (op : CacheOp) :
    ∃ s', cacheStep s op = some s' ∧ (CacheKept s' ↔ DistinctPts s op) := by
  cases op with
  | queueAudio info behind =>
    by_cases hcache : s.mCacheFrames ≠ 0
    · obtain ⟨u, hu, hkept⟩ := h.audio.queueAudio allocatedRecs_pos behind info
      refine ⟨{ s with audio := u }, ?_, iff_of_true ⟨hkept, h.video⟩ trivial⟩
      show s.setQueueAudioInfo info behind = _
      unfold FrameCache.setQueueAudioInfo
      rw [if_pos hcache, hu]
      rfl
    · exact ⟨s, if_neg hcache, iff_of_true h trivial⟩
  | queueVideo info behind =>
    by_cases hcache : s.mCacheFrames ≠ 0
    · obtain ⟨r, hr, hkept⟩ :=
        h.video.queueVideo allocatedRecs_pos behind info s.videoCacheDuration
      refine ⟨{ s with video := r.1, videoCacheDuration := r.2 }, ?_, fun hk _ => ?_,
        fun hdistinct => ?_⟩
      · show s.setQueueVideoInfo info behind = _
        unfold FrameCache.setQueueVideoInfo
        rw [if_pos hcache, hr]
        rfl
      · exact hkept.mp hk.video
      · exact ⟨h.audio, hkept.mpr (hdistinct hcache)⟩
    · exact ⟨s, if_neg hcache, iff_of_true h fun hc => absurd hc hcache⟩
  | curAudio info behind =>
    refine ⟨_, rfl, iff_of_true ?_ trivial⟩
    have haudio := h.audio.processed info.framePts
    unfold FrameCache.setCurAudioFrameInfo
    dsimp only
    split
    · exact ⟨haudio.updateAudioCache behind info.framePts 0, h.video⟩
    · exact ⟨haudio, h.video⟩
  | curVideo info behind =>
    refine ⟨_, rfl, iff_of_true ?_ trivial⟩
    have hvideo := h.video.processed info.framePts
    unfold FrameCache.setCurVideoFrameInfo
    dsimp only
    split
    · exact ⟨h.audio, hvideo.updateVideoCache behind info.framePts s.videoCacheDuration⟩
    · exact ⟨h.audio, hvideo⟩
  | firstAudio info => exact ⟨_, rfl, iff_of_true (h.setFirstAudio info) trivial⟩
  | firstVideo info => exact ⟨_, rfl, iff_of_true (h.setFirstVideo info) trivial⟩
  | firstQueueAudio info =>
    refine ⟨_, rfl, iff_of_true (CacheKept.setFirstAudio ?_ info) trivial⟩
    exact ⟨h.audio.congr rfl rfl rfl, h.video⟩
  | firstQueueVideo info =>
    refine ⟨_, rfl, iff_of_true (CacheKept.setFirstVideo ?_ info) trivial⟩
    exact ⟨h.audio, h.video.congr rfl rfl rfl⟩
  | setCacheFrames cache => exact ⟨_, rfl, iff_of_true ⟨h.audio, h.video⟩ trivial⟩
  | reset => exact ⟨_, rfl, iff_of_true ⟨h.audio.clear, h.video.clear⟩ trivial⟩

end Steps

theorem tableKept_allocated (n : Nat) : TableKept n { freeList := List.range n } :=
  ⟨List.Perm.refl _, rfl⟩

theorem cacheKept_start (cache : Int) : CacheKept (startCache cache) := by
  have hkept := (tableKept_allocated allocatedRecs).clear
  exact ⟨hkept, hkept⟩

/-- No record is ever taken from an empty list, and every record is in one of the two lists and
counted right, exactly while no video frame is queued with the time stamp of a valid one. -/
theorem frames_kept (cache : Int) (ops : List CacheOp) :
    ((∃ t, run cacheStep (startCache cache) ops = some t) ∧
        Always cacheStep CacheKept (startCache cache) ops) ↔
      Guarded cacheStep DistinctPts (startCache cache) ops := by
  refine defined_iff_guarded (fun _ h => h) (fun s op h hok => ?_) (fun s op s' h hno hs' => ?_)
    (cacheKept_start cache)
  · obtain ⟨s', hs', hkept⟩ := cacheKept_step h op
    exact ⟨s', hs', hkept.mpr hok⟩
  · obtain ⟨s'', hs'', hkept⟩ := cacheKept_step h op
    rw [hs''] at hs'
    rw [← Option.some.inj hs']
    exact fun hk => hno (hkept.mp hk)

/-- The first frame of a table that was just allocated takes the first record. -/
theorem queueVideo_first (n : Nat) (duration : Int) :
    ∃ r, ({ freeList := List.range (n + 2) : FrameTable }.clearFrameList).queueVideo {} ⟨1, 0⟩
        duration = some r ∧
      r.1.freeList ≠ [] ∧ SamePts r.1 1 := by
  rw [List.range_eq_range', List.range'_succ, List.range'_succ]
  exact ⟨_, rfl, List.cons_ne_nil _ _, 0, rfl, rfl⟩

/-- The same video frame twice. -/
theorem frame_lost : ¬ ∀ ops, (∃ t, run cacheStep (startCache 1) ops = some t) ∧
    Always cacheStep CacheKept (startCache 1) ops := by
  intro h
  obtain ⟨n, hn⟩ : ∃ n, allocatedRecs = n + 2 := ⟨allocatedRecs - 2, by decide⟩
  obtain ⟨r, hr, hroom⟩ := queueVideo_first n (-1)
  rw [← hn] at hr
  have hcache : (startCache 1).mCacheFrames ≠ 0 := Int.one_ne_zero
  have hfirst : cacheStep (startCache 1) (.queueVideo ⟨1, 0⟩ {}) =
      some { startCache 1 with video := r.1, videoCacheDuration := r.2 } := by
    show (startCache 1).setQueueVideoInfo ⟨1, 0⟩ {} = _
    unfold FrameCache.setQueueVideoInfo
    have hvideo : (startCache 1).video.queueVideo {} ⟨1, 0⟩ (startCache 1).videoCacheDuration =
        some r := hr
    rw [if_pos hcache, hvideo]
    rfl
  obtain ⟨-, halways⟩ := h [.queueVideo ⟨1, 0⟩ {}, .queueVideo ⟨1, 0⟩ {}]
  have hsecond := halways.2 _ hfirst
  obtain ⟨last, hlast, hkept⟩ := cacheKept_step hsecond.1 (.queueVideo ⟨1, 0⟩ {})
  exact hkept.mp (hsecond.2 last hlast) hcache rfl hroom

end MediaModules.MediaSync
