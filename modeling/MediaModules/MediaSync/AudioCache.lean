import Mathlib.Algebra.BigOperators.Group.List.Basic
import MediaModules.MediaSync.FrameCache

/-!
# The duration of the audio cache

The cache duration of the audio table is a running total over the queued frames. Queueing a frame adds
the distance of two time stamps, whatever duration the frame gets; an update takes one expired frame
out, or else the played part of the frame with the time stamp.
-/
namespace MediaModules.MediaSync

open Lib.Run Lib.NodeLists

/-- The time stamp lies in the frame. -/
def Contains (f : FrameInfoInner) (pts : Int) : Prop :=
  f.framePts ≤ pts ∧ pts < f.framePts + f.frameduration

instance (f : FrameInfoInner) (pts : Int) : Decidable (Contains f pts) :=
  inferInstanceAs (Decidable (_ ∧ _))

/-- The part of the frame behind the time stamp. -/
def partAfter (f : FrameInfoInner) (pts : Int) : Int := f.frameduration - (pts - f.framePts)

/-- What is left of the frames of a list. -/
def left (recs : Nat → FrameInfoInner) (l : List Nat) : Int :=
  (l.map fun r => (recs r).remainedduration).sum

namespace FrameTable

variable (t : FrameTable)

/-- What is left of the valid frames. -/
def remaining : Int := left t.recs t.validList

/-- The number that `check_apts_valid` finds. -/
def foundId (pts : Int) : Int := (t.checkAptsValid pts).1.frameid

/-- The `a_add` of a frame that is queued. -/
def aAdd (info : FrameInfo) : Int :=
  if !validPts t.mLastQueued.framePts then 0
  else if absSub info.framePts t.mLastQueued.framePts > DEFAULT_TRIGGER_DISCONTINUE_THRESHOLD then
    t.mLastQueued.frameduration
  else s64 (info.framePts - t.mLastQueued.framePts)

/-- The table when there is a record to take. -/
def withRoom : FrameTable := if t.freeList = [] then t.clearFrameList else t

/-- The duration an update sets when it has no frame to look for. -/
def assigned (pts : Int) : Int :=
  if t.inLastQueued pts then s32 (s64 (pts - t.mLastQueued.framePts)) else 0

/-- No valid frame has the time stamp in it. -/
def NoneInside (pts : Int) : Prop := ∀ f ∈ t.validList, ¬ Contains (t.recs f) pts

/-- A valid frame with the time stamp in it is found, and it is the first, or it is the second behind
an older one and what is left of it is right already. -/
def Followed (pts : Int) : Prop :=
  ∀ f ∈ t.validList, Contains (t.recs f) pts → t.foundId pts ≠ 0 ∧
    (t.validList.head? = some f ∧ (t.recs f).frameid = t.foundId pts ∨
      ∃ first rest, t.validList = first :: f :: rest ∧ (t.recs first).frameid < t.foundId pts ∧
        (t.recs f).remainedduration = partAfter (t.recs f) pts)

/-- An update with this time stamp is right: with nothing to look for, what it sets is the total. -/
def Updatable (pts : Int) : Prop :=
  if t.validList = [] ∨ !validPts pts then t.assigned pts = s32 t.remaining ∧ t.NoneInside pts
  else t.Followed pts

/-- Queueing a frame is right: a positive distance is the duration of the frame that is pushed; without
one, that frame has none, or the total comes to the zero that is set. -/
structure Queueable (info : FrameInfo) : Prop where
  ahead : 0 < t.aAdd info →
    t.aAdd info < DEFAULT_FRAME_SEGMENT_THRESHOLD ∨ t.mLastQueued.frameduration = t.aAdd info
  processed : t.aAdd info ≤ 0 → validPts t.withRoom.mLastProcessedPts →
    t.aAdd info = 0 ∧ t.withRoom.Followed t.withRoom.mLastProcessedPts
  unprocessed : t.aAdd info ≤ 0 → ¬ validPts t.withRoom.mLastProcessedPts →
    s32 (t.withRoom.remaining + t.aAdd info) = 0 ∧
      t.withRoom.NoneInside t.withRoom.mLastProcessedPts

/-- The frames with the time stamp in them. -/
def inside (pts : Int) : List Nat := t.validList.filter fun f => Contains (t.recs f) pts

end FrameTable

/-- The tables, the time stamp of the update that was just made, and the audio frames that were queued
with it in them. -/
structure AudioRun where
  cache : FrameCache
  pts : Int := -1
  entered : List Nat := []

/-- The time stamp an operation updates the audio cache with, and the table it finds. -/
def audioUpdate (t : FrameTable) : CacheOp → Option (Int × FrameTable)
  | .queueAudio info _ =>
    if validPts t.mLastQueued.framePts ∧ t.aAdd info ≤ 0 then
      some (t.withRoom.mLastProcessedPts, t.withRoom)
    else none
  | .curAudio info _ => if info.framePts ≠ -1 then some (info.framePts, t) else none
  | _ => none

def audioStep (s : AudioRun) (op : CacheOp) : Option AudioRun :=
  (cacheStep s.cache op).map fun cache =>
    match audioUpdate s.cache.audio op with
    | none => { cache := cache }
    | some (pts, t) => { cache := cache, pts := pts, entered := t.inside pts }

/-- The duration of the cache is the total over the valid frames; and a frame that had the time stamp
of the update in it is now the first, with the part behind the time stamp left. -/
structure AudioRight (s : AudioRun) : Prop where
  total : s.cache.audio.mCacheInfo.cacheDuration = s32 s.cache.audio.remaining
  entered : ∀ f ∈ s.entered, s.cache.audio.validList.head? = some f ∧
    (s.cache.audio.recs f).remainedduration = partAfter (s.cache.audio.recs f) s.pts

/-- A frame with a positive time stamp is queued, or a time stamp is processed; and the table is one
that takes it right. -/
def AudioGuard (s : AudioRun) : CacheOp → Prop
  | .queueAudio info _ => 0 < info.framePts ∧
    (validPts s.cache.audio.mLastQueued.framePts → s.cache.audio.Queueable info)
  | .curAudio info _ => info.framePts ≠ -1 → s.cache.audio.Updatable info.framePts
  | _ => False

section Sums

variable {recs : Nat → FrameInfoInner} {l : List Nat} {rec : Nat} {g : FrameInfoInner}

theorem left_erase (hrec : rec ∈ l) :
    left recs (l.erase rec) = left recs l - (recs rec).remainedduration := by
  have hsum := List.sum_map_erase (fun r => (recs r).remainedduration) hrec
  simp only [left]
  omega

theorem left_congr {recs' : Nat → FrameInfoInner} (h : ∀ r ∈ l, recs' r = recs r) :
    left recs' l = left recs l := by
  simp only [left]
  rw [List.map_congr_left fun r hr => by rw [h r hr]]

theorem left_append (l l' : List Nat) : left recs (l ++ l') = left recs l + left recs l' := by
  simp only [left, List.map_append, List.sum_append]

/-- One record is rewritten. -/
theorem left_update (hnodup : l.Nodup) (hrec : rec ∈ l) :
    left (Function.update recs rec g) l =
      left recs l - (recs rec).remainedduration + g.remainedduration := by
  have hself : (Function.update recs rec g) rec = g := Function.update_self ..
  have hold : left recs (l.erase rec) = left recs l - (recs rec).remainedduration :=
    left_erase hrec
  have hnew : left (Function.update recs rec g) (l.erase rec) =
      left (Function.update recs rec g) l - ((Function.update recs rec g) rec).remainedduration :=
    left_erase hrec
  have hsame : left (Function.update recs rec g) (l.erase rec) = left recs (l.erase rec) :=
    left_congr fun r hr => Function.update_of_ne (fun heq => hnodup.not_mem_erase (heq ▸ hr)) ..
  rw [hself] at hnew
  omega

theorem s32_add_left (x y : Int) : s32 (s32 x + y) = s32 (x + y) := by
  unfold s32
  omega

end Sums

/-! ## Updates -/

section Updates

variable {n : Nat} {t u : FrameTable} {pts : Int}

/-- Looking for a frame changes nothing but what was looked for last. -/
theorem checkAptsValid_same (t : FrameTable) (pts : Int) :
    (t.checkAptsValid pts).2.validList = t.validList ∧ (t.checkAptsValid pts).2.recs = t.recs ∧
      (t.checkAptsValid pts).2.mCacheInfo = t.mCacheInfo ∧
      (t.checkAptsValid pts).2.mLastQueued = t.mLastQueued := by
  have hfound : ∀ r : FrameInfoInner × FrameTable,
      (r.2.validList = t.validList ∧ r.2.recs = t.recs ∧ r.2.mCacheInfo = t.mCacheInfo ∧
        r.2.mLastQueued = t.mLastQueued) →
      let last := if r.1.frameid = 0 ∧ r.2.inLastQueued pts then (r.2.mLastQueued, r.2) else r
      last.2.validList = t.validList ∧ last.2.recs = t.recs ∧ last.2.mCacheInfo = t.mCacheInfo ∧
        last.2.mLastQueued = t.mLastQueued := by
    intro r hr
    dsimp only
    split <;> exact hr
  apply hfound _
  split
  · split
    · exact ⟨rfl, rfl, rfl, rfl⟩
    · split <;> exact ⟨rfl, rfl, rfl, rfl⟩
  · exact ⟨rfl, rfl, rfl, rfl⟩

/-- The duration of the cache is the total. -/
def Total (t : FrameTable) : Prop := t.mCacheInfo.cacheDuration = s32 t.remaining

/-- The loop of the update takes from the duration what it takes from the total. -/
theorem expireAframe_total (h : Total t) (hnodup : t.validList.Nodup) (behind : FrameInfoInner)
    (frameid pts : Int) (l : List Nat) (hl : ∀ r ∈ l, r ∈ t.validList) :
    Total (t.expireAframe behind frameid pts l) := by
  induction l with
  | nil => exact h
  | cons rec rest ih =>
    have hrec := hl rec List.mem_cons_self
    have htotal : t.mCacheInfo.cacheDuration = s32 (left t.recs t.validList) := h
    simp only [FrameTable.expireAframe]
    split
    · show s32 (t.mCacheInfo.cacheDuration - (t.recs rec).remainedduration) =
        s32 (left t.recs (t.validList.erase rec))
      rw [left_erase hrec, htotal, Int.sub_eq_add_neg, s32_add_left]
      rfl
    · split
      · show s32 (t.mCacheInfo.cacheDuration - (t.recs rec).remainedduration + _) =
          s32 (left (Function.update t.recs rec _) t.validList)
        rw [left_update hnodup hrec, htotal, Int.sub_eq_add_neg, Int.add_assoc, s32_add_left,
          ← Int.add_assoc]
        rfl
      · exact ih fun r hr => hl r (List.mem_cons_of_mem rec hr)

/-- What an update leaves of the frames: their spans, and the frames of a list of the old ones. -/
theorem expireAframe_spans (t : FrameTable) (behind : FrameInfoInner) (frameid pts : Int)
    (l : List Nat) :
    (∀ r, ((t.expireAframe behind frameid pts l).recs r).frameduration =
        (t.recs r).frameduration) ∧
      (∀ r ∈ (t.expireAframe behind frameid pts l).validList, r ∈ t.validList) ∧
      (t.expireAframe behind frameid pts l).mLastQueued = t.mLastQueued := by
  induction l with
  | nil => exact ⟨fun _ => rfl, fun _ hr => hr, rfl⟩
  | cons rec rest ih =>
    simp only [FrameTable.expireAframe]
    split
    · exact ⟨fun _ => rfl, fun _ hr => List.mem_of_mem_erase hr, rfl⟩
    · split
      · refine ⟨fun r => ?_, fun _ hr => hr, rfl⟩
        by_cases hr : r = rec
        · subst hr
          simp only [Function.update_self]
        · simp only [Function.update_of_ne hr]
      · exact ih

/-- No frame is as long as 2^31 ticks. -/
structure Spans (t : FrameTable) : Prop where
  frames : ∀ r ∈ t.validList, (t.recs r).frameduration < 2147483648
  last : t.mLastQueued.frameduration < 2147483648

/-- The first frame is the one with the number: it keeps the part behind the time stamp. -/
theorem expireAframe_first (rest : List Nat) (behind : FrameInfoInner) {f : Nat}
    (hpts : Contains (t.recs f) pts) (hspan : (t.recs f).frameduration < 2147483648) :
    (t.expireAframe behind (t.recs f).frameid pts (f :: rest)).validList = t.validList ∧
      ((t.expireAframe behind (t.recs f).frameid pts (f :: rest)).recs f).remainedduration =
        partAfter ((t.expireAframe behind (t.recs f).frameid pts (f :: rest)).recs f) pts := by
  have hpart : s32 ((t.recs f).frameduration - s64 (pts - (t.recs f).framePts)) =
      partAfter (t.recs f) pts := by
    obtain ⟨hlow, hhigh⟩ := hpts
    unfold s32 s64 partAfter
    omega
  simp only [FrameTable.expireAframe, lt_irrefl, if_false, if_true]
  refine ⟨trivial, ?_⟩
  simp only [Function.update_self]
  exact hpart

/-- The first frame is older: it is expired, and nothing else happens. -/
theorem expireAframe_older (rest : List Nat) (behind : FrameInfoInner) (pts : Int) {first : Nat}
    {frameid : Int} (hold : (t.recs first).frameid < frameid) :
    (t.expireAframe behind frameid pts (first :: rest)).validList = t.validList.erase first ∧
      (t.expireAframe behind frameid pts (first :: rest)).recs = t.recs := by
  simp only [FrameTable.expireAframe, hold, if_true]
  exact ⟨rfl, rfl⟩

/-- The frames that had the time stamp in them are each the first, with the part behind it left. -/
def Entered (l : List Nat) (pts : Int) (t : FrameTable) : Prop :=
  ∀ f ∈ l, t.validList.head? = some f ∧
    (t.recs f).remainedduration = partAfter (t.recs f) pts

theorem mem_inside {f : Nat} : f ∈ t.inside pts ↔ f ∈ t.validList ∧ Contains (t.recs f) pts := by
  simp only [FrameTable.inside, List.mem_filter, decide_eq_true_eq]

/-- The loop of an update that has found a frame. -/
theorem expireAframe_entered (hspans : Spans t) (frameid : Int)
    (hfollowed : ∀ f ∈ t.validList, Contains (t.recs f) pts →
      t.validList.head? = some f ∧ (t.recs f).frameid = frameid ∨
      ∃ first rest, t.validList = first :: f :: rest ∧ (t.recs first).frameid < frameid ∧
        (t.recs f).remainedduration = partAfter (t.recs f) pts)
    (behind : FrameInfoInner) :
    Entered (t.inside pts) pts (t.expireAframe behind frameid pts t.validList) := by
  intro f hf
  obtain ⟨hmem, hcontains⟩ := mem_inside.mp hf
  obtain ⟨hhead, rfl⟩ | ⟨first, rest, hlist, hold, hleft⟩ := hfollowed f hmem hcontains
  · obtain ⟨rest, hlist⟩ := List.head?_eq_some_iff.mp hhead
    obtain ⟨hvalid, hpart⟩ := expireAframe_first rest behind hcontains (hspans.frames f hmem)
    rw [hlist]
    refine ⟨?_, hpart⟩
    rw [hvalid, hlist]
    rfl
  · obtain ⟨hvalid, hrecs⟩ := expireAframe_older (f :: rest) behind pts hold
    rw [hlist, hvalid, hrecs, hlist, List.erase_cons_head]
    exact ⟨rfl, hleft⟩

theorem update_looked {durationAdd : Int} (hadd : durationAdd ≤ 0) (hne : t.validList ≠ [])
    (hvalid : validPts pts) (h : Total t) (hnodup : t.validList.Nodup) (hspans : Spans t)
    (hfollowed : t.Followed pts) (behind : FrameInfoInner) :
    Total (t.updateAudioCache behind pts durationAdd) ∧
      Entered (t.inside pts) pts (t.updateAudioCache behind pts durationAdd) := by
  obtain ⟨hlist, hrecs, hcache, hlast⟩ := checkAptsValid_same t pts
  obtain ⟨r, hr⟩ : ∃ r, t.checkAptsValid pts = r := ⟨_, rfl⟩
  have heq : t.updateAudioCache behind pts durationAdd =
      if t.foundId pts ≠ 0 then r.2.expireAframe behind (t.foundId pts) pts r.2.validList
      else r.2 := by
    rw [FrameTable.updateAudioCache, if_neg (by omega), if_neg (by simp [hne, hvalid])]
    simp only [FrameTable.foundId, hr]
  rw [hr] at hlist hrecs hcache hlast
  have htotal : Total r.2 := by
    show r.2.mCacheInfo.cacheDuration = s32 (left r.2.recs r.2.validList)
    rw [hlist, hrecs, hcache]
    exact h
  rw [heq]
  by_cases hfound : t.foundId pts = 0
  · rw [if_neg (not_not.mpr hfound)]
    refine ⟨htotal, fun f hf => ?_⟩
    obtain ⟨hmem, hcontains⟩ := mem_inside.mp hf
    exact absurd hfound (hfollowed f hmem hcontains).1
  · rw [if_pos hfound]
    refine ⟨expireAframe_total htotal (hlist ▸ hnodup) _ _ _ _ fun _ hr => hr, ?_⟩
    have hinside : t.inside pts = r.2.inside pts := by
      simp only [FrameTable.inside, hlist, hrecs]
    rw [hinside]
    refine expireAframe_entered ⟨?_, hlast ▸ hspans.last⟩ _ (fun f hmem hcontains => ?_) behind
    · rw [hlist, hrecs]
      exact hspans.frames
    · rw [hlist] at hmem ⊢
      rw [hrecs] at hcontains ⊢
      exact (hfollowed f hmem hcontains).2

theorem update_unlooked {durationAdd : Int} (hadd : durationAdd ≤ 0)
    (hnone : t.validList = [] ∨ ¬ validPts pts) (h : t.assigned pts = s32 t.remaining)
    (hinside : t.NoneInside pts) (behind : FrameInfoInner) :
    Total (t.updateAudioCache behind pts durationAdd) ∧
      Entered (t.inside pts) pts (t.updateAudioCache behind pts durationAdd) := by
  have heq : t.updateAudioCache behind pts durationAdd =
      { t with mCacheInfo := { t.mCacheInfo with cacheDuration := t.assigned pts } } := by
    rw [FrameTable.updateAudioCache, if_neg (by omega), if_pos (by simpa using hnone)]
    rfl
  rw [heq]
  refine ⟨h, fun f hf => ?_⟩
  obtain ⟨hmem, hcontains⟩ := mem_inside.mp hf
  exact absurd hcontains (hinside f hmem)

theorem Spans.update (h : Spans t) (behind : FrameInfoInner) (pts durationAdd : Int) :
    Spans (t.updateAudioCache behind pts durationAdd) := by
  obtain ⟨hlist, hrecs, -, hlast⟩ := checkAptsValid_same t pts
  have hchecked : Spans (t.checkAptsValid pts).2 := by
    refine ⟨?_, hlast ▸ h.last⟩
    rw [hlist, hrecs]
    exact h.frames
  simp only [FrameTable.updateAudioCache]
  split
  · exact ⟨h.frames, h.last⟩
  split
  · exact ⟨h.frames, h.last⟩
  split
  · obtain ⟨hspan, hsub, hqueued⟩ := expireAframe_spans (t.checkAptsValid pts).2 behind
      (t.checkAptsValid pts).1.frameid pts (t.checkAptsValid pts).2.validList
    refine ⟨fun r hr => ?_, hqueued ▸ hchecked.last⟩
    rw [hspan]
    exact hchecked.frames r (hsub r hr)
  · exact hchecked

/-! ## Queueing -/

/-- A table after a record was pushed, before the update. -/
structure Pushed (w u : FrameTable) (rec : Nat) (duration : Int) : Prop where
  validList : u.validList = w.validList ++ [rec]
  fresh : rec ∉ w.validList
  nodup : u.validList.Nodup
  old : ∀ r ∈ w.validList, u.recs r = w.recs r
  pts : (u.recs rec).framePts = w.mLastQueued.framePts
  frameduration : (u.recs rec).frameduration = duration
  remainedduration : (u.recs rec).remainedduration = duration
  lastQueued : u.mLastQueued = w.mLastQueued
  cacheInfo : u.mCacheInfo = w.mCacheInfo
  processed : u.mLastProcessedPts = w.mLastProcessedPts
  checkedPts : u.mLastCheckedPts = w.mLastCheckedPts
  checkedFrame : u.mLastCheckedFrame = w.mLastCheckedFrame

/-- The duration the pushed frame gets. -/
def pushedDuration (t : FrameTable) (aAdd : Int) : Int :=
  if aAdd < DEFAULT_FRAME_SEGMENT_THRESHOLD then s32 aAdd else t.mLastQueued.frameduration

/-- The table with the record of the frame queued last at the end. -/
def pushedTable (w : FrameTable) (rec : Nat) (free : List Nat) (duration : Int) : FrameTable :=
  { w with
    recs := Function.update w.recs rec
      { framePts := w.mLastQueued.framePts
        frameSystemTime := w.mLastQueued.frameSystemTime
        frameid := w.mLastQueued.frameid
        frameduration := duration
        remainedduration := duration }
    freeList := free
    validList := w.validList ++ [rec]
    mFrameCount := w.mFrameCount + 1 }

theorem pushAframe_pushed (h : TableKept n t) (hn : 0 < n) (behind : FrameInfoInner) (aAdd : Int) :
    ∃ u rec, Pushed t.withRoom u rec (pushedDuration t aAdd) ∧
      t.pushAframe behind aAdd =
        some (u.updateAudioCache behind u.mLastProcessedPts aAdd) := by
  obtain ⟨w, rec, free, hw, hfree, hkept⟩ := h.room hn
  have hwith : t.withRoom = w := hw
  have hpart := hkept.records
  rw [hfree] at hpart
  have hrec : rec ∉ w.validList := fun hmem =>
    hpart.not_mem_free List.nodup_range hmem List.mem_cons_self
  have hlast : w.mLastQueued.frameduration = t.mLastQueued.frameduration := by
    rw [← hw]
    split <;> rfl
  have hpush : t.pushAframe behind aAdd =
      some ((pushedTable w rec free (pushedDuration t aAdd)).updateAudioCache behind
        w.mLastProcessedPts aAdd) := by
    rw [FrameTable.pushAframe, hw]
    dsimp only
    rw [hfree, hlast]
    rfl
  rw [hwith]
  refine ⟨pushedTable w rec free (pushedDuration t aAdd), rec,
    ⟨rfl, hrec, ?_, fun r hr => ?_, ?_, ?_, ?_, rfl, rfl, rfl, rfl, rfl⟩, hpush⟩
  · refine List.nodup_append.mpr ⟨hkept.nodup, List.pairwise_singleton _ _, fun r hr r' hr' => ?_⟩
    rw [List.mem_singleton.mp hr']
    exact fun heq => hrec (heq ▸ hr)
  · have hne : r ≠ rec := fun heq => hrec (heq ▸ hr)
    exact Function.update_of_ne hne ..
  · simp only [pushedTable, Function.update_self]
  · simp only [pushedTable, Function.update_self]
  · simp only [pushedTable, Function.update_self]

variable {w : FrameTable} {rec : Nat} {duration : Int}

theorem Pushed.remaining (h : Pushed w u rec duration) : u.remaining = w.remaining + duration := by
  have hone : left u.recs [rec] = duration := by
    simp only [left, List.map_cons, List.map_nil, List.sum_cons, List.sum_nil, h.remainedduration]
    omega
  rw [FrameTable.remaining, h.validList, left_append, left_congr h.old, hone]
  rfl

theorem Pushed.spans (h : Pushed w u rec duration) (hspans : Spans w)
    (hduration : duration < 2147483648) : Spans u := by
  refine ⟨fun r hr => ?_, h.lastQueued ▸ hspans.last⟩
  rw [h.validList] at hr
  rcases List.mem_append.mp hr with hold | hnew
  · rw [h.old r hold]
    exact hspans.frames r hold
  · rw [List.mem_singleton.mp hnew, h.frameduration]
    exact hduration

/-- A frame without a duration has no time stamp in it. -/
theorem Pushed.inside (h : Pushed w u rec 0) (pts : Int) : u.inside pts = w.inside pts := by
  have hlast : ¬ Contains (u.recs rec) pts := by
    intro hcontains
    have hlow := hcontains.1
    have hhigh := hcontains.2
    rw [h.frameduration] at hhigh
    omega
  rw [FrameTable.inside, h.validList, List.filter_append, List.filter_singleton,
    decide_eq_false hlast, cond_false, List.append_nil]
  apply List.filter_congr
  intro r hr
  rw [h.old r hr]

theorem findAframe_mem {l : List Nat} {r : Nat} (h : t.findAframe pts l = some r) : r ∈ l := by
  induction l with
  | nil => cases h
  | cons first rest ih =>
    simp only [FrameTable.findAframe] at h
    split at h
    · rw [Option.some.inj h]
      exact List.mem_cons_self
    · exact List.mem_cons_of_mem first (ih h)

/-- The search does not find a frame without a duration. -/
theorem findAframe_append {l : List Nat} (hold : ∀ r ∈ l, u.recs r = w.recs r)
    (hpts : -9223372036854775808 ≤ (u.recs rec).framePts)
    (hduration : (u.recs rec).frameduration = 0) :
    u.findAframe pts (l ++ [rec]) = w.findAframe pts l := by
  induction l with
  | nil =>
    refine if_neg ?_
    rw [hduration]
    unfold s64
    omega
  | cons first rest ih =>
    simp only [List.cons_append, FrameTable.findAframe, hold first List.mem_cons_self,
      ih fun r hr => hold r (List.mem_cons_of_mem first hr)]

/-- The frame that `check_apts_valid` finds among the valid ones. -/
def foundFrame (t : FrameTable) (pts : Int) : FrameInfoInner :=
  if t.validList ≠ [] ∧ validPts pts then
    if pts = t.mLastCheckedPts ∧ t.mLastCheckedFrame.frameid ≠ 0 then t.mLastCheckedFrame
    else ((t.findAframe pts t.validList).map t.recs).getD ⟨-1, -1, 0, 0, 0⟩
  else ⟨-1, -1, 0, 0, 0⟩

theorem foundId_eq (t : FrameTable) (pts : Int) : t.foundId pts =
    if (foundFrame t pts).frameid = 0 ∧ t.inLastQueued pts then t.mLastQueued.frameid
    else (foundFrame t pts).frameid := by
  have hlast (x : FrameInfoInner × FrameTable) (hx : x.2.mLastQueued = t.mLastQueued) :
      (if x.1.frameid = 0 ∧ x.2.inLastQueued pts then (x.2.mLastQueued, x.2) else x).1.frameid =
        if x.1.frameid = 0 ∧ t.inLastQueued pts then t.mLastQueued.frameid else x.1.frameid := by
    have hqueued : x.2.inLastQueued pts = t.inLastQueued pts := by
      simp only [FrameTable.inLastQueued, hx]
    rw [hqueued, hx]
    by_cases hqueue : x.1.frameid = 0 ∧ t.inLastQueued pts
    · rw [if_pos hqueue, if_pos hqueue]
    · rw [if_neg hqueue, if_neg hqueue]
  simp only [FrameTable.foundId, FrameTable.checkAptsValid, foundFrame]
  split
  · split
    · exact hlast _ rfl
    · cases t.findAframe pts t.validList <;> exact hlast _ rfl
  · exact hlast _ rfl

/-- What is found is what was found before. -/
theorem Pushed.foundId (h : Pushed w u rec 0) (hne : w.validList ≠ [])
    (hpts : -9223372036854775808 ≤ w.mLastQueued.framePts) (pts : Int) :
    u.foundId pts = w.foundId pts := by
  have hfind : u.findAframe pts u.validList = w.findAframe pts w.validList := by
    rw [h.validList]
    exact findAframe_append h.old (h.pts ▸ hpts) h.frameduration
  have hne' : u.validList ≠ [] := by
    rw [h.validList]
    exact List.append_ne_nil_of_right_ne_nil _ (List.cons_ne_nil _ _)
  have hrecs : (w.findAframe pts w.validList).map u.recs =
      (w.findAframe pts w.validList).map w.recs := by
    cases hf : w.findAframe pts w.validList with
    | none => rfl
    | some r => exact congrArg some (h.old r (findAframe_mem hf))
  have hframe : foundFrame u pts = foundFrame w pts := by
    simp only [foundFrame, hfind, hrecs, hne, hne', h.checkedPts, h.checkedFrame, ne_eq,
      not_false_eq_true]
  have hqueued : u.inLastQueued pts = w.inLastQueued pts := by
    simp only [FrameTable.inLastQueued, h.lastQueued]
  rw [foundId_eq, foundId_eq, hframe, hqueued, h.lastQueued]

/-- So a frame that could be followed still can. -/
theorem Pushed.followed (h : Pushed w u rec 0)
    (hpts : -9223372036854775808 ≤ w.mLastQueued.framePts) (hfollowed : w.Followed pts) :
    u.Followed pts := by
  intro f hf hcontains
  have hmem : f ∈ w.inside pts := h.inside pts ▸ mem_inside.mpr ⟨hf, hcontains⟩
  obtain ⟨hold, hcontains⟩ := mem_inside.mp hmem
  obtain ⟨hfound, hcase⟩ := hfollowed f hold hcontains
  rw [h.foundId (List.ne_nil_of_mem hold) hpts, h.old f hold, h.validList]
  refine ⟨hfound, hcase.imp (fun hfirst => ?_) fun hsecond => ?_⟩
  · obtain ⟨rest, hlist⟩ := List.head?_eq_some_iff.mp hfirst.1
    rw [hlist]
    exact ⟨rfl, hfirst.2⟩
  · obtain ⟨first, rest, hlist, holder, hleft⟩ := hsecond
    refine ⟨first, rest ++ [rec], by rw [hlist]; rfl, ?_, hleft⟩
    rw [h.old first (hlist ▸ List.mem_cons_self)]
    exact holder

theorem Total.withRoom (h : Total t) : Total t.withRoom := by
  rw [FrameTable.withRoom]
  split
  · rfl
  · exact h

theorem Spans.withRoom (h : Spans t) : Spans t.withRoom := by
  rw [FrameTable.withRoom]
  split
  · exact ⟨fun _ hr => absurd hr List.not_mem_nil, h.last⟩
  · exact h

theorem s32_lt (x : Int) : s32 x < 2147483648 := by
  unfold s32
  omega

theorem pushedDuration_lt (h : Spans t) (aAdd : Int) : pushedDuration t aAdd < 2147483648 := by
  rw [pushedDuration]
  split
  · exact s32_lt aAdd
  · exact h.last

theorem Spans.setLastQueued (h : Spans t) (info : FrameInfo) (aAdd : Int) :
    Spans (t.setLastQueued info aAdd) := by
  refine ⟨h.frames, ?_⟩
  simp only [FrameTable.setLastQueued]
  split
  · split
    · exact s32_lt _
    · exact s32_lt _
  · exact h.last

theorem Pushed.total_ahead {aAdd : Int} (h : Pushed w u rec (pushedDuration t aAdd)) (htotal : Total w)
    (hpos : 0 < aAdd)
    (hahead : aAdd < DEFAULT_FRAME_SEGMENT_THRESHOLD ∨ t.mLastQueued.frameduration = aAdd)
    (behind : FrameInfoInner) (pts : Int) : Total (u.updateAudioCache behind pts aAdd) := by
  have hduration : s32 (w.remaining + pushedDuration t aAdd) = s32 (w.remaining + aAdd) := by
    rw [pushedDuration]
    split
    · unfold s32
      omega
    · rw [hahead.resolve_left ‹_›]
  have hcache : w.mCacheInfo.cacheDuration = s32 w.remaining := htotal
  rw [FrameTable.updateAudioCache, if_pos hpos]
  show s32 (u.mCacheInfo.cacheDuration + aAdd) = s32 u.remaining
  rw [h.cacheInfo, hcache, h.remaining, hduration, s32_add_left]

/-- With a frame queued last, the table it is queued to has that frame, or was cleared. -/
theorem withRoom_last (hlast : validPts t.mLastQueued.framePts) :
    0 < t.withRoom.mLastQueued.framePts ∨
      (t.withRoom.mLastQueued.framePts = -1 ∧ t.withRoom.mLastProcessedPts = -1 ∧
        t.withRoom.remaining = 0) := by
  rw [FrameTable.withRoom]
  split
  · exact Or.inr ⟨rfl, rfl, rfl⟩
  · exact Or.inl (of_decide_eq_true hlast)

/-- A frame is pushed without a duration, while a time stamp is processed. -/
theorem Pushed.update_processed (h : Pushed w u rec 0) (htotal : Total w) (hspans : Spans w)
    (hpts : -9223372036854775808 ≤ w.mLastQueued.framePts) (hprocessed : validPts w.mLastProcessedPts)
    (hfollowed : w.Followed w.mLastProcessedPts) {aAdd : Int} (hnonpos : aAdd ≤ 0)
    (behind : FrameInfoInner) :
    Total (u.updateAudioCache behind u.mLastProcessedPts aAdd) ∧
      Entered (w.inside w.mLastProcessedPts) w.mLastProcessedPts
        (u.updateAudioCache behind u.mLastProcessedPts aAdd) := by
  have hne : u.validList ≠ [] := by
    rw [h.validList]
    exact List.append_ne_nil_of_right_ne_nil _ (List.cons_ne_nil _ _)
  have htotal' : Total u := by
    have hw : w.mCacheInfo.cacheDuration = s32 w.remaining := htotal
    rw [Total, h.cacheInfo, h.remaining, Int.add_zero, hw]
  rw [← h.inside, h.processed]
  exact update_looked hnonpos hne hprocessed htotal' h.nodup (h.spans hspans (by decide))
    (h.followed hpts hfollowed) behind

/-- A frame is pushed with a duration that takes the total to zero, while no time stamp is processed. -/
theorem Pushed.update_unprocessed {aAdd : Int} (h : Pushed w u rec (s32 aAdd))
    (hroom : 0 < w.mLastQueued.framePts ∨
      (w.mLastQueued.framePts = -1 ∧ w.mLastProcessedPts = -1 ∧ w.remaining = 0))
    (hprocessed : ¬ validPts w.mLastProcessedPts) (hnonpos : aAdd ≤ 0)
    (hsum : s32 (w.remaining + aAdd) = 0) (hnone : w.NoneInside w.mLastProcessedPts)
    (behind : FrameInfoInner) :
    Total (u.updateAudioCache behind u.mLastProcessedPts aAdd) ∧
      Entered (w.inside w.mLastProcessedPts) w.mLastProcessedPts
        (u.updateAudioCache behind u.mLastProcessedPts aAdd) := by
  have hp : w.mLastProcessedPts ≤ 0 := by simpa [validPts] using hprocessed
  have hrec : ¬ Contains (u.recs rec) w.mLastProcessedPts := by
    rintro ⟨hlow, hhigh⟩
    rw [h.pts] at hlow hhigh
    rw [h.frameduration] at hhigh
    rcases hroom with hpos | ⟨hpts, hpts', hrest⟩
    · omega
    · rw [hrest, Int.zero_add] at hsum
      omega
  have hinside : u.NoneInside w.mLastProcessedPts := by
    intro f hf
    rw [h.validList] at hf
    rcases List.mem_append.mp hf with hold | hnew
    · rw [h.old f hold]
      exact hnone f hold
    · rw [List.mem_singleton.mp hnew]
      exact hrec
  have hassigned : u.assigned w.mLastProcessedPts = s32 u.remaining := by
    have hzero : u.assigned w.mLastProcessedPts = 0 := by
      rw [FrameTable.assigned, FrameTable.inLastQueued, h.lastQueued]
      rcases hroom with hpos | ⟨hpts, hpts', -⟩
      · rw [if_neg (by simp only [decide_eq_true_eq]; omega)]
      · rw [hpts, hpts']
        split <;> rfl
    have hsum' : s32 (w.remaining + s32 aAdd) = s32 (w.remaining + aAdd) := by
      unfold s32
      omega
    rw [hzero, h.remaining, hsum', hsum]
  have hentered : w.inside w.mLastProcessedPts = [] :=
    List.filter_eq_nil_iff.mpr fun f hf => by simpa using hnone f hf
  rw [h.processed, hentered]
  exact ⟨(update_unlooked hnonpos (Or.inr hprocessed) hassigned hinside behind).1,
    fun f hf => absurd hf List.not_mem_nil⟩

theorem queueAudio_behind (h : TableKept n t) (hn : 0 < n) (htotal : Total t) (hspans : Spans t)
    {info : FrameInfo} (hlast : validPts t.mLastQueued.framePts) (hok : t.Queueable info)
    (behind : FrameInfoInner) :
    ∃ u, t.pushAframe behind (t.aAdd info) = some u ∧ Total u ∧ Spans u ∧
      (t.aAdd info ≤ 0 → Entered (t.withRoom.inside t.withRoom.mLastProcessedPts)
        t.withRoom.mLastProcessedPts u) := by
  obtain ⟨u, rec, hpushed, hpush⟩ := pushAframe_pushed h hn behind (t.aAdd info)
  have hspans' := (hpushed.spans hspans.withRoom (pushedDuration_lt hspans _)).update behind
    u.mLastProcessedPts (t.aAdd info)
  have hroom := withRoom_last hlast
  refine ⟨_, hpush, ?_⟩
  rcases Int.lt_or_le 0 (t.aAdd info) with hpos | hnonpos
  · exact ⟨hpushed.total_ahead htotal.withRoom hpos (hok.ahead hpos) behind _, hspans',
      fun hle => absurd hpos (Int.not_lt.mpr hle)⟩
  · have hboth : Total (u.updateAudioCache behind u.mLastProcessedPts (t.aAdd info)) ∧
        Entered (t.withRoom.inside t.withRoom.mLastProcessedPts) t.withRoom.mLastProcessedPts
          (u.updateAudioCache behind u.mLastProcessedPts (t.aAdd info)) := by
      by_cases hprocessed : validPts t.withRoom.mLastProcessedPts
      · obtain ⟨hzero, hfollowed⟩ := hok.processed hnonpos hprocessed
        have hduration : pushedDuration t (t.aAdd info) = 0 := by
          rw [hzero]
          rfl
        rw [hduration] at hpushed
        exact hpushed.update_processed htotal.withRoom hspans.withRoom (by omega) hprocessed
          hfollowed hnonpos behind
      · obtain ⟨hsum, hnone⟩ := hok.unprocessed hnonpos hprocessed
        have hduration : pushedDuration t (t.aAdd info) = s32 (t.aAdd info) :=
          if_pos (by show t.aAdd info < 45000; omega)
        rw [hduration] at hpushed
        exact hpushed.update_unprocessed hroom hprocessed hnonpos hsum hnone behind
    exact ⟨hboth.1, hspans', fun _ => hboth.2⟩

end Updates

/-! ## Runs -/

/-- Frames are cached, in a table that keeps its `n` records, and the cache is right. -/
structure AudioKept (n : Nat) (s : AudioRun) : Prop where
  cached : s.cache.mCacheFrames ≠ 0
  kept : TableKept n s.cache.audio
  spans : Spans s.cache.audio
  right : AudioRight s

section Runs

variable {n : Nat} {s : AudioRun}

/-- What was processed last does not matter to an update. -/
theorem updatable_processed {t : FrameTable} {pts : Int} (h : t.Updatable pts) (last : Int) :
    ({ t with mLastProcessedPts := last } : FrameTable).Updatable pts := by
  have hfind (l : List Nat) : ({ t with mLastProcessedPts := last } : FrameTable).findAframe pts l =
      t.findAframe pts l := by
    induction l with
    | nil => rfl
    | cons first rest ih => simp only [FrameTable.findAframe, ih]
  have hfound : ({ t with mLastProcessedPts := last } : FrameTable).foundId pts = t.foundId pts := by
    rw [foundId_eq, foundId_eq]
    simp only [foundFrame, hfind]
    rfl
  simp only [FrameTable.Updatable, FrameTable.Followed, hfound] at h ⊢
  exact h

theorem AudioKept.queue (h : AudioKept n s) (hn : 0 < n) {info : FrameInfo}
    (hok : validPts s.cache.audio.mLastQueued.framePts → s.cache.audio.Queueable info)
    (behind : FrameInfoInner) :
    ∃ s', audioStep s (.queueAudio info behind) = some s' ∧ AudioKept n s' := by
  obtain ⟨audio, hqueue, hkept⟩ := h.kept.queueAudio hn behind info
  have hstep : cacheStep s.cache (.queueAudio info behind) = some { s.cache with audio } := by
    show s.cache.setQueueAudioInfo info behind = _
    rw [FrameCache.setQueueAudioInfo, if_pos h.cached, hqueue]
    rfl
  have haudio : s.cache.audio.queueAudio behind info =
      (if validPts s.cache.audio.mLastQueued.framePts then
        s.cache.audio.pushAframe behind (s.cache.audio.aAdd info) else some s.cache.audio).map
          fun u => u.setLastQueued info (s.cache.audio.aAdd info) := rfl
  rw [audioStep, hstep]
  refine ⟨_, rfl, ?_⟩
  by_cases hlast : validPts s.cache.audio.mLastQueued.framePts
  · obtain ⟨u, hpush, htotal, hspans, hentered⟩ :=
      queueAudio_behind h.kept hn h.right.total h.spans hlast (hok hlast) behind
    rw [haudio, if_pos hlast, hpush] at hqueue
    obtain rfl := Option.some.inj hqueue
    by_cases hadd : s.cache.audio.aAdd info ≤ 0
    · have hupdate : audioUpdate s.cache.audio (.queueAudio info behind) =
          some (s.cache.audio.withRoom.mLastProcessedPts, s.cache.audio.withRoom) :=
        if_pos ⟨hlast, hadd⟩
      rw [hupdate]
      exact ⟨h.cached, hkept, hspans.setLastQueued _ _, htotal, hentered hadd⟩
    · have hupdate : audioUpdate s.cache.audio (.queueAudio info behind) = none :=
        if_neg fun hboth => hadd hboth.2
      rw [hupdate]
      exact ⟨h.cached, hkept, hspans.setLastQueued _ _, htotal,
        fun f hf => absurd hf List.not_mem_nil⟩
  · rw [haudio, if_neg hlast] at hqueue
    obtain rfl := Option.some.inj hqueue
    have hupdate : audioUpdate s.cache.audio (.queueAudio info behind) = none :=
      if_neg fun hboth => hlast hboth.1
    rw [hupdate]
    exact ⟨h.cached, hkept, h.spans.setLastQueued _ _, h.right.total,
      fun f hf => absurd hf List.not_mem_nil⟩

theorem AudioKept.process (h : AudioKept n s) {info : FrameInfo}
    (hok : info.framePts ≠ -1 → s.cache.audio.Updatable info.framePts) (behind : FrameInfoInner) :
    ∃ s', audioStep s (.curAudio info behind) = some s' ∧ AudioKept n s' := by
  obtain ⟨audio, haudio⟩ : ∃ audio, audio = { s.cache.audio with mLastProcessedPts := info.framePts } :=
    ⟨_, rfl⟩
  refine ⟨_, rfl, ?_⟩
  by_cases hpts : info.framePts = -1
  · have hcur : s.cache.setCurAudioFrameInfo info behind = { s.cache with audio } := by
      rw [FrameCache.setCurAudioFrameInfo, if_neg fun hboth => hboth.2 hpts, haudio]
    have hupdate : audioUpdate s.cache.audio (.curAudio info behind) = none :=
      if_neg (not_not.mpr hpts)
    rw [hcur, hupdate, haudio]
    exact ⟨h.cached, h.kept.processed _, ⟨h.spans.frames, h.spans.last⟩, h.right.total,
      fun f hf => absurd hf List.not_mem_nil⟩
  · have hcur : s.cache.setCurAudioFrameInfo info behind =
        { s.cache with audio := audio.updateAudioCache behind info.framePts 0 } := by
      rw [FrameCache.setCurAudioFrameInfo, if_pos ⟨h.cached, hpts⟩, haudio]
    have hupdate : audioUpdate s.cache.audio (.curAudio info behind) =
        some (info.framePts, s.cache.audio) := if_pos hpts
    have hspans : Spans audio := haudio ▸ ⟨h.spans.frames, h.spans.last⟩
    have hkept : TableKept n audio := haudio ▸ h.kept.processed _
    have hinside : s.cache.audio.inside info.framePts = audio.inside info.framePts := by
      rw [haudio]
      rfl
    have htotal : Total audio := haudio ▸ h.right.total
    have hupdatable : audio.Updatable info.framePts := haudio ▸ updatable_processed (hok hpts) _
    have hboth : Total (audio.updateAudioCache behind info.framePts 0) ∧
        Entered (audio.inside info.framePts) info.framePts
          (audio.updateAudioCache behind info.framePts 0) := by
      by_cases hnone : audio.validList = [] ∨ !validPts info.framePts
      · rw [FrameTable.Updatable, if_pos hnone] at hupdatable
        exact update_unlooked (le_refl _) (by simpa using hnone) hupdatable.1 hupdatable.2 behind
      · rw [FrameTable.Updatable, if_neg hnone] at hupdatable
        have hlook : audio.validList ≠ [] ∧ validPts info.framePts := by simpa using hnone
        exact update_looked (le_refl _) hlook.1 hlook.2 htotal hkept.nodup hspans hupdatable behind
    rw [hcur, hupdate]
    refine ⟨h.cached, hkept.updateAudioCache behind info.framePts 0,
      hspans.update behind info.framePts 0, hboth.1, ?_⟩
    show Entered (s.cache.audio.inside info.framePts) _ _
    rw [hinside]
    exact hboth.2

/-- In every run of queued and processed audio frames that meet the conditions, every call answers, and
after each the duration of the cache is the total over the valid frames, and no frame is left before
the one with the time stamp of the update, of which the part behind the time stamp is left. -/
theorem audio_cache_right {ops : List CacheOp} (hn : 0 < n) (h : AudioKept n s)
    (hguard : Guarded audioStep AudioGuard s ops) :
    (∃ u, run audioStep s ops = some u) ∧ Always audioStep AudioRight s ops := by
  have hstep (s : AudioRun) (op : CacheOp) (h : AudioKept n s) (hok : AudioGuard s op) :
      ∃ s', audioStep s op = some s' ∧ AudioKept n s' := by
    cases op with
    | queueAudio info behind => exact h.queue hn hok.2 behind
    | curAudio info behind => exact h.process hok behind
    | _ => exact absurd hok id
  obtain ⟨hdefined, halways⟩ := defined_of_guarded hstep h hguard
  exact ⟨hdefined, halways.imp fun _ h => h.right⟩

end Runs

/-- A table with eight records. -/
def eightRecs : AudioRun :=
  { cache := { mCacheFrames := 1, audio := { freeList := List.range 8 : FrameTable }.clearFrameList } }

theorem eightRecs_kept : AudioKept 8 eightRecs where
  cached := by decide
  kept := (tableKept_allocated 8).clear
  spans := ⟨fun _ hr => absurd hr List.not_mem_nil, by decide⟩
  right := ⟨rfl, fun _ hf => absurd hf List.not_mem_nil⟩

/-- A frame close behind the last one is queued. -/
def QueuesNear (s : AudioRun) : CacheOp → Prop
  | .queueAudio info _ => 0 < info.framePts ∧ (validPts s.cache.audio.mLastQueued.framePts →
      0 < s.cache.audio.aAdd info ∧ s.cache.audio.aAdd info < DEFAULT_FRAME_SEGMENT_THRESHOLD)
  | _ => False

instance (s : AudioRun) : (op : CacheOp) → Decidable (QueuesNear s op)
  | .queueAudio _ _ => inferInstanceAs (Decidable (_ ∧ (_ → _ ∧ _)))
  | .queueVideo _ _ | .curAudio _ _ | .curVideo _ _ => .isFalse id
  | .firstAudio _ | .firstVideo _ | .firstQueueAudio _ | .firstQueueVideo _ => .isFalse id
  | .setCacheFrames _ | .reset => .isFalse id

theorem QueuesNear.guard {s : AudioRun} {op : CacheOp} (h : QueuesNear s op) : AudioGuard s op := by
  cases op with
  | queueAudio info behind =>
    refine ⟨h.1, fun hlast => ?_⟩
    obtain ⟨hahead, hnear⟩ := h.2 hlast
    exact ⟨fun _ => Or.inl hnear, fun hle => absurd hahead (Int.not_lt.mpr hle),
      fun hle => absurd hahead (Int.not_lt.mpr hle)⟩
  | _ => exact h.elim

/-- Frames of 1920 ticks are queued. -/
def fourQueued : List CacheOp := [.queueAudio ⟨3600, 0⟩ {}, .queueAudio ⟨5520, 0⟩ {},
  .queueAudio ⟨7440, 0⟩ {}, .queueAudio ⟨9360, 0⟩ {}]

/-- The start of the second of four frames is processed: the first expires. -/
theorem audio_cache_right_fourQueued :
    (∃ u, run audioStep eightRecs (fourQueued ++ [.curAudio ⟨5520, 0⟩ {}]) = some u ∧
      u.cache.audio.validList = [1, 2]) ∧
      Always audioStep AudioRight eightRecs (fourQueued ++ [.curAudio ⟨5520, 0⟩ {}]) := by
  have hqueued : Guarded audioStep QueuesNear eightRecs fourQueued := by decide +kernel
  obtain ⟨t, hr⟩ : ∃ t, run audioStep eightRecs fourQueued = some t := ⟨_, rfl⟩
  have hlist : t.cache.audio.validList = [0, 1, 2] :=
    read_of_run (fun t => t.cache.audio.validList) (by decide +kernel) hr
  have hfound : t.cache.audio.foundId 5520 = 2 :=
    read_of_run (fun t => t.cache.audio.foundId 5520) (by decide +kernel) hr
  have hinside : t.cache.audio.inside 5520 = [1] :=
    read_of_run (fun t => t.cache.audio.inside 5520) (by decide +kernel) hr
  have hsecond : (t.cache.audio.recs 0).frameid < 2 ∧
      (t.cache.audio.recs 1).remainedduration = partAfter (t.cache.audio.recs 1) 5520 :=
    of_decide_eq_true (read_of_run (fun t => decide ((t.cache.audio.recs 0).frameid < 2 ∧
      (t.cache.audio.recs 1).remainedduration = partAfter (t.cache.audio.recs 1) 5520))
      (by decide +kernel) hr)
  have hguard : Guarded audioStep AudioGuard eightRecs (fourQueued ++ [.curAudio ⟨5520, 0⟩ {}]) := by
    refine guarded_append (guarded_imp (P := fun _ => True) (fun _ _ _ _ _ _ => trivial)
      (fun _ _ _ => QueuesNear.guard) trivial hqueued) hr ⟨fun _ => ?_, fun _ _ => trivial⟩
    rw [FrameTable.Updatable, hlist, if_neg (by decide)]
    intro f hf hin
    have hone : f = 1 := by
      have hmem : f ∈ t.cache.audio.inside 5520 := List.mem_filter.mpr ⟨hf, decide_eq_true hin⟩
      rwa [hinside, List.mem_singleton] at hmem
    rw [hone, hfound, hlist]
    exact ⟨by decide, Or.inr ⟨0, [2], rfl, hsecond⟩⟩
  obtain ⟨⟨u, hu⟩, halways⟩ := audio_cache_right (by decide) eightRecs_kept hguard
  exact ⟨⟨u, hu, read_of_run (fun u => u.cache.audio.validList) (by decide +kernel) hu⟩, halways⟩

/-- The middle of the third frame is processed: the second frame stays in front of it. -/
theorem older_frame_left : ¬ ∀ (n : Nat) (s u : AudioRun) (ops : List CacheOp), AudioKept n s →
    (∀ op ∈ ops, (∃ info behind, op = .queueAudio info behind ∧ 0 < info.framePts) ∨
      ∃ info behind, op = .curAudio info behind) →
    run audioStep s ops = some u → AudioRight u := by
  intro hall
  have hright := hall 8 eightRecs _ [.queueAudio ⟨3600, 0⟩ {}, .queueAudio ⟨5520, 0⟩ {},
    .queueAudio ⟨7440, 0⟩ {}, .queueAudio ⟨9360, 0⟩ {}, .curAudio ⟨8400, 0⟩ {}] eightRecs_kept
    (by simp) rfl
  have hfirst := (hright.entered 2 (by decide)).1
  exact absurd hfirst (by decide)

end MediaModules.MediaSync
