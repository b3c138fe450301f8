import MediaModules.Lib.Segments
import MediaModules.MediaSync.FrameCache

/-!
# The duration of the video cache

The valid video frames descend by time stamp. An update looks for the newest frame that is not after a
time stamp, expires the frames with an older number, and sets the duration anew from the segments that
are left. The look-up compares the newest frame with what is read through the list head, the numbers
that an insertion hands on do not follow the time stamps, the loop over the segments never takes the
last frame of a segment for its earliest one, and only the last segment counts for the table.
-/
namespace MediaModules.MediaSync

open Lib.Run Lib.NodeLists Lib.Segments

/-- Descending time stamps, broken at the jumps. -/
def segmentsOf (l : List Int) : List (List Int) :=
  l.splitBy fun a b => a - b ≤ DEFAULT_FRAME_SEGMENT_THRESHOLD

/-- The duration queued after a time stamp. -/
def queuedAfter (pts : Int) (l : List Int) : Int :=
  match segmentsOf l with
  | [] => 0
  | [s] => max 0 (highest s - pts)
  | ss => (ss.map width).sum - below pts ss

/-- What the loop has for the earliest time stamp of a segment: the last but one, or the only one. -/
def readMin : List Int → Int
  | [] => 0
  | [a] => a
  | [a, _] => a
  | _ :: l => readMin l

/-- The update has the duration of these segments right. -/
def Measured (pts : Int) : List (List Int) → Prop
  | [] => True
  | [s] => 0 < pts ∧ readMin s ≤ pts ∧ (pts ≤ highest s ∨ s.length ≤ 2)
  | ss =>
    (∀ s ∈ ss.dropLast, if Covered pts s then pts = highest s else s.length = 1) ∧
      ∀ s ∈ ss.getLast?, if Covered pts s then readMin s ≤ pts else s.length = 1

namespace FrameTable

variable (t : FrameTable)

/-- The time stamps of the records. -/
def stamps (l : List Nat) : List Int := l.map fun r => (t.recs r).framePts

/-- The valid frame with the greatest time stamp that is not above this one. -/
def NewestNotAfter (pts : Int) (rec : Nat) : Prop :=
  rec ∈ t.validList ∧ (t.recs rec).framePts ≤ pts ∧
    ∀ r ∈ t.validList, (t.recs r).framePts ≤ pts → (t.recs r).framePts ≤ (t.recs rec).framePts

/-- The number is that of the newest frame not after the time stamp, 0 when there is none. -/
def Names (pts frameid : Int) : Prop :=
  (∀ rec, t.NewestNotAfter pts rec → frameid = (t.recs rec).frameid) ∧
    ((∀ r ∈ t.validList, pts < (t.recs r).framePts) → frameid = 0)

/-- `check_vpts_valid` finds the frame. -/
def Found (behind : FrameInfoInner) (pts : Int) : Prop :=
  t.Names pts (t.checkVptsValid behind pts).1

/-- The queue without the frames that are played: those before the newest one that is not after the
time stamp. -/
def ahead (pts : Int) : List Nat :=
  match t.validList.find? fun r => (t.recs r).framePts ≤ pts with
  | none => t.validList
  | some rec => t.validList.filter fun r => (t.recs rec).framePts ≤ (t.recs r).framePts

/-- After `update_video_cache` the duration is what the queue before it has after the time stamp. -/
def DurationRight (behind : FrameInfoInner) (pts duration : Int) : Prop :=
  (t.updateVideoCache behind pts duration).1.mCacheInfo.cacheDuration =
    queuedAfter pts (t.stamps (t.ahead pts))

instance (behind : FrameInfoInner) (pts duration : Int) :
    Decidable (t.DurationRight behind pts duration) := inferInstanceAs (Decidable (_ = _))

/-- The look-up is right: what was found last is the frame, or else the newest frame is after the time
stamp, or what is read through the list head is. -/
def Findable (behind : FrameInfoInner) (pts : Int) : Prop :=
  if t.validList ≠ [] ∧ validPts pts ∧ pts = t.mLastCheckedPts ∧ t.mLastCheckedFrame.frameid ≠ 0 then
    t.Names pts t.mLastCheckedFrame.frameid
  else ∀ rec ∈ t.validList.head?, (t.recs rec).framePts ≤ pts →
    pts < behind.framePts ∨ (t.recs rec).frameid = 0

/-- The number of the newest frame that is not after the time stamp. -/
def newestId (pts : Int) : Int :=
  match t.validList.find? fun r => (t.recs r).framePts ≤ pts with
  | none => 0
  | some rec => (t.recs rec).frameid

/-- The frames that are not older by number. -/
def unexpired (pts : Int) : List Nat :=
  if validPts pts ∧ t.newestId pts ≠ 0 then
    t.validList.filter fun r => ¬ (t.recs r).frameid < t.newestId pts
  else t.validList

/-- The numbers tell the frames that are played: those that are not older by number have as much after
the time stamp as the queue. -/
def NumbersRight (pts : Int) : Prop :=
  queuedAfter pts (t.stamps (t.unexpired pts)) = queuedAfter pts (t.stamps (t.ahead pts))

instance (pts : Int) : Decidable (t.NumbersRight pts) := inferInstanceAs (Decidable (_ = _))

end FrameTable

/-! ## Runs -/

/-- What is done to the video table. -/
inductive VideoOp
  | insert (info : FrameInfo) (behind : FrameInfoInner)
  | update (pts duration : Int) (behind : FrameInfoInner)
  | processed (pts : Int)
  | firstPacket (info : FrameInfo)
  | clear

def videoStep (t : FrameTable) : VideoOp → Option FrameTable
  | .insert info behind => t.insertVideoFrame behind info
  | .update pts duration behind => some (t.updateVideoCache behind pts duration).1
  | .processed pts => some { t with mLastProcessedPts := pts }
  | .firstPacket info => some { t with mFirstPacket := info }
  | .clear => some t.clearFrameList

/-- The table with `n` records after the allocation. -/
def emptyTable (n : Nat) : FrameTable := { freeList := List.range n : FrameTable }.clearFrameList

/-- A frame is queued with a positive time stamp, of 64 bits, that no valid frame has. -/
def Fresh (t : FrameTable) : VideoOp → Prop
  | .insert info _ => 0 < info.framePts ∧ info.framePts < 9223372036854775808 ∧
    ∀ r ∈ t.validList, (t.recs r).framePts ≠ info.framePts
  | _ => True

instance (t : FrameTable) (op : VideoOp) : Decidable (Fresh t op) :=
  match op with
  | .insert _ _ => inferInstanceAs (Decidable (_ ∧ _ ∧ _))
  | .update .. | .processed _ | .firstPacket _ | .clear => .isTrue trivial

/-- The valid frames descend by positive time stamps, in a table that keeps its records. -/
structure VideoKept (n : Nat) (t : FrameTable) : Prop where
  kept : TableKept n t
  sorted : (t.stamps t.validList).Pairwise (· > ·)
  stamped : ∀ p ∈ t.stamps t.validList, 0 < p ∧ p < 9223372036854775808

section Insertion

variable {n : Nat} {t u : FrameTable}

theorem stamps_congr {l : List Nat} (h : ∀ r ∈ l, (u.recs r).framePts = (t.recs r).framePts) :
    u.stamps l = t.stamps l := List.map_congr_left h

/-- Handing the numbers on leaves the time stamps alone. -/
theorem shiftIds_pts (recs : Nat → FrameInfoInner) (id : Int) (l : List Nat) (r : Nat) :
    ((FrameTable.shiftIds recs id l).1 r).framePts = (recs r).framePts := by
  induction l generalizing recs id with
  | nil => rfl
  | cons rec rest ih =>
    rw [FrameTable.shiftIds, ih]
    by_cases hr : r = rec
    · rw [hr, Function.update_self]
    · rw [Function.update_of_ne hr]

theorem insertVframe_pts (behind : FrameInfoInner) (frame : Nat) (passed rest : List Nat)
    (swapHead : Nat) {linked : (Nat → FrameInfoInner) × List Nat}
    (h : t.insertVframe behind frame passed rest swapHead = some linked) (r : Nat) :
    (linked.1 r).framePts = (t.recs r).framePts := by
  induction rest generalizing passed swapHead with
  | nil =>
    obtain rfl := Option.some.inj h
    rfl
  | cons rec rest ih =>
    simp only [FrameTable.insertVframe] at h
    split at h
    · cases h
    · split at h
      · obtain rfl := Option.some.inj h
        dsimp only
        split
        · by_cases hr : r = frame
          · rw [hr, Function.update_self]
            exact shiftIds_pts ..
          · rw [Function.update_of_ne hr]
            exact shiftIds_pts ..
        · rfl
      · exact ih _ _ h

theorem linkFrame_pts (behind : FrameInfoInner) (frame r : Nat) :
    ((t.linkFrame behind frame).recs r).framePts = (t.recs r).framePts := by
  simp only [FrameTable.linkFrame]
  cases hlink : t.insertVframe behind frame [] t.validList (t.validList.headD frame) with
  | none => rfl
  | some linked => exact insertVframe_pts behind frame _ _ _ hlink r

theorem linkFrame_sorted (behind : FrameInfoInner) {frame : Nat}
    (h : (t.stamps t.validList).Pairwise (· > ·))
    (hown : ∀ r ∈ t.validList, (t.recs r).framePts ≠ (t.recs frame).framePts) :
    ((t.linkFrame behind frame).stamps (t.linkFrame behind frame).validList).Pairwise (· > ·) ∧
      ∀ r, r ∈ (t.linkFrame behind frame).validList ↔ r = frame ∨ r ∈ t.validList := by
  have hsame : ¬ SamePts t (t.recs frame).framePts := by
    rintro ⟨rec, hrec, hpts⟩
    exact hown rec (List.mem_of_find?_eq_some hrec) hpts
  obtain ⟨hlist, -, -⟩ := linkFrame_linked behind hsame
  have hrecs := List.pairwise_map.mp h
  refine ⟨?_, fun r => ?_⟩
  · rw [stamps_congr fun r _ => linkFrame_pts behind frame r, hlist]
    refine List.pairwise_map.mpr (insertBefore_pairwise (fun hab hbc => Int.lt_trans hbc hab)
      (fun y hy hstop => ?_) (fun y hy hpass => ?_) hrecs)
    · exact of_decide_eq_true hstop
    · have hle : ¬ (t.recs y).framePts < (t.recs frame).framePts := of_decide_eq_false hpass
      have hne := hown y hy
      omega
  · rw [hlist, mem_insertBefore]

theorem VideoKept.empty (n : Nat) : VideoKept n (emptyTable n) where
  kept := (tableKept_allocated n).clear
  sorted := List.Pairwise.nil
  stamped := fun _ hp => absurd hp List.not_mem_nil

theorem VideoKept.clear (h : VideoKept n t) : VideoKept n t.clearFrameList where
  kept := h.kept.clear
  sorted := List.Pairwise.nil
  stamped := fun _ hp => absurd hp List.not_mem_nil

theorem claimFrame_pts (info : FrameInfo) {frame : Nat} (free : List Nat)
    (hframe : frame ∉ t.validList) :
    ((t.claimFrame info frame free).recs frame).framePts = info.framePts ∧
      ∀ r ∈ t.validList, ((t.claimFrame info frame free).recs r).framePts = (t.recs r).framePts := by
  simp only [FrameTable.claimFrame]
  refine ⟨by rw [Function.update_self], fun r hr => ?_⟩
  have hne : r ≠ frame := fun heq => hframe (heq ▸ hr)
  rw [Function.update_of_ne hne]

/-- A frame with a time stamp of its own takes a free record. -/
theorem VideoKept.link (h : VideoKept n t) {info : FrameInfo} {frame : Nat} (free : List Nat)
    (behind : FrameInfoInner) (hframe : frame ∉ t.validList)
    (hpts : 0 < info.framePts ∧ info.framePts < 9223372036854775808)
    (hown : ∀ r ∈ t.validList, (t.recs r).framePts ≠ info.framePts)
    (hkept : TableKept n ((t.claimFrame info frame free).linkFrame behind frame)) :
    VideoKept n ((t.claimFrame info frame free).linkFrame behind frame) := by
  obtain ⟨hnew, hold⟩ := claimFrame_pts info free hframe
  obtain ⟨w, hw⟩ : ∃ w, t.claimFrame info frame free = w := ⟨_, rfl⟩
  have hlist : w.validList = t.validList := hw ▸ rfl
  rw [hw] at hnew hold hkept ⊢
  have hsorted : (w.stamps w.validList).Pairwise (· > ·) := by
    rw [hlist, stamps_congr hold]
    exact h.sorted
  obtain ⟨hlinked, hmem⟩ := linkFrame_sorted behind hsorted fun r hr => by
    rw [hlist] at hr
    rw [hold r hr, hnew]
    exact hown r hr
  refine ⟨hkept, hlinked, fun p hp => ?_⟩
  obtain ⟨r, hr, rfl⟩ := List.mem_map.mp hp
  rw [linkFrame_pts]
  rcases (hmem r).mp hr with rfl | hr
  · rw [hnew]
    exact hpts
  · rw [hlist] at hr
    rw [hold r hr]
    exact h.stamped _ (List.mem_map_of_mem hr)

/-- A frame is queued. -/
theorem VideoKept.insert (h : VideoKept n t) (hn : 0 < n) {info : FrameInfo}
    {behind : FrameInfoInner} (hfresh : Fresh t (.insert info behind)) :
    ∃ u, t.insertVideoFrame behind info = some u ∧ VideoKept n u := by
  obtain ⟨hpos, hlt, hown⟩ := hfresh
  obtain ⟨v, frame, free, hv, hfree, hkept⟩ := h.kept.room hn
  obtain ⟨u, hu, hlinked, -⟩ := h.kept.insertVideoFrame hn behind info
  have hframe : frame ∉ v.validList := fun hmem =>
    hkept.records.not_mem_free List.nodup_range hmem (hfree ▸ List.mem_cons_self)
  have hboth : VideoKept n v ∧ ∀ r ∈ v.validList, (v.recs r).framePts ≠ info.framePts := by
    split at hv
    · rw [← hv]
      exact ⟨h.clear, fun r hr => absurd hr List.not_mem_nil⟩
    · rw [← hv]
      exact ⟨h, hown⟩
  have hinsert : t.insertVideoFrame behind info =
      some ((v.claimFrame info frame free).linkFrame behind frame) := by
    rw [FrameTable.insertVideoFrame, hv]
    simp only [hfree]
  obtain rfl := Option.some.inj (hu.symm.trans hinsert)
  refine ⟨_, hu, hboth.1.link free behind hframe ⟨hpos, hlt⟩ hboth.2 (hlinked ?_)⟩
  rintro ⟨-, rec, hrec, hpts⟩
  exact hown rec (List.mem_of_find?_eq_some hrec) hpts

end Insertion

/-! ## The look-up -/

section LookUp

variable {t : FrameTable} {pts : Int} {rec : Nat}

/-- In a descending list the newest frame that is not after the time stamp is the first such one. -/
theorem newestNotAfter_iff (h : (t.stamps t.validList).Pairwise (· > ·)) :
    t.NewestNotAfter pts rec ↔
      t.validList.find? (fun r => (t.recs r).framePts ≤ pts) = some rec := by
  have hrecs := List.pairwise_map.mp h
  constructor
  · rintro ⟨hmem, hle, hgreatest⟩
    obtain ⟨first, hfirst⟩ : ∃ first,
        t.validList.find? (fun r => (t.recs r).framePts ≤ pts) = some first :=
      Option.isSome_iff_exists.mp (List.find?_isSome.mpr ⟨rec, hmem, decide_eq_true hle⟩)
    obtain ⟨hfirstle, front, back, hlist, hfront⟩ := List.find?_eq_some_iff_append.mp hfirst
    rw [hlist] at hmem hrecs
    rcases List.mem_append.mp hmem with hrec | hrec
    · exact absurd (decide_eq_true hle) (by simpa using hfront rec hrec)
    · rcases List.mem_cons.mp hrec with rfl | hrec
      · exact hfirst
      · have hgt := (List.pairwise_cons.mp (List.pairwise_append.mp hrecs).2.1).1 rec hrec
        have hfirstmem : first ∈ t.validList := List.mem_of_find?_eq_some hfirst
        have hge := hgreatest first hfirstmem (of_decide_eq_true hfirstle)
        omega
  · intro hfind
    obtain ⟨hle, front, back, hlist, hfront⟩ := List.find?_eq_some_iff_append.mp hfind
    refine ⟨List.mem_of_find?_eq_some hfind, of_decide_eq_true hle, fun r hr hrle => ?_⟩
    rw [hlist] at hr hrecs
    rcases List.mem_append.mp hr with hr | hr
    · exact absurd (decide_eq_true hrle) (by simpa using hfront r hr)
    · rcases List.mem_cons.mp hr with rfl | hr
      · exact le_refl _
      · exact Int.le_of_lt
          ((List.pairwise_cons.mp (List.pairwise_append.mp hrecs).2.1).1 r hr)

theorem names_iff (h : (t.stamps t.validList).Pairwise (· > ·)) {frameid : Int} :
    t.Names pts frameid ↔ frameid = t.newestId pts := by
  rw [FrameTable.newestId]
  constructor
  · rintro ⟨hnewest, hnone⟩
    cases hfind : t.validList.find? fun r => (t.recs r).framePts ≤ pts with
    | none =>
      refine hnone fun r hr => ?_
      have hno := List.find?_eq_none.mp hfind r hr
      simpa using hno
    | some rec => exact hnewest rec ((newestNotAfter_iff h).mpr hfind)
  · rintro rfl
    refine ⟨fun rec hrec => ?_, fun hall => ?_⟩
    · rw [(newestNotAfter_iff h).mp hrec]
    · rw [List.find?_eq_none.mpr fun r hr => by simpa using hall r hr]

theorem find?_first (rest : List Nat) (h : (t.recs rec).framePts ≤ pts) :
    (rec :: rest).find? (fun r => (t.recs r).framePts ≤ pts) = some rec := by
  rw [List.find?_cons, decide_eq_true h]

/-- From the last frame to the first, a frame is found unless only the newest one is not after the time
stamp, and what is read through the list head is not either. -/
theorem findVframe_eq (behind : FrameInfoInner) (pts : Int) (l : List Nat)
    (h : l.Pairwise fun a b => (t.recs a).framePts < (t.recs b).framePts) :
    t.findVframe behind pts l =
      if ∀ r ∈ l.getLast?, pts < (t.recs r).framePts ∨ pts < behind.framePts then
        l.reverse.find? fun r => (t.recs r).framePts ≤ pts
      else none := by
  induction l with
  | nil => rfl
  | cons rec rest ih =>
    obtain ⟨hrec, hrest⟩ := List.pairwise_cons.mp h
    rw [FrameTable.findVframe, List.reverse_cons, List.find?_append]
    cases rest with
    | nil =>
      have hnext : t.ptsOf behind [] = behind.framePts := rfl
      rw [hnext, FrameTable.findVframe, List.reverse_nil, List.find?_nil, Option.none_or]
      by_cases hle : (t.recs rec).framePts ≤ pts
      · rw [find?_first [] hle]
        refine if_congr ⟨fun hboth r hr => Or.inr hboth.2, fun hall => ⟨hle, ?_⟩⟩ rfl rfl
        exact (hall rec rfl).resolve_left (Int.not_lt.mpr hle)
      · rw [List.find?_cons_of_neg (by simpa using hle), List.find?_nil,
          if_neg fun hboth => hle hboth.1, ite_self]
    | cons next rest =>
      have hlast : (rec :: next :: rest).getLast? = (next :: rest).getLast? := rfl
      rw [hlast, ih hrest]
      have hnext := hrec next List.mem_cons_self
      by_cases hbetween : pts ≥ (t.recs rec).framePts ∧ pts < (t.recs next).framePts
      · have hafter : ∀ r ∈ next :: rest, pts < (t.recs r).framePts := by
          intro r hr
          rcases List.mem_cons.mp hr with rfl | hr
          · exact hbetween.2
          · exact Int.lt_trans hbetween.2 ((List.pairwise_cons.mp hrest).1 r hr)
        have hnone : (next :: rest).reverse.find? (fun r => (t.recs r).framePts ≤ pts) = none :=
          List.find?_eq_none.mpr fun r hr => by simpa using hafter r (List.mem_reverse.mp hr)
        have hlater : ∀ r ∈ (next :: rest).getLast?,
            pts < (t.recs r).framePts ∨ pts < behind.framePts :=
          fun r hr => Or.inl (hafter r (List.mem_of_getLast? hr))
        have hfirst : pts ≥ (t.recs rec).framePts ∧ pts < t.ptsOf behind (next :: rest) := hbetween
        rw [if_pos hfirst, if_pos hlater, hnone, Option.none_or, find?_first [] hbetween.1]
      · have hpass : ¬ (pts ≥ (t.recs rec).framePts ∧ pts < t.ptsOf behind (next :: rest)) :=
          hbetween
        rw [if_neg hpass]
        split
        · cases hfind : (next :: rest).reverse.find? fun r => (t.recs r).framePts ≤ pts with
          | some r => rfl
          | none =>
            have hno := List.find?_eq_none.mp hfind next (List.mem_reverse.mpr List.mem_cons_self)
            have hafter : ¬ (t.recs rec).framePts ≤ pts := by
              have hlt : pts < (t.recs next).framePts := by simpa using hno
              omega
            rw [Option.none_or, List.find?_cons_of_neg (by simpa using hafter), List.find?_nil]
        · rfl

/-- The frame is found exactly as the condition says. -/
theorem found_iff {n : Nat} (h : VideoKept n t) (behind : FrameInfoInner) (pts : Int) :
    t.Found behind pts ↔ t.Findable behind pts := by
  rw [FrameTable.Found, FrameTable.Findable, FrameTable.checkVptsValid]
  by_cases hlook : t.validList ≠ [] ∧ validPts pts
  · rw [if_pos hlook]
    by_cases hcached : pts = t.mLastCheckedPts ∧ t.mLastCheckedFrame.frameid ≠ 0
    · rw [if_pos hcached, if_pos ⟨hlook.1, hlook.2, hcached⟩]
    · have hnot : ¬ (t.validList ≠ [] ∧ validPts pts ∧ pts = t.mLastCheckedPts ∧
          t.mLastCheckedFrame.frameid ≠ 0) := fun hall => hcached hall.2.2
      have hasc := List.pairwise_reverse.mpr (List.pairwise_map.mp h.sorted)
      rw [if_neg hcached, if_neg hnot, findVframe_eq behind pts _ hasc, List.getLast?_reverse,
        List.reverse_reverse, names_iff h.sorted]
      obtain ⟨first, rest, hlist⟩ := List.exists_cons_of_ne_nil hlook.1
      rw [hlist]
      simp only [List.head?_cons, Option.mem_some_iff, forall_eq']
      by_cases hfound : pts < (t.recs first).framePts ∨ pts < behind.framePts
      · rw [if_pos hfound]
        refine iff_of_true ?_ fun hle => Or.inl (hfound.resolve_left (Int.not_lt.mpr hle))
        rw [FrameTable.newestId, hlist]
        split
        · rename_i hrec
          rw [hrec]
        · rename_i hrec
          rw [hrec]
      · rw [not_or, Int.not_lt, Int.not_lt] at hfound
        have hnewest : t.newestId pts = (t.recs first).frameid := by
          rw [FrameTable.newestId, hlist, find?_first rest hfound.1]
        rw [if_neg (by omega), hnewest]
        constructor
        · exact fun hzero _ => Or.inr hzero.symm
        · exact fun hor => ((hor hfound.1).resolve_left (by omega)).symm
  · have hnot : ¬ (t.validList ≠ [] ∧ validPts pts ∧ pts = t.mLastCheckedPts ∧
        t.mLastCheckedFrame.frameid ≠ 0) := fun hall => hlook ⟨hall.1, hall.2.1⟩
    have hafter : ∀ r ∈ t.validList, pts < (t.recs r).framePts := by
      intro r hr
      have hpos := (h.stamped _ (List.mem_map_of_mem hr)).1
      have hpts : ¬ pts > 0 := fun hpts =>
        hlook ⟨List.ne_nil_of_mem hr, decide_eq_true hpts⟩
      omega
    rw [if_neg hlook, if_neg hnot]
    refine iff_of_true ((names_iff h.sorted).mpr ?_) fun r hr hle => ?_
    · rw [FrameTable.newestId, List.find?_eq_none.mpr fun r hr => by simpa using hafter r hr]
    · have hlt := hafter r (List.mem_of_mem_head? hr)
      omega

end LookUp

/-! ## The segments -/

section Loop

variable {t : FrameTable} {pts : Int} {g : FrameTable.Segments} {rec next : Nat} {rest : List Nat}

/-- Noting the earliest frame changes nothing else. -/
theorem noteMin_same (g : FrameTable.Segments) :
    g.noteMin.min = g.min ∧ g.noteMin.max = g.max ∧ g.noteMin.before = g.before := by
  rw [FrameTable.Segments.noteMin]
  split <;> exact ⟨rfl, rfl, rfl⟩

theorem within_same (g : FrameTable.Segments) (pts : Int) :
    (g.within pts).min = g.min ∧ (g.within pts).max = g.max := by
  rw [FrameTable.Segments.within]
  split <;> exact ⟨rfl, rfl⟩

/-- The part before the time stamp is less than the segment that is noted. -/
theorem within_before {bound : Int} (hmin : 0 < g.min.framePts)
    (hmax : g.max.framePts < 9223372036854775808)
    (hbound : g.max.framePts - g.min.framePts ≤ bound)
    (hbefore : 0 ≤ g.before ∧ g.before ≤ bound) :
    0 ≤ (g.within pts).before ∧ (g.within pts).before ≤ bound := by
  rw [FrameTable.Segments.within]
  split
  · next hin =>
    have hfits : s64 (pts - g.min.framePts) = pts - g.min.framePts := by
      unfold s64
      omega
    dsimp only
    omega
  · exact hbefore

/-- The next frame is in another segment. -/
theorem segments_jump (pts : Int) (rest : List Nat) (hvalid : validPts g.min.framePts)
    (hjump : s64 ((t.recs rec).framePts - (t.recs next).framePts) >
      DEFAULT_FRAME_SEGMENT_THRESHOLD) :
    ∃ g', t.segments pts (rec :: next :: rest) g = t.segments pts (next :: rest) g' ∧
      g'.min = t.recs next ∧ g'.max = t.recs next ∧ g'.before = (g.within pts).before := by
  have hnot : ¬ (!validPts g.min.framePts) = true := by simp [hvalid]
  rw [FrameTable.segments]
  dsimp only
  rw [if_neg hnot, if_pos hjump]
  refine ⟨_, rfl, rfl, rfl, ?_⟩
  dsimp only
  rw [(noteMin_same _).2.2, FrameTable.Segments.within, FrameTable.Segments.within]
  split <;> rfl

/-- The next frame is in the segment: this frame is the earliest so far. -/
theorem segments_same (pts : Int) (rest : List Nat) (hvalid : validPts g.min.framePts)
    (hnear : ¬ s64 ((t.recs rec).framePts - (t.recs next).framePts) >
      DEFAULT_FRAME_SEGMENT_THRESHOLD)
    (hmin : (t.recs rec).framePts ≤ g.min.framePts) (hmax : g.min.framePts ≤ g.max.framePts) :
    ∃ g', t.segments pts (rec :: next :: rest) g = t.segments pts (next :: rest) g' ∧
      g'.min.framePts = (t.recs rec).framePts ∧ g'.max = g.max ∧ g'.before = g.before := by
  have hnot : ¬ (!validPts g.min.framePts) = true := by simp [hvalid]
  have hmax' : ¬ (t.recs rec).framePts > g.max.framePts := by omega
  rw [FrameTable.segments]
  dsimp only
  rw [if_neg hnot, if_neg hnear, if_neg hmax']
  by_cases hlt : (t.recs rec).framePts < g.min.framePts
  · rw [if_pos hlt]
    exact ⟨_, rfl, rfl, rfl, rfl⟩
  · rw [if_neg hlt]
    exact ⟨g, rfl, by omega, rfl, rfl⟩

/-- What the loop has from the first frame of a list on: of the segment it is in, the end of it that was
noted before, and of the last one, if it is another, its own ends. -/
structure Passed (bound : Int) (g g' : FrameTable.Segments) (first : Int) (s : List Int)
    (ss : List (List Int)) : Prop where
  only : ss = [] → g'.max.framePts = g.max.framePts ∧
    g'.min.framePts = (if s = [] then g.min.framePts else readMin (first :: s)) ∧
    g'.before = g.before
  last : ∀ l ∈ ss.getLast?, g'.max.framePts = highest l ∧ g'.min.framePts = readMin l
  before : 0 ≤ g'.before ∧ g'.before ≤ bound
  ends : 0 < g'.min.framePts ∧ g'.min.framePts ≤ g'.max.framePts ∧
    g'.max.framePts < 9223372036854775808 ∧ g'.max.framePts - g'.min.framePts ≤ bound

theorem readMin_first (p : Int) (s : List Int) :
    (if s = [] then p else readMin (p :: s)) = readMin (p :: s) := by
  cases s with
  | nil => rfl
  | cons c s => rfl

/-- A frame alone in its segment, in front of another one. -/
theorem Passed.jump {bound p q : Int} {s : List Int} {ss : List (List Int)}
    {g₁ g' : FrameTable.Segments} (h : Passed bound g₁ g' q s ss) (hmax : g₁.max.framePts = q)
    (hmin : g₁.min.framePts = q) : Passed bound g g' p [] ((q :: s) :: ss) := by
  refine ⟨nofun, fun l hl => ?_, h.before, h.ends⟩
  cases hss : ss with
  | nil =>
    obtain ⟨hhigh, hlow, -⟩ := h.only hss
    obtain rfl : q :: s = l := by simpa [hss] using hl
    rw [hhigh, hlow, hmax, hmin]
    exact ⟨rfl, readMin_first q s⟩
  | cons s' ss' =>
    refine h.last l ?_
    rw [hss] at hl ⊢
    exact hl

/-- A frame in the segment of the next one. -/
theorem Passed.same {bound p q : Int} {s : List Int} {ss : List (List Int)}
    {g₁ g' : FrameTable.Segments} (h : Passed bound g₁ g' q s ss)
    (hmax : g₁.max.framePts = g.max.framePts) (hmin : g₁.min.framePts = p)
    (hbefore : g₁.before = g.before) : Passed bound g g' p (q :: s) ss := by
  refine ⟨fun hss => ?_, h.last, h.before, h.ends⟩
  obtain ⟨hhigh, hlow, hbefore'⟩ := h.only hss
  rw [hhigh, hlow, hbefore', hmax, hbefore, hmin, if_neg (List.cons_ne_nil _ _)]
  refine ⟨rfl, ?_, rfl⟩
  cases s with
  | nil => rfl
  | cons c s => rfl

/-- The ends of the last segment are known, when the loop starts with the first frame as both ends. -/
theorem Passed.ends_last {bound p : Int} {s : List Int} {ss : List (List Int)}
    {g' : FrameTable.Segments} (h : Passed bound g g' p s ss) (hmax : g.max.framePts = p)
    (hmin : g.min.framePts = p) :
    ∃ last, ((p :: s) :: ss).getLast? = some last ∧
      g'.max.framePts = highest last ∧ g'.min.framePts = readMin last := by
  cases hss : ss with
  | nil =>
    obtain ⟨hhigh, hlow, -⟩ := h.only hss
    rw [hmin, readMin_first] at hlow
    exact ⟨_, rfl, hhigh.trans hmax, hlow⟩
  | cons s' ss' =>
    obtain ⟨last, hlast⟩ : ∃ last, (s' :: ss').getLast? = some last :=
      ⟨_, List.getLast?_eq_getLast_of_ne_nil (List.cons_ne_nil s' ss')⟩
    exact ⟨last, hlast, h.last last (hss ▸ hlast)⟩

/-- The induction is along the list; the segment that the first frame is in may have started before. -/
theorem segments_passed (pts bound : Int) (rest : List Nat) :
    ∀ (rec : Nat) (g : FrameTable.Segments),
      (t.stamps (rec :: rest)).Pairwise (· > ·) →
      (∀ p ∈ t.stamps (rec :: rest), 0 < p ∧ p < 9223372036854775808) →
      (t.recs rec).framePts ≤ g.min.framePts → g.min.framePts ≤ g.max.framePts →
      g.max.framePts < 9223372036854775808 →
      g.max.framePts - (t.recs rec).framePts + 45000 * rest.length ≤ bound →
      (0 ≤ g.before ∧ g.before ≤ bound) →
      ∃ s ss, segmentsOf (t.stamps (rec :: rest)) = ((t.recs rec).framePts :: s) :: ss ∧
        Passed bound g (t.segments pts (rec :: rest) g) (t.recs rec).framePts s ss := by
  induction rest with
  | nil =>
    intro rec g hsorted hstamped hmin hmax hlt hbound hbefore
    have hpos : 0 < (t.recs rec).framePts := (hstamped _ List.mem_cons_self).1
    have hvalid : ¬ (!validPts g.min.framePts) = true := by
      simp only [validPts, Bool.not_eq_true', decide_eq_false_iff_not]
      omega
    have hloop : t.segments pts [rec] g = g := by
      rw [FrameTable.segments, FrameTable.segments]
      exact if_neg hvalid
    rw [hloop]
    refine ⟨[], [], rfl, fun _ => ⟨rfl, rfl, rfl⟩, nofun, hbefore, ?_⟩
    rw [List.length_nil] at hbound
    push_cast at hbound
    omega
  | cons next rest ih =>
    intro rec g hsorted hstamped hmin hmax hlt hbound hbefore
    obtain ⟨hrec, hsorted'⟩ := List.pairwise_cons.mp hsorted
    obtain ⟨hfirst, hstamped'⟩ := List.forall_mem_cons.mp hstamped
    have hpos : 0 < (t.recs rec).framePts ∧ (t.recs rec).framePts < 9223372036854775808 := hfirst
    have hpos' : 0 < (t.recs next).framePts := (hstamped' _ List.mem_cons_self).1
    have hthreshold : DEFAULT_FRAME_SEGMENT_THRESHOLD = 45000 := rfl
    have hgt : (t.recs rec).framePts > (t.recs next).framePts := hrec _ List.mem_cons_self
    have hvalid : validPts g.min.framePts := decide_eq_true (by omega)
    have hdiff : s64 ((t.recs rec).framePts - (t.recs next).framePts) =
        (t.recs rec).framePts - (t.recs next).framePts := by
      unfold s64
      omega
    rw [List.length_cons] at hbound
    push_cast at hbound
    by_cases hjump : (t.recs rec).framePts - (t.recs next).framePts >
        DEFAULT_FRAME_SEGMENT_THRESHOLD
    · obtain ⟨g', hloop, hmin', hmax', hbefore'⟩ :=
        segments_jump pts rest hvalid (hdiff.symm ▸ hjump)
      have hcut : segmentsOf (t.stamps (rec :: next :: rest)) =
          [(t.recs rec).framePts] :: segmentsOf (t.stamps (next :: rest)) :=
        splitBy_cons_of_false (decide_eq_false (Int.not_le.mpr hjump))
      obtain ⟨s, ss, hsegments, hpassed⟩ := ih next g' hsorted' hstamped'
        (by rw [hmin']) (by rw [hmin', hmax']) (by rw [hmax']; omega)
        (by rw [hmax']; omega)
        (hbefore' ▸ within_before (by omega) hlt (by omega) hbefore)
      refine ⟨[], _ :: ss, hcut.trans (by rw [hsegments]), ?_⟩
      rw [hloop]
      exact hpassed.jump (by rw [hmax']) (by rw [hmin'])
    · obtain ⟨g', hloop, hmin', hmax', hbefore'⟩ :=
        segments_same pts rest hvalid (hdiff.symm ▸ hjump) hmin hmax
      obtain ⟨s, ss, hsegments, hjoined⟩ := splitBy_cons_of_true
        (r := fun a b => decide (a - b ≤ DEFAULT_FRAME_SEGMENT_THRESHOLD))
        (l := t.stamps rest) (decide_eq_true (Int.not_lt.mp hjump))
      obtain ⟨s', ss', hsegments', hpassed⟩ := ih next g' hsorted' hstamped'
        (by omega) (by rw [hmax']; omega) (by rw [hmax']; exact hlt)
        (by rw [hmax']; omega)
        (hbefore' ▸ hbefore)
      obtain ⟨hs, rfl⟩ := List.cons.inj (hsegments'.symm.trans hsegments)
      obtain rfl := (List.cons.inj hs).2
      refine ⟨_ :: s', ss', hjoined, ?_⟩
      rw [hloop]
      exact hpassed.same (by rw [hmax']) hmin' hbefore'

/-- The loop starts with the first frame as both ends. -/
theorem segments_start (pts : Int) (rest : List Nat) (hmin : g.min.framePts = -1)
    (hpos : 0 < (t.recs rec).framePts) (hbefore : g.before = 0) :
    ∃ g₀ : FrameTable.Segments, t.segments pts (rec :: rest) g = t.segments pts (rec :: rest) g₀ ∧
      g₀.min = t.recs rec ∧ g₀.max = t.recs rec ∧ g₀.before = 0 := by
  have hinvalid : (!validPts g.min.framePts) = true := by rw [hmin]; rfl
  have hvalid : ¬ (!validPts (t.recs rec).framePts) = true := by simp [validPts, hpos]
  refine ⟨{ g with min := t.recs rec, max := t.recs rec }, ?_, rfl, rfl, hbefore⟩
  rw [FrameTable.segments.eq_def]
  conv_rhs => rw [FrameTable.segments.eq_def]
  dsimp only
  rw [if_pos hinvalid, if_neg hvalid]

/-- The duration that the last segment gives. -/
def durationOf (g : FrameTable.Segments) : Int :=
  let total := s32 (s64 (g.max.framePts - g.min.framePts) - g.before)
  if total < 0 then 0 else total

/-- The part before the time stamp is taken off the segment it is in, else what was noted before. -/
theorem durationOf_within {bound : Int} (hmin : 0 < g.min.framePts)
    (hle : g.min.framePts ≤ g.max.framePts) (hmax : g.max.framePts < 9223372036854775808)
    (hspread : g.max.framePts - g.min.framePts ≤ bound) (hbound : bound < 2147483648)
    (hbefore : 0 ≤ g.before ∧ g.before ≤ bound) :
    durationOf (g.within pts) =
      if g.min.framePts ≤ pts ∧ pts ≤ g.max.framePts then g.max.framePts - pts
      else max 0 (g.max.framePts - g.min.framePts - g.before) := by
  obtain ⟨hb, hb'⟩ := hbefore
  have hwidth : s64 (g.max.framePts - g.min.framePts) = g.max.framePts - g.min.framePts := by
    unfold s64
    omega
  rw [durationOf, (within_same g pts).1, (within_same g pts).2, hwidth, FrameTable.Segments.within]
  split
  · next hin =>
    have hpart : s64 (pts - g.min.framePts) = pts - g.min.framePts := by
      unfold s64
      omega
    have htotal : s32 (g.max.framePts - g.min.framePts - (pts - g.min.framePts)) =
        g.max.framePts - pts := by
      unfold s32
      omega
    dsimp only
    rw [hpart, htotal, if_neg (by omega)]
  · have htotal : s32 (g.max.framePts - g.min.framePts - g.before) =
        g.max.framePts - g.min.framePts - g.before := by
      unfold s32
      omega
    rw [htotal]
    split <;> omega

/-- The loop over a list, from the state it starts in. -/
theorem segments_duration (pts : Int) {bound : Int} (hbound : bound < 2147483648)
    (hsorted : (t.stamps (rec :: rest)).Pairwise (· > ·))
    (hstamped : ∀ p ∈ t.stamps (rec :: rest), 0 < p ∧ p < 9223372036854775808)
    (hlen : 45000 * (rest.length : Int) ≤ bound) (hmin : g.min.framePts = -1)
    (hbefore : g.before = 0) :
    ∃ last b, (segmentsOf (t.stamps (rec :: rest))).getLast? = some last ∧ 0 ≤ b ∧
      ((segmentsOf (t.stamps (rec :: rest))).length = 1 → b = 0) ∧
      durationOf ((t.segments pts (rec :: rest) g).within pts) =
        if readMin last ≤ pts ∧ pts ≤ highest last then highest last - pts
        else max 0 (highest last - readMin last - b) := by
  have hfirst : 0 < (t.recs rec).framePts ∧ (t.recs rec).framePts < 9223372036854775808 :=
    hstamped _ List.mem_cons_self
  obtain ⟨g₀, hg₀, hmin₀, hmax₀, hbefore₀⟩ := segments_start pts rest hmin hfirst.1 hbefore
  obtain ⟨s, ss, hsegments, hpassed⟩ := segments_passed pts bound rest rec g₀
    hsorted hstamped (by rw [hmin₀]) (by rw [hmin₀, hmax₀]) (by rw [hmax₀]; exact hfirst.2)
    (by rw [hmax₀]; omega) (by omega)
  rw [hsegments, hg₀]
  obtain ⟨g', hg'⟩ : ∃ g', t.segments pts (rec :: rest) g₀ = g' := ⟨_, rfl⟩
  rw [hg'] at hpassed ⊢
  obtain ⟨hends, hle, hfits, hspread⟩ := hpassed.ends
  obtain ⟨hb, hb'⟩ := hpassed.before
  obtain ⟨last, hlast, hhigh, hlow⟩ := hpassed.ends_last (by rw [hmax₀]) (by rw [hmin₀])
  refine ⟨last, g'.before, hlast, hb, fun hone => ?_, ?_⟩
  · have hss : ss = [] := List.eq_nil_of_length_eq_zero (Nat.succ.inj hone)
    rw [(hpassed.only hss).2.2, hbefore₀]
  · rw [durationOf_within hends hle hfits hspread hbound ⟨hb, hb'⟩, hhigh, hlow]

end Loop

/-! ## The total -/

section Total

variable {pts : Int} {s : List Int} {ss : List (List Int)}

theorem readMin_mem : ∀ {s : List Int}, s ≠ [] → readMin s ∈ s
  | [_], _ => List.mem_cons_self
  | [_, _], _ => List.mem_cons_self
  | a :: b :: c :: l, _ => List.mem_cons_of_mem a (readMin_mem (List.cons_ne_nil b (c :: l)))

/-- Two frames, or one, and the earliest one that is read is the newest. -/
theorem readMin_eq_highest_iff (h : s.Pairwise (· > ·)) (hs : s ≠ []) :
    readMin s = highest s ↔ s.length ≤ 2 := by
  match s, hs with
  | [a], _ => exact iff_of_true rfl (by simp)
  | [a, b], _ => exact iff_of_true rfl (by simp)
  | a :: b :: c :: l, _ =>
    have hlt : a > readMin (b :: c :: l) :=
      (List.pairwise_cons.mp h).1 _ (readMin_mem (List.cons_ne_nil b (c :: l)))
    have hread : readMin (a :: b :: c :: l) = readMin (b :: c :: l) := rfl
    have hhigh : highest (a :: b :: c :: l) = a := rfl
    exact iff_of_false (by omega) (by simp)

/-- The earliest frame is read only when it is alone. -/
theorem readMin_eq_lowest_iff : ∀ {s : List Int}, s.Pairwise (· > ·) → s ≠ [] →
    (readMin s = lowest s ↔ s.length = 1)
  | [a], _, _ => iff_of_true rfl rfl
  | [a, b], h, _ => by
    have hgt : a > b := (List.pairwise_cons.mp h).1 b List.mem_cons_self
    have hread : readMin [a, b] = a := rfl
    have hlow : lowest [a, b] = b := rfl
    exact iff_of_false (by omega) (by simp)
  | a :: b :: c :: l, h, _ => by
    have hrest := readMin_eq_lowest_iff (List.pairwise_cons.mp h).2 (List.cons_ne_nil b (c :: l))
    have hread : readMin (a :: b :: c :: l) = readMin (b :: c :: l) := rfl
    have hlow : lowest (a :: b :: c :: l) = lowest (b :: c :: l) := rfl
    rw [hread, hlow]
    exact hrest.trans (by simp)

/-- The segments of descending positive time stamps. -/
structure Descending (ss : List (List Int)) : Prop where
  nonempty : ∀ s ∈ ss, s ≠ []
  each : ∀ s ∈ ss, s.Pairwise (· > ·)
  lower : ss.Pairwise fun s s' => ∀ a ∈ s, ∀ b ∈ s', a > b
  positive : ∀ s ∈ ss, 0 < lowest s

theorem segmentsOf_descending {l : List Int} (h : l.Pairwise (· > ·)) (hpos : ∀ p ∈ l, 0 < p) :
    Descending (segmentsOf l) := by
  have hflat : (segmentsOf l).flatten = l := List.flatten_splitBy ..
  rw [← hflat] at h
  obtain ⟨heach, hlower⟩ := List.pairwise_flatten.mp h
  have hne : ∀ s ∈ segmentsOf l, s ≠ [] := fun s hs => List.ne_nil_of_mem_splitBy hs
  refine ⟨hne, heach, hlower, fun s hs => hpos _ ?_⟩
  rw [← hflat]
  exact List.mem_flatten.mpr ⟨s, hs, lowest_mem (hne s hs)⟩

/-- What the last segment gives, with no more taken off than nothing, against what lies above the time
stamp in the last segment: never more, and the same when the condition for the last one holds. -/
theorem last_duration (pts : Int) (h : s.Pairwise (· > ·)) (hs : s ≠ []) {b : Int} (hb : 0 ≤ b) :
    let d := if readMin s ≤ pts ∧ pts ≤ highest s then highest s - pts
      else max 0 (highest s - readMin s - b)
    d ≤ above pts s ∧ (d = above pts s ↔ if Covered pts s then readMin s ≤ pts else s.length = 1) := by
  obtain ⟨hlow, hhigh⟩ := mem_bounds h (readMin_mem hs)
  have hone := readMin_eq_lowest_iff h hs
  have hwidth := width_eq_zero_iff h hs
  rw [width] at hwidth
  dsimp only
  by_cases hin : Covered pts s
  · have habove : above pts s = highest s - pts := if_pos hin
    have hpts : pts ≤ highest s := hin.2
    rw [habove, if_pos hin]
    split <;> omega
  · have habove : above pts s = highest s - lowest s := if_neg hin
    have hout : ¬ (readMin s ≤ pts ∧ pts ≤ highest s) := fun hboth =>
      hin ⟨Int.le_trans hlow hboth.1, hboth.2⟩
    rw [habove, if_neg hin, if_neg hout, ← hwidth]
    rw [← hwidth] at hone
    omega

/-- With two segments or more, the total is what lies above the time stamp. -/
theorem covered_above (h : Descending ss) : (ss.map width).sum - below pts ss =
    (ss.map (above pts)).sum := covered_sub_below h.nonempty h.lower

/-- The last segment gives the whole total exactly when nothing of the others is above the time stamp and
it is right itself. -/
theorem many_measured_iff (pts : Int) (h : Descending ss) {last : List Int}
    (hlast : ss.getLast? = some last) {b : Int} (hb : 0 ≤ b) :
    (if readMin last ≤ pts ∧ pts ≤ highest last then highest last - pts
      else max 0 (highest last - readMin last - b)) = (ss.map width).sum - below pts ss ↔
    (∀ s ∈ ss.dropLast, if Covered pts s then pts = highest s else s.length = 1) ∧
      if Covered pts last then readMin last ≤ pts else last.length = 1 := by
  have hsplit : ss.dropLast ++ [last] = ss := List.dropLast_append_getLast? last hlast
  have hdrop : ∀ s ∈ ss.dropLast, s ∈ ss := fun s hs => List.dropLast_subset ss hs
  have hmem : last ∈ ss := List.mem_of_getLast? hlast
  obtain ⟨hle, hiff⟩ := last_duration pts (h.each last hmem) (h.nonempty last hmem) hb
  have hsum : (ss.map (above pts)).sum = (ss.dropLast.map (above pts)).sum + above pts last := by
    conv_lhs => rw [← hsplit]
    simp
  have heach : ∀ s ∈ ss.dropLast, s.Pairwise (· > ·) := fun s hs => h.each s (hdrop s hs)
  have hnonneg := sum_above_nonneg (p := pts) heach
  have hzero : (ss.dropLast.map (above pts)).sum = 0 ↔
      ∀ s ∈ ss.dropLast, if Covered pts s then pts = highest s else s.length = 1 := by
    rw [sum_above_eq_zero_iff heach]
    exact forall₂_congr fun s hs => above_eq_zero_iff (heach s hs) (h.nonempty s (hdrop s hs))
  rw [covered_above h, hsum, ← hzero, ← hiff]
  omega

/-- The condition, with the last segment named. -/
theorem measured_many {s₁ s₂ last : List Int} (hlast : (s₁ :: s₂ :: ss).getLast? = some last) :
    Measured pts (s₁ :: s₂ :: ss) ↔
      (∀ s ∈ (s₁ :: s₂ :: ss).dropLast, if Covered pts s then pts = highest s else s.length = 1) ∧
        if Covered pts last then readMin last ≤ pts else last.length = 1 := by
  refine and_congr_right fun _ => ?_
  rw [hlast]
  simp only [Option.mem_some_iff, forall_eq']

/-- The duration that the last segment gives is right exactly when the condition holds. -/
theorem measured_iff {l : List Int} (h : Descending (segmentsOf l)) (hpts : 0 < pts)
    {last : List Int} (hlast : (segmentsOf l).getLast? = some last) {b : Int} (hb : 0 ≤ b)
    (hone : (segmentsOf l).length = 1 → b = 0) :
    (if readMin last ≤ pts ∧ pts ≤ highest last then highest last - pts
      else max 0 (highest last - readMin last - b)) = queuedAfter pts l ↔
      Measured pts (segmentsOf l) := by
  rw [queuedAfter]
  cases hss : segmentsOf l with
  | nil =>
    rw [hss] at hlast
    exact nomatch hlast
  | cons s₁ ss =>
    rw [hss] at h hlast hone
    cases ss with
    | nil =>
      obtain rfl : s₁ = last := Option.some.inj hlast
      have hb0 := hone rfl
      have hs := h.nonempty s₁ List.mem_cons_self
      have hsorted := h.each s₁ List.mem_cons_self
      have htwo := readMin_eq_highest_iff hsorted hs
      obtain ⟨-, hhigh⟩ := mem_bounds hsorted (readMin_mem hs)
      rw [Measured, ← htwo]
      dsimp only
      omega
    | cons s₂ ss => exact (many_measured_iff pts h hlast hb).trans (measured_many hlast).symm

/-- Without a valid time stamp the duration is set to 0. -/
theorem measured_invalid_iff {l : List Int} (h : Descending (segmentsOf l)) (hpts : ¬ 0 < pts) :
    0 = queuedAfter pts l ↔ Measured pts (segmentsOf l) := by
  rw [queuedAfter]
  cases hss : segmentsOf l with
  | nil => exact iff_of_true rfl trivial
  | cons s₁ ss =>
    rw [hss] at h
    cases ss with
    | nil =>
      have hs := h.nonempty s₁ List.mem_cons_self
      have hpos := h.positive s₁ List.mem_cons_self
      have hbounds := (mem_bounds (h.each s₁ List.mem_cons_self) (lowest_mem hs)).2
      rw [Measured]
      dsimp only
      omega
    | cons s₂ ss =>
      obtain ⟨last, hlast⟩ : ∃ last, (s₁ :: s₂ :: ss).getLast? = some last :=
        ⟨_, List.getLast?_eq_getLast_of_ne_nil (List.cons_ne_nil s₁ (s₂ :: ss))⟩
      have hmem := List.mem_of_getLast? hlast
      obtain ⟨hlow, hhigh⟩ := mem_bounds (h.each last hmem) (readMin_mem (h.nonempty last hmem))
      have hpos := h.positive last hmem
      -- none of the last segment is before the time stamp, so this part of it leaves nothing
      have hmany := many_measured_iff pts h hlast (Int.sub_nonneg.mpr hhigh)
      have hout : ¬ (readMin last ≤ pts ∧ pts ≤ highest last) := by omega
      rw [if_neg hout, Int.sub_self, max_self] at hmany
      exact hmany.trans (measured_many hlast).symm

end Total

/-! ## Updates -/

section Updates

variable {n : Nat} {t u : FrameTable} {pts : Int}

theorem expireVframes_left (frameid : Int) (l front : List Nat) (t : FrameTable)
    (hlist : t.validList = front ++ l) (hnodup : (front ++ l).Nodup) :
    (FrameTable.expireVframes frameid l t).validList =
        front ++ l.filter (fun r => ¬ (t.recs r).frameid < frameid) ∧
      (FrameTable.expireVframes frameid l t).recs = t.recs := by
  induction l generalizing front t with
  | nil => exact ⟨hlist, rfl⟩
  | cons rec rest ih =>
    have hfront : rec ∉ front := fun hmem =>
      (List.nodup_append.mp hnodup).2.2 rec hmem rec List.mem_cons_self rfl
    rw [FrameTable.expireVframes]
    by_cases hold : (t.recs rec).frameid < frameid
    · have herased : (t.expire rec).validList = front ++ rest := by
        show t.validList.erase rec = _
        rw [hlist, List.erase_append_right _ hfront, List.erase_cons_head]
      have hnodup' : (front ++ rest).Nodup :=
        hnodup.sublist ((List.sublist_cons_self rec rest).append_left front)
      rw [if_pos hold, List.filter_cons_of_neg (by simpa using hold)]
      exact ih front (t.expire rec) herased hnodup'
    · have hlist' : t.validList = (front ++ [rec]) ++ rest := by rw [hlist, List.append_assoc]; rfl
      have hnodup' : ((front ++ [rec]) ++ rest).Nodup := by rw [List.append_assoc]; exact hnodup
      obtain ⟨hvalid, hrecs⟩ := ih (front ++ [rec]) t hlist' hnodup'
      rw [if_neg hold, List.filter_cons_of_pos (by simpa using hold), hvalid, List.append_assoc]
      exact ⟨rfl, hrecs⟩

theorem checkVptsValid_recs (t : FrameTable) (behind : FrameInfoInner) (pts : Int) :
    (t.checkVptsValid behind pts).2.recs = t.recs := by
  rw [FrameTable.checkVptsValid]
  split
  · split
    · rfl
    · split <;> rfl
  · rfl

/-- Only the records matter to the loop. -/
theorem segments_congr (h : u.recs = t.recs) (l : List Nat) (g : FrameTable.Segments) :
    u.segments pts l g = t.segments pts l g := by
  induction l generalizing g with
  | nil => rfl
  | cons rec rest ih =>
    rw [FrameTable.segments.eq_def, FrameTable.segments.eq_def]
    dsimp only
    rw [ih, h]

/-- The frames that are not older than the frame with the number. -/
def keptFrames (t : FrameTable) (pts frameid : Int) : List Nat :=
  if validPts pts ∧ frameid ≠ 0 then t.validList.filter fun r => ¬ (t.recs r).frameid < frameid
  else t.validList

/-- An update keeps these frames, and with a valid time stamp sets the duration that the loop over them
gives. -/
theorem updateVideoCache_kept (hnodup : t.validList.Nodup) (behind : FrameInfoInner)
    (pts duration : Int) :
    let left := keptFrames t pts (t.checkVptsValid behind pts).1
    let r := (t.updateVideoCache behind pts duration).1
    r.validList = left ∧ r.recs = t.recs ∧
      if validPts pts then ∃ g : FrameTable.Segments, g.min.framePts = -1 ∧ g.max.framePts = -1 ∧
        g.before = 0 ∧
        r.mCacheInfo.cacheDuration = durationOf ((t.segments pts left g).within pts)
      else r.mCacheInfo.cacheDuration = 0 := by
  obtain ⟨hvalid, -, -⟩ := checkVptsValid_lists t behind pts
  have hrecs := checkVptsValid_recs t behind pts
  obtain ⟨c, hc⟩ : ∃ c, t.checkVptsValid behind pts = c := ⟨_, rfl⟩
  dsimp only
  rw [FrameTable.updateVideoCache, hc]
  rw [hc] at hvalid hrecs
  by_cases hpts : validPts pts
  · obtain ⟨u, hu, hlist, hurecs⟩ : ∃ u,
        (if c.1 ≠ 0 then FrameTable.expireVframes c.1 c.2.validList c.2 else c.2) = u ∧
          u.validList = keptFrames t pts c.1 ∧ u.recs = t.recs := by
      refine ⟨_, rfl, ?_⟩
      by_cases hfound : c.1 ≠ 0
      · obtain ⟨hexpired, hexpired'⟩ :=
          expireVframes_left c.1 c.2.validList [] c.2 rfl (hvalid ▸ hnodup)
        rw [if_pos hfound, keptFrames, if_pos ⟨hpts, hfound⟩, hexpired, hexpired', hrecs, hvalid]
        exact ⟨rfl, rfl⟩
      · rw [if_neg hfound, keptFrames, if_neg fun hboth => hfound hboth.2]
        exact ⟨hvalid, hrecs⟩
    have hnot : ¬ (!validPts pts) = true := by simp [hpts]
    rw [if_neg hnot, if_pos hpts]
    dsimp only
    rw [hu]
    refine ⟨hlist, hurecs, { added := duration, minPts := u.mMinPtsFrame }, rfl, rfl, rfl, ?_⟩
    obtain ⟨hmin, hmax, hbefore⟩ :=
      noteMin_same ((u.segments pts u.validList
        { added := duration, minPts := u.mMinPtsFrame }).within pts)
    rw [hmin, hmax, hbefore, hlist, segments_congr hurecs]
    rfl
  · have hinvalid : (!validPts pts) = true := by simp [hpts]
    rw [if_pos hinvalid, if_neg hpts, keptFrames, if_neg fun hboth => hpts hboth.1]
    exact ⟨rfl, rfl, rfl⟩

theorem keptFrames_sublist (t : FrameTable) (pts frameid : Int) :
    (keptFrames t pts frameid).Sublist t.validList := by
  rw [keptFrames]
  split
  · exact List.filter_sublist
  · exact List.Sublist.refl _

theorem VideoKept.update (h : VideoKept n t) (behind : FrameInfoInner) (pts duration : Int) :
    VideoKept n (t.updateVideoCache behind pts duration).1 := by
  obtain ⟨hlist, hrecs, -⟩ := updateVideoCache_kept h.kept.nodup behind pts duration
  have hsub := keptFrames_sublist t pts (t.checkVptsValid behind pts).1
  refine ⟨h.kept.updateVideoCache behind pts duration, ?_, ?_⟩
  all_goals rw [hlist, stamps_congr fun r _ => congrArg _ (congrFun hrecs r)]
  · exact h.sorted.sublist (hsub.map _)
  · exact fun p hp => h.stamped p ((hsub.map _).subset hp)

theorem videoKept_step (h : VideoKept n t) {op : VideoOp} (hfresh : Fresh t op)
    (hu : videoStep t op = some u) : VideoKept n u := by
  cases op with
  | insert info behind =>
    rcases Nat.eq_zero_or_pos n with hn | hn
    · have hroom := h.kept.room_eq
      have hfree : t.freeList = [] := List.eq_nil_of_length_eq_zero (by omega)
      have hvalid : t.validList = [] := List.eq_nil_of_length_eq_zero (by omega)
      have hcleared : t.clearFrameList.freeList = t.freeList ++ t.validList := rfl
      have hnone : t.insertVideoFrame behind info = none := by
        rw [FrameTable.insertVideoFrame, if_pos hfree, hcleared, hfree, hvalid]
        rfl
      exact absurd (hnone.symm.trans hu) nofun
    · obtain ⟨u', hu', hkept⟩ := h.insert hn hfresh
      obtain rfl := Option.some.inj (hu.symm.trans hu')
      exact hkept
  | update pts duration behind =>
    obtain rfl := Option.some.inj hu
    exact h.update behind pts duration
  | processed pts =>
    obtain rfl := Option.some.inj hu
    exact ⟨h.kept.processed pts, h.sorted, h.stamped⟩
  | firstPacket info =>
    obtain rfl := Option.some.inj hu
    exact ⟨h.kept.congr rfl rfl rfl, h.sorted, h.stamped⟩
  | clear =>
    obtain rfl := Option.some.inj hu
    exact h.clear

/-- After an update that finds the frame, the duration is that of the frames which are not older by
number exactly as the condition says. -/
theorem duration_iff (h : VideoKept n t) (hn : 45000 * (n : Int) < 2147483648)
    (behind : FrameInfoInner) (pts duration : Int) (hfound : t.Found behind pts) :
    (t.updateVideoCache behind pts duration).1.mCacheInfo.cacheDuration =
        queuedAfter pts (t.stamps (t.unexpired pts)) ↔
      Measured pts (segmentsOf (t.stamps (t.unexpired pts))) := by
  have hname : (t.checkVptsValid behind pts).1 = t.newestId pts := (names_iff h.sorted).mp hfound
  obtain ⟨-, -, hduration⟩ := updateVideoCache_kept h.kept.nodup behind pts duration
  have hleft : keptFrames t pts (t.checkVptsValid behind pts).1 = t.unexpired pts := by
    rw [hname]
    rfl
  rw [hleft] at hduration
  have hsub : (t.unexpired pts).Sublist t.validList := keptFrames_sublist t pts _
  have hsorted : (t.stamps (t.unexpired pts)).Pairwise (· > ·) := h.sorted.sublist (hsub.map _)
  have hstamped : ∀ p ∈ t.stamps (t.unexpired pts), 0 < p ∧ p < 9223372036854775808 :=
    fun p hp => h.stamped p ((hsub.map _).subset hp)
  have hdescending := segmentsOf_descending hsorted fun p hp => (hstamped p hp).1
  by_cases hpts : validPts pts
  · rw [if_pos hpts] at hduration
    obtain ⟨g, hmin, hmax, hbefore, hduration⟩ := hduration
    rw [hduration]
    cases hunexpired : t.unexpired pts with
    | nil =>
      have hpos : pts > 0 := of_decide_eq_true hpts
      have hout : ¬ (pts ≥ g.min.framePts ∧ pts ≤ g.max.framePts) := by omega
      have hzero : durationOf ((t.segments pts [] g).within pts) = 0 := by
        rw [FrameTable.segments, FrameTable.Segments.within, if_neg hout, durationOf, hmin, hmax,
          hbefore]
        rfl
      rw [hzero]
      exact iff_of_true rfl trivial
    | cons rec rest =>
      rw [hunexpired] at hsorted hstamped hdescending
      have hlen : (rest.length + 1) ≤ n := by
        have hroom := h.kept.room_eq
        have hle := hsub.length_le
        rw [hunexpired, List.length_cons] at hle
        omega
      obtain ⟨last, b, hlast, hb, hone, hvalue⟩ := segments_duration (t := t) (g := g) pts hn
        hsorted hstamped (by omega) hmin hbefore
      rw [hvalue]
      exact measured_iff hdescending (of_decide_eq_true hpts) hlast hb hone
  · rw [if_neg hpts] at hduration
    rw [hduration]
    exact measured_invalid_iff hdescending fun hpos => hpts (decide_eq_true hpos)

end Updates

/-- A video frame that is queued has a time stamp of its own. -/
def FreshCall (s : FrameCache) : CacheOp → Prop
  | .queueVideo info behind => s.mCacheFrames ≠ 0 → validPts info.framePts = true →
    Fresh s.video (.insert info behind)
  | _ => True

/-- A video frame that is queued is inserted, and then the cache is updated. -/
theorem setQueueVideoInfo_video {s s' : FrameCache} {info : FrameInfo} {behind : FrameInfoInner}
    (hfresh : FreshCall s (.queueVideo info behind)) (h : s.setQueueVideoInfo info behind = some s') :
    ∃ ops, Guarded videoStep Fresh s.video ops ∧ run videoStep s.video ops = some s'.video := by
  rw [FrameCache.setQueueVideoInfo] at h
  split at h
  · next hcache =>
    obtain ⟨r, hr, rfl⟩ := Option.map_eq_some_iff.mp h
    rw [FrameTable.queueVideo] at hr
    split at hr
    · next hvalid =>
      obtain ⟨u, hu, rfl⟩ := Option.map_eq_some_iff.mp hr
      refine ⟨[.insert info behind, .update u.mLastProcessedPts s.videoCacheDuration behind],
        ⟨hfresh hcache hvalid, fun v hv => ⟨trivial, fun _ _ => trivial⟩⟩, ?_⟩
      exact run_cons_some.mpr ⟨u, hu, rfl⟩
    · obtain rfl := Option.some.inj hr
      exact ⟨[], trivial, rfl⟩
  · obtain rfl := Option.some.inj h
    exact ⟨[], trivial, rfl⟩

/-- What a call does to the video table. -/
theorem cacheStep_video {s s' : FrameCache} {op : CacheOp} (hfresh : FreshCall s op)
    (h : cacheStep s op = some s') :
    ∃ ops, Guarded videoStep Fresh s.video ops ∧ run videoStep s.video ops = some s'.video := by
  have hsame (h : s'.video = s.video) :
      ∃ ops, Guarded videoStep Fresh s.video ops ∧ run videoStep s.video ops = some s'.video :=
    ⟨[], trivial, congrArg some h.symm⟩
  cases op with
  | queueAudio info behind =>
    have hqueue : s.setQueueAudioInfo info behind = some s' := h
    rw [FrameCache.setQueueAudioInfo] at hqueue
    split at hqueue
    · obtain ⟨audio, -, rfl⟩ := Option.map_eq_some_iff.mp hqueue
      exact hsame rfl
    · obtain rfl := Option.some.inj hqueue
      exact hsame rfl
  | queueVideo info behind =>
    exact setQueueVideoInfo_video hfresh h
  | curAudio info behind =>
    obtain rfl : s.setCurAudioFrameInfo info behind = s' := Option.some.inj h
    refine hsame ?_
    rw [FrameCache.setCurAudioFrameInfo]
    split <;> rfl
  | curVideo info behind =>
    obtain rfl : s.setCurVideoFrameInfo info behind = s' := Option.some.inj h
    rw [FrameCache.setCurVideoFrameInfo]
    split
    · exact ⟨[.processed info.framePts, .update info.framePts s.videoCacheDuration behind],
        ⟨trivial, fun _ _ => ⟨trivial, fun _ _ => trivial⟩⟩, rfl⟩
    · exact ⟨[.processed info.framePts], ⟨trivial, fun _ _ => trivial⟩, rfl⟩
  | firstAudio info =>
    obtain rfl : s.setFirstAudioFrameInfo info = s' := Option.some.inj h
    refine hsame ?_
    rw [FrameCache.setFirstAudioFrameInfo]
    split <;> rfl
  | firstVideo info =>
    obtain rfl : s.setFirstVideoFrameInfo info = s' := Option.some.inj h
    rw [FrameCache.setFirstVideoFrameInfo]
    split
    · exact ⟨[.clear], ⟨trivial, fun _ _ => trivial⟩, rfl⟩
    · exact ⟨[], trivial, rfl⟩
  | firstQueueAudio info =>
    obtain rfl : s.setFirstQueueAudioInfo info = s' := Option.some.inj h
    refine hsame ?_
    rw [FrameCache.setFirstQueueAudioInfo, FrameCache.setFirstAudioFrameInfo]
    split <;> rfl
  | firstQueueVideo info =>
    obtain rfl : s.setFirstQueueVideoInfo info = s' := Option.some.inj h
    rw [FrameCache.setFirstQueueVideoInfo, FrameCache.setFirstVideoFrameInfo]
    split
    · exact ⟨[.firstPacket info, .clear], ⟨trivial, fun _ _ => ⟨trivial, fun _ _ => trivial⟩⟩, rfl⟩
    · exact ⟨[.firstPacket info], ⟨trivial, fun _ _ => trivial⟩, rfl⟩
  | setCacheFrames cache =>
    obtain rfl := Option.some.inj h
    exact hsame rfl
  | reset =>
    obtain rfl := Option.some.inj h
    exact ⟨[.clear], ⟨trivial, fun _ _ => trivial⟩, rfl⟩

/-- Every run of the calls takes the video table through such a run. -/
theorem video_reached {cache : Int} {ops : List CacheOp} {s : FrameCache}
    (hfresh : Guarded cacheStep FreshCall (startCache cache) ops)
    (hrun : run cacheStep (startCache cache) ops = some s) :
    ∃ vops, Guarded videoStep Fresh (emptyTable allocatedRecs) vops ∧
      run videoStep (emptyTable allocatedRecs) vops = some s.video := by
  have hstart : (startCache cache).video = emptyTable allocatedRecs := rfl
  rw [← hstart]
  generalize startCache cache = s₀ at hfresh hrun
  induction ops generalizing s₀ with
  | nil => exact ⟨[], trivial, congrArg (fun u : FrameCache => some u.video) (Option.some.inj hrun)⟩
  | cons op ops ih =>
    obtain ⟨s₁, hstep, hrest⟩ := run_cons_some.mp hrun
    obtain ⟨vops, hguard, hvrun⟩ := cacheStep_video hfresh.1 hstep
    obtain ⟨vops', hguard', hvrun'⟩ := ih s₁ (hfresh.2 s₁ hstep) hrest
    exact ⟨vops ++ vops', guarded_append hguard hvrun hguard', (run_append hvrun).trans hvrun'⟩

/-- For every table that the calls leave behind queued frames, and every time stamp: the newest frame
that is not after it is found and the duration is what the queue has after it, if the look-up does not
end at the newest frame, the numbers tell the frames that are played, and the last of the segments is all
there is to count. The first is needed, and where the numbers are right so is the last. -/
theorem video_cache_right {n : Nat} {t : FrameTable} {ops : List VideoOp}
    (hn : 45000 * (n : Int) < 2147483648) (hfresh : Guarded videoStep Fresh (emptyTable n) ops)
    (hrun : run videoStep (emptyTable n) ops = some t) (behind : FrameInfoInner)
    (pts duration : Int) :
    (t.Findable behind pts ∧ t.NumbersRight pts ∧
          Measured pts (segmentsOf (t.stamps (t.unexpired pts))) →
        t.Found behind pts ∧ t.DurationRight behind pts duration) ∧
      (t.Found behind pts ∧ t.DurationRight behind pts duration →
        t.Findable behind pts ∧
          (t.NumbersRight pts → Measured pts (segmentsOf (t.stamps (t.unexpired pts))))) := by
  have hkept : VideoKept n t := always_last (always_of_guarded
    (fun _ _ _ h hok hs => videoKept_step h hok hs) (VideoKept.empty n) hfresh) hrun
  rw [← found_iff hkept]
  constructor
  · rintro ⟨hfound, hnumbers, hmeasured⟩
    exact ⟨hfound, ((duration_iff hkept hn behind pts duration hfound).mpr hmeasured).trans hnumbers⟩
  · rintro ⟨hfound, hduration⟩
    refine ⟨hfound, fun hnumbers => ?_⟩
    exact (duration_iff hkept hn behind pts duration hfound).mp (hduration.trans hnumbers.symm)

/-- Frames with these time stamps are queued. -/
def queued (l : List Int) : List VideoOp := l.map fun pts => .insert ⟨pts, 0⟩ {}

/-- Two frames come before and one behind a jump, and the last one between them. -/
theorem video_cache_right_jump : ∃ t,
    run videoStep (emptyTable 5) (queued [3600, 7200, 14400, 100000, 10800]) = some t ∧
      t.Found {} 10000 ∧ t.DurationRight {} 10000 0 := by
  have hfresh : Guarded videoStep Fresh (emptyTable 5)
      (queued [3600, 7200, 14400, 100000, 10800]) := by decide
  refine ⟨_, rfl, (video_cache_right (by decide) hfresh rfl {} 10000 0).1 ⟨?_, by decide, ?_, ?_⟩⟩
  · intro rec hrec hle
    obtain rfl := Option.some.inj hrec
    exact absurd hle (by decide)
  · intro s hs
    obtain rfl := List.mem_singleton.mp hs
    decide
  · intro s hs
    obtain rfl := Option.some.inj hs
    decide

/-- The time stamp is behind the newest of three frames: that frame is not found, and the duration is that
from the second to the third. And at the fourth of five frames the fifth has an older number and is
expired. -/
theorem newest_not_found :
    (∃ t, run videoStep (emptyTable 4) (queued [3600, 7200, 10800]) = some t ∧
      ¬ t.Found {} 14400 ∧ ¬ t.DurationRight {} 14400 0) ∧
    ∃ t, run videoStep (emptyTable 5) (queued [3600, 7200, 10800, 14400, 18000]) = some t ∧
      ¬ t.DurationRight {} 14400 0 := by
  refine ⟨⟨_, rfl, fun hfound => ?_, by decide⟩, _, rfl, by decide⟩
  exact absurd (hfound.1 2 ⟨by decide, by decide, by decide⟩) (by decide)

end MediaModules.MediaSync
