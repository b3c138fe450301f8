import MediaModules.Vp9.FrameBuffers

/-!
# The balance of the reference counts

The two halves of a frame undo each other when the header succeeds. Behind a header that fails, the
second half drops holds that were never taken: it only keeps the counts when all slots it walks over
are empty.
-/
namespace MediaModules.Vp9

open MediaModules.Lib.RefCount
open MediaModules.Lib.Run
open scoped BigOperators

/-- The slots the second half walks over name no buffer. -/
def WalkedEmpty (s : Decoder) (flags : Nat) (showExisting : Bool) : Prop :=
  ∀ i, Walked flags showExisting i → s.refFrameMap i = none

/-- A frame to decode leaves the two halves in balance: it has at most eight refresh flags, and its
size is accepted, or the slots are all empty. One that waits for a key frame is turned away. -/
def FrameOk (s : Decoder) (p : Header) (e : Outcome) : Prop :=
  if p.keyFrame = true then e.frameSize = true ∨ ∀ i, s.refFrameMap i = none
  else if (p.showFrame = false ∧ p.intraOnly = true) ∨ s.needResync = false then
    p.refreshFrameFlags < 256 ∧ (e.frameSize = true ∨ ∀ i, s.refFrameMap i = none)
  else True

/-- A header leaves the two halves in balance: it is no frame before the first key frame, finds a
free buffer, and succeeds, or leaves the second half nothing to walk over. Where it fails before its
own refresh flags are read, those of an earlier header count. -/
def HeaderOk (pool : Pool) (s : Decoder) (p : Header) (e : Outcome) : Prop :=
  (s.hasKeyframe = true ∨ p.keyFrame = true ∨ p.intraOnly = true) ∧
  getFreeFb pool s ≠ none ∧
  if e.mvBuf = false ∨ MAX_PROFILES ≤ p.profile then
    WalkedEmpty s s.refreshFrameFlags s.showExistingFrame
  else if p.showExistingFrame = true then
    (∃ h : p.frameToShowIdx < REF_FRAMES, s.refFrameMap ⟨p.frameToShowIdx, h⟩ ≠ none) ∨
      WalkedEmpty s s.refreshFrameFlags true
  else FrameOk s p e

def EventOk (pool : Pool) (s : Decoder) : Event → Prop
  | .header p e _ => HeaderOk pool s p e
  | .display _ => True

/-- Between two headers the maps agree, and before the first key frame they are empty. -/
structure Sound (s : Decoder) : Prop where
  counts : ∀ b, s.refCount b = names s.refFrameMap b
  same : s.nextRefFrameMap = s.refFrameMap
  flags : s.refreshFrameFlags < 256
  waiting : s.needResync = true → ∀ i, s.refFrameMap i = none
  start : s.hasKeyframe = false → s.newFbIdx = none

/-- The first half took the buffer `i`, and did nothing else to counts and maps. -/
structure Took (s m : Decoder) (i flags : Nat) (showExisting : Bool) : Prop where
  counts : m.refCount = bump s.refCount (some i) 1
  new : m.newFbIdx = some i
  ref : m.refFrameMap = s.refFrameMap
  next : m.nextRefFrameMap = s.nextRefFrameMap
  flags : m.refreshFrameFlags = flags
  showExisting : m.showExistingFrame = showExisting
  started : m.hasKeyframe = true

section Halves
variable {pool : Pool} {s m m' : Decoder} {i flags : Nat} {showExisting : Bool}

theorem getFreeFb_spec (h : getFreeFb pool s = some i) : s.IsFree pool i := by
  have hfree := List.find?_some (p := fun i => decide (s.IsFree pool i)) h
  exact of_decide_eq_true hfree

/-- Taking a free buffer raises its count. -/
theorem take_counts (h : s.refCount i = 0) :
    (fun b => if b = i then 1 else s.refCount b) = bump s.refCount (some i) 1 := by
  funext b
  unfold bump
  by_cases hb : b = i
  · rw [if_pos hb, if_pos (congrArg some hb.symm), hb, h, Int.zero_add]
  · rw [if_neg hb, if_neg fun he => hb (Option.some.inj he).symm]

/-- The display leaves everything but its own references. -/
theorem display_fold (ds : List Display) (m : Decoder) :
    ∃ v, ds.foldl Decoder.display m = { m with vfRef := v } := by
  induction ds generalizing m with
  | nil => exact ⟨m.vfRef, rfl⟩
  | cons d ds ih =>
    obtain ⟨v, hv⟩ := ih (m.display d)
    refine ⟨v, hv.trans ?_⟩
    cases d <;> rfl

/-- What `generate_next_ref_frames` adds to the count of `b` at a slot. -/
def held (m : Decoder) (k : Fin REF_FRAMES) (b : Nat) : Int :=
  (if m.refreshFrameFlags.testBit k.val then if m.newFbIdx = some b then 1 else 0 else 0) +
    if m.refFrameMap k = some b then 1 else 0

/-- What `refresh_ref_frames` adds to the count of `b` at a slot. -/
def dropped (m : Decoder) (k : Fin REF_FRAMES) (b : Nat) : Int :=
  if Walked m.refreshFrameFlags m.showExistingFrame k then
    (if m.refFrameMap k = some b then -1 else 0) +
      if m.refreshFrameFlags.testBit k.val then if m.refFrameMap k = some b then -1 else 0 else 0
  else 0

/-- What generating the next map does. -/
theorem generate_spec (h : m.refreshFrameFlags < 256) :
    ∃ m', generateNextRefFrames m = some m' ∧
      (∀ b, m'.refCount b = m.refCount b + ∑ k, held m k b) ∧
      (∀ k : Fin REF_FRAMES, m'.nextRefFrameMap k =
        if m.refreshFrameFlags.testBit k.val then m.newFbIdx else m.refFrameMap k) ∧
      m' = { m with refCount := m'.refCount, nextRefFrameMap := m'.nextRefFrameMap } := by
  refine ⟨_, if_pos h, fun b => ?_, fun k => rfl, rfl⟩
  dsimp only
  rw [foldl_count (held m)]
  intro count k b
  rw [bump_apply, held]
  split
  · rw [bump_apply, Int.add_assoc]
  · rw [Int.zero_add]

theorem refresh_spec (h : m.refreshFrameFlags < 256) :
    ∃ m', refreshRefFrames m = some m' ∧
      (∀ b, m'.refCount b = m.refCount b + ∑ k, dropped m k b) ∧
      (∀ i, m'.refFrameMap i = if Walked m.refreshFrameFlags m.showExistingFrame i then
        m.nextRefFrameMap i else m.refFrameMap i) ∧
      m' = { m with refCount := m'.refCount, refFrameMap := m'.refFrameMap } := by
  refine ⟨_, if_pos h, fun b => ?_, fun i => rfl, rfl⟩
  dsimp only
  rw [foldl_count (dropped m)]
  intro count k b
  rw [dropped]
  split
  · split
    · rw [bump_apply, bump_apply, Int.add_assoc]
    · rw [bump_apply, Int.add_zero]
  · rw [Int.add_zero]

/-- The second half of a frame. -/
theorem postproc_spec (hflags : m.refreshFrameFlags < 256) (hnew : m.newFbIdx = some i)
    (during : List Display) :
    ∃ m', vp9BufmgrPostproc (during.foldl Decoder.display { m with postprocDone := false }) =
        some m' ∧
      (∀ b, m'.refCount b =
        m.refCount b + (∑ k, dropped m k b) + if some i = some b then -1 else 0) ∧
      (∀ k, m'.refFrameMap k = if Walked m.refreshFrameFlags m.showExistingFrame k then
        m.nextRefFrameMap k else m.refFrameMap k) ∧
      m'.nextRefFrameMap = m.nextRefFrameMap ∧ m'.refreshFrameFlags = m.refreshFrameFlags ∧
      m'.needResync = m.needResync ∧ m'.hasKeyframe = m.hasKeyframe := by
  obtain ⟨v, hv⟩ := display_fold during { m with postprocDone := false }
  obtain ⟨r, hr, hcounts, hmap, heq⟩ :=
    refresh_spec (m := { m with postprocDone := true, vfRef := v }) hflags
  have hnew' : r.newFbIdx = some i := by rw [heq]; exact hnew
  refine ⟨{ r with refCount := bump r.refCount (some i) (-1) }, ?_, fun b => ?_, hmap, ?_⟩
  · rw [hv]
    show swapFrameBuffers { m with postprocDone := true, vfRef := v } = _
    rw [swapFrameBuffers, hr, Option.bind_some, hnew', Option.map_some]
  · show bump r.refCount (some i) (-1) b = _
    rw [bump_apply, hcounts b]
    rfl
  · rw [heq]
    exact ⟨rfl, rfl, rfl, rfl⟩

/-- Without a buffer of its own, or with more than eight flags, the second half is undefined. -/
theorem postproc_none (h : m.newFbIdx = none ∨ 256 ≤ m.refreshFrameFlags) (during : List Display) :
    vp9BufmgrPostproc (during.foldl Decoder.display { m with postprocDone := false }) = none := by
  obtain ⟨v, hv⟩ := display_fold during { m with postprocDone := false }
  rw [hv]
  show swapFrameBuffers { m with postprocDone := true, vfRef := v } = none
  rcases Nat.lt_or_ge m.refreshFrameFlags 256 with hflags | hflags
  · obtain ⟨r, hr, -, -, heq⟩ :=
      refresh_spec (m := { m with postprocDone := true, vfRef := v }) hflags
    have hnew : r.newFbIdx = none := by
      rw [heq]
      exact h.resolve_right (Nat.not_le.mpr hflags)
    rw [swapFrameBuffers, hr, Option.bind_some, hnew, Option.map_none]
  · have hr : refreshRefFrames { m with postprocDone := true, vfRef := v } = none :=
      if_neg (Nat.not_lt.mpr hflags)
    rw [swapFrameBuffers, hr, Option.bind_none]

end Halves

section Headers
variable {pool : Pool} {s m : Decoder} {i flags : Nat} {shown : Bool}

/-- Where the second half walks over empty slots only, it takes back what the first half did. -/
theorem second_keeps (hs : Sound s) (ht : Took s m i flags shown)
    (hwait : m.needResync = s.needResync) (hflags : flags < 256)
    (hempty : WalkedEmpty s flags shown) (during : List Display) :
    ∃ m', vp9BufmgrPostproc (during.foldl Decoder.display { m with postprocDone := false }) =
      some m' ∧ Sound m' := by
  obtain ⟨m', hm', hcounts, hmap, hnext, hfl, hre, hkey⟩ :=
    postproc_spec (by rw [ht.flags]; exact hflags) ht.new during
  have hmap' : m'.refFrameMap = s.refFrameMap := by
    funext k
    rw [hmap k, ht.ref, ht.next, hs.same, ite_self]
  have hdrop : ∀ b k, dropped m k b = 0 := by
    intro b k
    rw [dropped, ht.flags, ht.showExisting, ht.ref]
    split
    · rename_i hw
      simp [hempty k hw]
    · rfl
  refine ⟨m', hm', ?_, ?_, ?_, ?_, ?_⟩
  · intro b
    rw [hcounts b, hmap', ← hs.counts b, ht.counts, bump_apply]
    simp only [hdrop, Finset.sum_const_zero]
    split <;> omega
  · rw [hnext, hmap', ht.next, hs.same]
  · rw [hfl, ht.flags]
    exact hflags
  · rw [hre, hwait, hmap']
    exact hs.waiting
  · intro h
    rw [hkey, ht.started] at h
    cases h

/-- A slot it walks over that names a buffer loses a reference that it still needs. -/
theorem second_breaks (hs : Sound s) (ht : Took s m i flags shown)
    (hbad : ¬ (flags < 256 ∧ WalkedEmpty s flags shown)) (during : List Display) {m' : Decoder}
    (h : vp9BufmgrPostproc (during.foldl Decoder.display { m with postprocDone := false }) =
      some m') : ¬ Balanced pool m' := by
  rcases Nat.lt_or_ge flags 256 with hflags | hflags
  · have hempty : ∃ k, Walked flags shown k ∧ s.refFrameMap k ≠ none := by
      by_contra hn
      refine hbad ⟨hflags, fun k hk => ?_⟩
      by_contra hne
      exact hn ⟨k, hk, hne⟩
    obtain ⟨k, hk, hne⟩ := hempty
    obtain ⟨b, hb⟩ := Option.ne_none_iff_exists'.mp hne
    obtain ⟨u, hu, hcounts, hmap, -⟩ :=
      postproc_spec (by rw [ht.flags]; exact hflags) ht.new during
    obtain rfl : u = m' := Option.some.inj (hu.symm.trans h)
    have hmap' : u.refFrameMap = s.refFrameMap := by
      funext k
      rw [hmap k, ht.ref, ht.next, hs.same, ite_self]
    have hneg : ∑ k, dropped m k b < 0 := by
      refine Finset.sum_neg' (fun k _ => ?_) ⟨k, Finset.mem_univ k, ?_⟩
      · unfold dropped
        split_ifs <;> decide
      · rw [dropped, ht.flags, ht.showExisting, ht.ref, if_pos hk, if_pos hb]
        split <;> decide
    intro hbal
    have hlow := hcounts b
    rw [hbal.counts b, hmap', ← hs.counts b, ht.counts, bump_apply] at hlow
    split at hlow <;> omega
  · rw [postproc_none (Or.inr (by rw [ht.flags]; exact hflags))] at h
    cases h

/-- Behind a header that succeeds, the second half makes the next map the map. -/
theorem second_completes (hs : Sound s) (ht : Took s m i flags false) (hflags : flags < 256)
    (hre : m.needResync = false) (during : List Display) :
    ∃ g m', generateNextRefFrames m = some g ∧
      vp9BufmgrPostproc (during.foldl Decoder.display { g with postprocDone := false }) =
        some m' ∧ Sound m' := by
  have hfl : m.refreshFrameFlags < 256 := by rw [ht.flags]; exact hflags
  obtain ⟨g, hg, hheld, hgnext, heq⟩ := generate_spec hfl
  have hgflags : g.refreshFrameFlags = m.refreshFrameFlags := by rw [heq]
  have hgref : g.refFrameMap = s.refFrameMap := by rw [heq]; exact ht.ref
  have hgshown : g.showExistingFrame = false := by rw [heq]; exact ht.showExisting
  obtain ⟨m', hm', hcounts, hmap, hnext, hfl', hre', hkey⟩ :=
    postproc_spec (hgflags.trans_lt hfl) (by rw [heq]; exact ht.new) during
  have hwalked : ∀ k, Walked g.refreshFrameFlags g.showExistingFrame k :=
    fun k => Or.inr hgshown
  have hmap' : m'.refFrameMap = g.nextRefFrameMap := by
    funext k
    rw [hmap k, if_pos (hwalked k)]
  -- slot by slot, what is held and dropped turns the old name into the new one
  have hslot : ∀ b k, (if s.refFrameMap k = some b then 1 else 0) + (held m k b + dropped g k b) =
      if g.nextRefFrameMap k = some b then (1 : Int) else 0 := by
    intro b k
    rw [held, dropped, if_pos (hwalked k), hgnext k, hgflags, hgref, ht.ref]
    split_ifs <;> rfl
  refine ⟨g, m', hg, hm', ?_, ?_, ?_, ?_, ?_⟩
  · intro b
    have hsum : names s.refFrameMap b + (∑ k, held m k b + ∑ k, dropped g k b) =
        names g.nextRefFrameMap b := by
      rw [names, names, ← Finset.sum_add_distrib, ← Finset.sum_add_distrib]
      exact Finset.sum_congr rfl fun k _ => hslot b k
    rw [hmap', ← hsum, hcounts b, hheld b, ht.counts, bump_apply, hs.counts b]
    split <;> omega
  · rw [hnext, hmap']
  · rw [hfl', hgflags]
    exact hfl
  · intro h
    rw [hre', heq] at h
    rw [hre] at h
    cases h
  · intro h
    rw [hkey, heq] at h
    rw [ht.started] at h
    cases h

theorem walkedEmpty_hidden : WalkedEmpty s flags false ↔ ∀ k, s.refFrameMap k = none :=
  ⟨fun h k => h k (Or.inr rfl), fun h k _ => h k⟩

/-- Showing a frame again exchanges the buffer just taken for the one that is shown. -/
theorem processShow_cases (hs : Sound s) (ht : Took s m i s.refreshFrameFlags true) (p : Header) :
    ∃ j flags, Took s (processShow m p).2 j flags true ∧
      (processShow m p).2.needResync = m.needResync ∧
      (((∃ h : p.frameToShowIdx < REF_FRAMES, s.refFrameMap ⟨p.frameToShowIdx, h⟩ ≠ none) ∨
        WalkedEmpty s s.refreshFrameFlags true) ↔ flags < 256 ∧ WalkedEmpty s flags true) := by
  unfold processShow
  split
  · rename_i hnone
    refine ⟨i, s.refreshFrameFlags, ht, rfl, ?_⟩
    have hno : ¬ ∃ h : p.frameToShowIdx < REF_FRAMES,
        s.refFrameMap ⟨p.frameToShowIdx, h⟩ ≠ none := by
      rintro ⟨h, hne⟩
      rw [dif_pos h, ht.ref] at hnone
      exact hne hnone
    exact ⟨fun h => ⟨hs.flags, h.resolve_left hno⟩, fun h => Or.inr h.2⟩
  · rename_i f hf
    have hidx : p.frameToShowIdx < REF_FRAMES := by
      by_contra hn
      rw [dif_neg hn] at hf
      cases hf
    rw [dif_pos hidx, ht.ref] at hf
    have hcount : ¬ m.refCount f < 1 := by
      have hpos := names_pos hf
      rw [ht.counts, bump_apply, hs.counts f]
      split <;> omega
    rw [if_neg hcount]
    have htaken : 0 < m.refCount i := by
      have hnonneg := names_nonneg s.refFrameMap i
      rw [ht.counts, bump_apply, if_pos rfl, hs.counts i]
      omega
    have hback : bump m.refCount (some i) (-1) = s.refCount := by
      funext b
      rw [bump_apply, ht.counts, bump_apply]
      split <;> omega
    refine ⟨f, 0, ⟨?_, rfl, ht.ref, ht.next, rfl, ht.showExisting, ht.started⟩, rfl, ?_⟩
    · simp only [refCntFb, ht.new, if_pos htaken, hback]
    · refine ⟨fun _ => ⟨by decide, fun k hk => ?_⟩, fun _ => Or.inl ⟨hidx, ?_⟩⟩
      · rcases hk with hk | hk
        · exact absurd (Nat.zero_shiftRight k.val) hk
        · cases hk
      · rw [hf]
        exact Option.some_ne_none f

/-- A frame to decode is turned away or ends without a size, or its references are counted. -/
def FrameEnds (s m : Decoder) (i : Nat) (p : Header) (e : Outcome) : Prop :=
  (∃ r flags, processFrame m p e = some r ∧ Took s r.2 i flags false ∧
    r.2.needResync = s.needResync ∧
    (FrameOk s p e ↔ flags < 256 ∧ WalkedEmpty s flags false)) ∨
  (∃ g flags, processFrame m p e = (generateNextRefFrames g).map (fun s => (0, s)) ∧
    Took s g i flags false ∧ g.needResync = false ∧ (FrameOk s p e ↔ flags < 256))

theorem processFrame_cases (hs : Sound s) (ht : Took s m i s.refreshFrameFlags false)
    (hre : m.needResync = s.needResync) (p : Header) (e : Outcome) :
    FrameEnds s m i p e := by
  have hset : ∀ flags, Took s { m with refreshFrameFlags := flags } i flags false := fun flags =>
    ⟨ht.counts, ht.new, ht.ref, ht.next, rfl, ht.showExisting, ht.started⟩
  have hresync : ∀ flags, Took s (resync { m with refreshFrameFlags := flags }) i flags false ∧
      (resync { m with refreshFrameFlags := flags }).needResync = false := by
    intro flags
    unfold resync
    split
    · rename_i hwait
      have hwait' : s.needResync = true := hre.symm.trans hwait
      refine ⟨⟨ht.counts, ht.new, ?_, ht.next, rfl, ht.showExisting, ht.started⟩, rfl⟩
      funext k
      exact (hs.waiting hwait' k).symm
    · rename_i hwait
      exact ⟨hset flags, Bool.not_eq_true _ ▸ hwait⟩
  -- every frame that is not turned away ends in one of two ways, by its size
  have hsized : ∀ (flags : Nat) (next : Decoder), Took s next i flags false →
      next.needResync = false →
      (processFrame m p e = if e.frameSize then finishHeader next
        else some (-1, { m with refreshFrameFlags := flags })) →
      (FrameOk s p e ↔ flags < 256 ∧ (e.frameSize = true ∨ ∀ i, s.refFrameMap i = none)) →
      FrameEnds s m i p e := by
    intro flags next hnext hready hprocess hok
    rw [FrameEnds, hprocess, hok]
    cases hsize : e.frameSize with
    | false =>
      refine Or.inl ⟨_, flags, rfl, hset flags, hre, ?_⟩
      rw [walkedEmpty_hidden]
      simp
    | true =>
      refine Or.inr ⟨next, flags, ?_, hnext, hready, by simp⟩
      rw [if_pos rfl, finishHeader, hready]
      rfl
  by_cases hkey : p.keyFrame = true
  · refine hsized 255 _ (hresync 255).1 (hresync 255).2 ?_ ?_
    · rw [processFrame, if_pos hkey]
    · rw [FrameOk, if_pos hkey]
      simp
  · by_cases hintra : (!p.showFrame && p.intraOnly) = true
    · have hhidden : p.showFrame = false ∧ p.intraOnly = true := by simpa using hintra
      refine hsized p.refreshFrameFlags _ (hresync _).1 (hresync _).2 ?_ ?_
      · rw [processFrame, if_neg hkey, if_pos hintra]
      · rw [FrameOk, if_neg hkey, if_pos (Or.inl hhidden)]
    · have hhidden : ¬ (p.showFrame = false ∧ p.intraOnly = true) := by simpa using hintra
      cases hwait : m.needResync with
      | true =>
        have hwait' : s.needResync = true := hre.symm.trans hwait
        have hok : FrameOk s p e := by
          rw [FrameOk, if_neg hkey, if_neg (by simp [hhidden, hwait'])]
          trivial
        have hprocess : processFrame m p e = some (-1, m) := by
          rw [processFrame, if_neg hkey, if_neg hintra, if_pos hwait, finishHeader, if_pos hwait]
        refine Or.inl ⟨_, s.refreshFrameFlags, hprocess, ht, hre, ?_⟩
        rw [walkedEmpty_hidden]
        exact ⟨fun _ => ⟨hs.flags, hs.waiting hwait'⟩, fun _ => hok⟩
      | false =>
        have hwait' : s.needResync = false := hre.symm.trans hwait
        refine hsized p.refreshFrameFlags _ (hset _) hwait ?_ ?_
        · rw [processFrame, if_neg hkey, if_neg hintra, if_neg (by simp [hwait])]
          rfl
        · rw [FrameOk, if_neg hkey, if_pos (Or.inr hwait')]

/-- The state in which a header has taken the free buffer `i`. -/
def taken (s : Decoder) (i : Nat) : Decoder :=
  { s with
    hasKeyframe := true, newFbIdx := some i
    refCount := fun b => if b = i then 1 else s.refCount b }

theorem taken_took (hi : getFreeFb pool s = some i) :
    Took s (taken s i) i s.refreshFrameFlags s.showExistingFrame :=
  ⟨take_counts (getFreeFb_spec hi).1, rfl, rfl, rfl, rfl, rfl, rfl⟩

/-- A header with a free buffer. -/
theorem process_taken {p : Header} {e : Outcome}
    (hstart : s.hasKeyframe = true ∨ p.keyFrame = true ∨ p.intraOnly = true)
    (hi : getFreeFb pool s = some i) :
    vp9BufmgrProcess pool s p e =
      if e.mvBuf = false then some (-1, taken s i)
      else if MAX_PROFILES ≤ p.profile then some (-1, { taken s i with curFrame := some i })
      else if p.showExistingFrame = true then
        some (processShow
          { taken s i with curFrame := some i, showExistingFrame := p.showExistingFrame } p)
      else processFrame
        { taken s i with curFrame := some i, showExistingFrame := p.showExistingFrame } p e := by
  have hskip : ¬ (s.hasKeyframe = false ∧ p.keyFrame = false ∧ p.intraOnly = false) := by
    simp only [not_and_or, Bool.not_eq_false]
    exact hstart
  rw [vp9BufmgrProcess, if_neg hskip, hi]
  cases e.mvBuf <;> rfl

variable (pool) in
/-- What a header leads to, before the second half: no buffer, an early return, or the holds. -/
theorem process_cases (hs : Sound s) (p : Header) (e : Outcome) :
    (∃ r, vp9BufmgrProcess pool s p e = some r ∧ r.2.newFbIdx = none ∧ ¬ HeaderOk pool s p e) ∨
    (∃ r i flags shown, vp9BufmgrProcess pool s p e = some r ∧ Took s r.2 i flags shown ∧
      r.2.needResync = s.needResync ∧
      (HeaderOk pool s p e ↔ flags < 256 ∧ WalkedEmpty s flags shown)) ∨
    (∃ m i flags, vp9BufmgrProcess pool s p e = (generateNextRefFrames m).map (fun s => (0, s)) ∧
      Took s m i flags false ∧ m.needResync = false ∧ (HeaderOk pool s p e ↔ flags < 256)) := by
  by_cases hstart : s.hasKeyframe = true ∨ p.keyFrame = true ∨ p.intraOnly = true
  · cases hi : getFreeFb pool s with
    | none =>
      have hskip : ¬ (s.hasKeyframe = false ∧ p.keyFrame = false ∧ p.intraOnly = false) := by
        simp only [not_and_or, Bool.not_eq_false]
        exact hstart
      refine Or.inl ⟨(-1, { s with hasKeyframe := true, newFbIdx := none }), ?_, rfl,
        fun h => h.2.1 hi⟩
      rw [vp9BufmgrProcess, if_neg hskip, hi]
    | some i =>
      have hfree : getFreeFb pool s ≠ none := hi ▸ Option.some_ne_none i
      have htook := taken_took hi
      rw [process_taken hstart hi]
      by_cases hmv : e.mvBuf = false
      · refine Or.inr (Or.inl ⟨(-1, taken s i), i, _, _, if_pos hmv, htook, rfl, ?_⟩)
        simp [HeaderOk, hstart, hfree, hmv, hs.flags]
      · rw [if_neg hmv]
        by_cases hprofile : MAX_PROFILES ≤ p.profile
        · refine Or.inr (Or.inl ⟨(-1, { taken s i with curFrame := some i }), i,
            s.refreshFrameFlags, s.showExistingFrame, if_pos hprofile, ?_, rfl, ?_⟩)
          · exact ⟨htook.counts, rfl, rfl, rfl, rfl, rfl, rfl⟩
          · simp [HeaderOk, hstart, hfree, hprofile, hs.flags]
        · rw [if_neg hprofile]
          have hshown : Took s { taken s i with
              curFrame := some i, showExistingFrame := p.showExistingFrame } i
              s.refreshFrameFlags p.showExistingFrame :=
            ⟨htook.counts, rfl, rfl, rfl, rfl, rfl, rfl⟩
          have hok : HeaderOk pool s p e ↔
              if p.showExistingFrame = true then
                (∃ h : p.frameToShowIdx < REF_FRAMES, s.refFrameMap ⟨p.frameToShowIdx, h⟩ ≠ none) ∨
                  WalkedEmpty s s.refreshFrameFlags true
              else FrameOk s p e := by
            rw [HeaderOk, if_neg (by simp [hmv, hprofile])]
            exact ⟨fun h => h.2.2, fun h => ⟨hstart, hfree, h⟩⟩
          rw [hok]
          cases hshow : p.showExistingFrame with
          | true =>
            rw [hshow] at hshown
            obtain ⟨j, flags, h1, h2, h3⟩ := processShow_cases hs hshown p
            exact Or.inr (Or.inl ⟨_, j, flags, true, if_pos rfl, h1, h2, h3⟩)
          | false =>
            rw [hshow] at hshown
            rcases processFrame_cases hs hshown rfl p e with
              ⟨r, flags, h1, h2, h3, h4⟩ | ⟨g, flags, h1, h2, h3, h4⟩
            · exact Or.inr (Or.inl ⟨r, i, flags, false, h1, h2, h3, h4⟩)
            · exact Or.inr (Or.inr ⟨g, i, flags, h1, h2, h3, h4⟩)
  · refine Or.inl ⟨(-2, s), ?_, ?_, fun h => hstart h.1⟩
    · rw [vp9BufmgrProcess, if_pos]
      simp only [not_or, Bool.not_eq_true] at hstart
      exact hstart
    · apply hs.start
      simp only [not_or, Bool.not_eq_true] at hstart
      exact hstart.1

end Headers

section Runs
variable {pool : Pool} {s : Decoder}

theorem Sound.balanced (hs : Sound s) : Balanced pool s := by
  refine ⟨hs.counts, fun i hi k hk => ?_, fun b hindex hcur hfree hvf => ?_⟩
  · have hpos := names_pos hk
    rw [← hs.counts i, (getFreeFb_spec hi).1] at hpos
    omega
  · exact ⟨(hs.counts b).trans (names_eq_zero.mpr hfree), hvf, hindex, hcur⟩

theorem header_keeps (hs : Sound s) {p : Header} {e : Outcome} (hok : HeaderOk pool s p e)
    (during : List Display) : ∃ s', step pool s (.header p e during) = some s' ∧ Sound s' := by
  rcases process_cases pool hs p e with
    ⟨r, -, -, hno⟩ | ⟨r, i, flags, shown, hr, ht, hre, hiff⟩ | ⟨m, i, flags, hr, ht, hre, hiff⟩
  · exact absurd hok hno
  · obtain ⟨s', h1, h2⟩ := second_keeps hs ht hre (hiff.mp hok).1 (hiff.mp hok).2 during
    refine ⟨s', ?_, h2⟩
    rw [step, hr]
    exact h1
  · obtain ⟨g, s', h1, h2, h3⟩ := second_completes hs ht (hiff.mp hok) hre during
    refine ⟨s', ?_, h3⟩
    rw [step, hr, h1]
    exact h2

theorem header_breaks (hs : Sound s) {p : Header} {e : Outcome} (hbad : ¬ HeaderOk pool s p e)
    (during : List Display) {s' : Decoder} (h : step pool s (.header p e during) = some s') :
    ¬ Balanced pool s' := by
  rw [step] at h
  rcases process_cases pool hs p e with
    ⟨r, hr, hnone, -⟩ | ⟨r, i, flags, shown, hr, ht, hre, hiff⟩ | ⟨m, i, flags, hr, ht, hre, hiff⟩
  · rw [hr, Option.bind_some, postproc_none (Or.inl hnone)] at h
    cases h
  · rw [hr] at h
    exact second_breaks hs ht (fun hok => hbad (hiff.mpr hok)) during h
  · have hflags : ¬ m.refreshFrameFlags < 256 := by
      rw [ht.flags]
      exact fun hlt => hbad (hiff.mpr hlt)
    rw [hr, generateNextRefFrames, if_neg hflags] at h
    cases h

theorem display_sound (hs : Sound s) (d : Display) : Sound (s.display d) := by
  cases d <;> exact ⟨hs.counts, hs.same, hs.flags, hs.waiting, hs.start⟩

theorem start_sound : Sound {} where
  counts b := (names_eq_zero.mpr fun _ h => by cases h).symm
  same := rfl
  flags := by decide
  waiting _ _ := rfl
  start _ := rfl

/-- Over any headers, with any outcomes and any moves of the display, the counts are those of the
slots after every frame exactly when every header leaves the two halves in balance. -/
theorem counts_match_iff (pool : Pool) (events : List Event) :
    ((∃ t, run (step pool) {} events = some t) ∧ Always (step pool) (Balanced pool) {} events) ↔
      Guarded (step pool) (EventOk pool) {} events := by
  refine defined_iff_guarded (P := Sound) (fun s hs => hs.balanced) ?_ ?_ start_sound
  · intro s event hs hok
    cases event with
    | header p e during => exact header_keeps hs hok during
    | display d => exact ⟨_, rfl, display_sound hs d⟩
  · intro s event s' hs hbad h
    cases event with
    | header p e during => exact header_breaks hs hbad during h
    | display d => exact absurd trivial hbad

/-- Ten buffers with memory. -/
def tenBuffers : Pool := { usedBufNum := 10, hasIndex := fun b => decide (b < 10) }

/-- A key frame, and a frame without refresh flags whose pages cannot be allocated. -/
def sizeFailure : List Event :=
  [.header { keyFrame := true, intraOnly := false, profile := 0, showExistingFrame := false,
             frameToShowIdx := 0, showFrame := true, refreshFrameFlags := 255 }
      { mvBuf := true, frameSize := true } [],
   .header { keyFrame := false, intraOnly := false, profile := 0, showExistingFrame := false,
             frameToShowIdx := 0, showFrame := true, refreshFrameFlags := 0 }
      { mvBuf := true, frameSize := false } []]

/-- All slots name the buffer of the key frame; behind the failure its count is 0, and it is handed
out for the next frame. -/
theorem named_buffer_handed_out :
    (run (step tenBuffers) {} sizeFailure).map (fun t =>
        (t.refCount 0, names t.refFrameMap 0, getFreeFb tenBuffers t)) = some (0, 8, some 0) ∧
      ¬ ((∃ t, run (step tenBuffers) {} sizeFailure = some t) ∧
        Always (step tenBuffers) (Balanced tenBuffers) {} sizeFailure) := by
  have hread : (run (step tenBuffers) {} sizeFailure).map (fun t =>
      (t.refCount 0, names t.refFrameMap 0, getFreeFb tenBuffers t)) = some (0, 8, some 0) := by
    decide +kernel
  refine ⟨hread, ?_⟩
  rintro ⟨⟨t, ht⟩, halways⟩
  have hlast := read_of_run _ hread ht
  simp only [Prod.mk.injEq] at hlast
  have hcount := (always_last halways ht).counts 0
  rw [hlast.1, hlast.2.1] at hcount
  cases hcount

end Runs

end MediaModules.Vp9
