import MediaModules.H264Dpb.GapFrames
import MediaModules.H264Dpb.Runs

/-!
# When a gap is filled

`fill_frame_num_gap` gives the slice back as it was when no turn returns, and a gap of which
nothing failed holds a short-term reference frame for each number when the slice is one of a frame
and no picture of the pool brings the flags of a long-term IDR picture along.
-/
namespace MediaModules.H264Dpb.Dpb

open MediaModules.H264Dpb

variable {s : Dpb} {d : Option Nat} {fuel : Nat} {curr n : Int}

/-! ## The frame of a turn -/

/-- The picture of a turn lies in the store behind those that were kept, as a whole short-term
reference frame that does not exist. -/
structure GapFrame (s t : Dpb) (n : Int) (kept : List Nat) (i p : Nat) : Prop where
  taken : s.freePic = some p
  sublist : kept.Sublist s.used
  used : t.used = kept ++ [i]
  isUsed : (t.stores i).isUsed = .both
  isReference : (t.stores i).isReference = .both
  frame : (t.stores i).frame = some p
  storeNum : (t.stores i).frameNum = n
  picStructure : (t.pics p).picStructure = .frame
  nonExisting : (t.pics p).nonExisting = true
  frameNum : (t.pics p).frameNum = n
  usedForReference : (t.pics p).usedForReference = true
  shortTerm : (t.pics p).isLongTerm = false

/-- The turn stored one frame. -/
def GapStored (s t : Dpb) (n : Int) : Prop := ∃ kept i p, s.GapFrame t n kept i p

/-- A stored picture is such a frame exactly when the slice is one of a frame and the picture was
no long-term IDR picture before. -/
theorem gapStored_iff (h : s.frames.Gapped none) (hr : (s.gapTurn n).1 = .stored) :
    s.GapStored (s.gapTurn n).2 n ↔
      s.mSlice.picStructure = .frame ∧ s.recyclesLongIdr = false := by
  by_cases hs : s.mSlice.picStructure = .frame
  · obtain ⟨i, p, kept, q, hfree, hkept, happend, hq⟩ := gapTurn_frame h hs hr
    have hpic := happend.pic.trans hq
    have hstore := happend.store
    simp only [gapKey, Prod.mk.injEq] at hpic hq
    rw [hq.2.2.2.2.1] at hstore
    simp only [storeKey, Prod.mk.injEq] at hstore
    constructor
    · rintro ⟨kept', i', p', hframe⟩
      have hp : p' = p := Option.some.inj (hframe.taken.symm.trans hfree)
      have hshort := hframe.shortTerm
      rw [hp, hpic.2.2.2.2.2.2] at hshort
      exact ⟨hs, hshort⟩
    · rintro ⟨-, hshort⟩
      rw [hshort] at hpic
      exact ⟨kept, i, p, hfree, hkept, happend.used, hstore.1, hstore.2.1, hstore.2.2.1,
        hstore.2.2.2, hpic.2.1, hpic.2.2.1, hpic.2.2.2.1, hpic.2.2.2.2.2.1, hpic.2.2.2.2.2.2⟩
  · obtain ⟨p, hfree, hfield⟩ := gapTurn_field h hs hr
    refine iff_of_false ?_ fun hboth => hs hboth.1
    rintro ⟨kept, i, p', hframe⟩
    have hp : p' = p := Option.some.inj (hframe.taken.symm.trans hfree)
    exact hfield (hp ▸ hframe.picStructure)

/-- The turns that store a picture each store a frame of the gap exactly when every one of them
finds the slice and the pool as it needs them. -/
theorem turns_stored_iff (h : s.frames.Gapped none)
    (hall : ∀ r ∈ turnsFrom curr fuel n s, r.result = .stored) :
    (∀ r ∈ turnsFrom curr fuel n s, r.before.GapStored r.after r.frameNum) ↔
      ∀ r ∈ turnsFrom curr fuel n s,
        r.before.mSlice.picStructure = .frame ∧ r.before.recyclesLongIdr = false := by
  induction fuel generalizing n s with
  | zero => exact iff_of_true (List.forall_mem_nil _) (List.forall_mem_nil _)
  | succ fuel ih =>
    by_cases hne : curr = n
    · rw [turnsFrom_nil hne]
      exact iff_of_true (List.forall_mem_nil _) (List.forall_mem_nil _)
    · rw [turnsFrom_cons hne] at hall ⊢
      obtain ⟨hr, hrest⟩ := List.forall_mem_cons.mp hall
      have hr : (s.gapTurn n).1 = .stored := hr
      rw [hr] at hrest ⊢
      rw [List.forall_mem_cons, List.forall_mem_cons]
      by_cases hs : s.mSlice.picStructure = .frame
      · obtain ⟨i, p, kept, q, -, -, happend, -⟩ := gapTurn_frame h hs hr
        have hgapped : ((s.gapTurn n).2.noteFrameNum n).frames.Gapped none := happend.gapped
        exact and_congr (gapStored_iff h hr) (ih hgapped hrest)
      · -- a field is stored by the first turn
        refine iff_of_false (fun hleft => ?_) fun hright => hs hright.1.1
        exact hs ((gapStored_iff h hr).mp hleft.1).1

theorem turnsFrom_structure : ∀ r ∈ turnsFrom curr fuel n s,
    r.before.mSlice.picStructure = s.mSlice.picStructure := by
  induction fuel generalizing n s with
  | zero => exact List.forall_mem_nil _
  | succ fuel ih =>
    by_cases hne : curr = n
    · rw [turnsFrom_nil hne]
      exact List.forall_mem_nil _
    · rw [turnsFrom_cons hne, List.forall_mem_cons]
      refine ⟨rfl, ?_⟩
      split
      · exact List.forall_mem_nil _
      · intro r hr
        have hkey := (gapTurn_slice s n).2
        simp only [sliceKey, Prod.mk.injEq] at hkey
        exact (ih r hr).trans hkey.2.2.2

/-! ## The gap -/

/-- `fill_frame_num_gap` comes to an end with the slice as it was, and when nothing fails, its
turns store a frame for each missing number in order. -/
structure GapFilled (s : Dpb) : Prop where
  ends : ∃ t sl, s.fillFrameNumGap = some t ∧ s.Restored t ∧
    t = { lastState s.gapStart s.gapTurns with mSlice := sl }
  numbers : (∀ r ∈ s.gapTurns, r.result = .stored) →
    s.gapTurns.map Turn.frameNum = s.gapNumbers
  frames : (∀ r ∈ s.gapTurns, r.result = .stored) →
    ∀ r ∈ s.gapTurns, r.before.GapStored r.after r.frameNum

/-- A turn that goes on has stored its picture or refused it. -/
theorem stored_of_goes_on {result : GapEnd} (h : result.returns = false)
    (hdup : result ≠ .duplicate) : result = .stored := by
  cases result with
  | stored => rfl
  | duplicate => exact absurd rfl hdup
  | full => exact absurd h (by decide)
  | noPicture => exact absurd h (by decide)

/-- A gap is filled exactly when no turn returns, and a turn's picture is refused as a duplicate
or every turn has a frame to store and a picture that was no long-term IDR picture. -/
theorem gap_filled_iff (h : s.frames.Pooled d)
    (hnum : 0 ≤ s.mSlice.frameNum ∧ s.mSlice.frameNum < s.mVideo.maxFrameNum) :
    s.GapFilled ↔ (∀ r ∈ s.gapTurns, r.result.returns = false) ∧
      ((∃ r ∈ s.gapTurns, r.result = .duplicate) ∨
        ∀ r ∈ s.gapTurns, s.mSlice.picStructure = .frame ∧ r.before.recyclesLongIdr = false) := by
  obtain ⟨p, hfree, -⟩ := h.room.one
  have hrestored := fillFrameNumGap_restored hnum (Option.isSome_iff_exists.mpr ⟨p, hfree⟩)
  have hgapped : s.gapStart.frames.Gapped none := h.gapped
  -- when every picture is stored, the frames depend on the slice and the pool alone
  have hframes (hall : ∀ r ∈ s.gapTurns, r.result = .stored) :
      (∀ r ∈ s.gapTurns, r.before.GapStored r.after r.frameNum) ↔
        ∀ r ∈ s.gapTurns, s.mSlice.picStructure = .frame ∧ r.before.recyclesLongIdr = false := by
    refine (turns_stored_iff hgapped hall).trans (forall₂_congr fun r hr => ?_)
    have hsame : r.before.mSlice.picStructure = s.mSlice.picStructure :=
      turnsFrom_structure (s := s.gapStart) r hr
    rw [hsame]
  constructor
  · rintro ⟨⟨t, sl, ht, hr, -⟩, -, hstored⟩
    have hret := hrestored.mp ⟨t, ht, hr⟩
    refine ⟨hret, ?_⟩
    by_cases hdup : ∃ r ∈ s.gapTurns, r.result = .duplicate
    · exact Or.inl hdup
    · have hall : ∀ r ∈ s.gapTurns, r.result = .stored := fun r hr =>
        stored_of_goes_on (hret r hr) fun hresult => hdup ⟨r, hr, hresult⟩
      exact Or.inr ((hframes hall).mp (hstored hall))
  · rintro ⟨hret, hcond⟩
    obtain ⟨t, ht, hr⟩ := hrestored.mpr hret
    obtain ⟨sl, hlast⟩ := fillFrameNumGap_last ht
    refine ⟨⟨t, sl, ht, hr, hlast⟩, fun _ => gapTurns_numbers hnum hret, fun hall => ?_⟩
    apply (hframes hall).mpr
    apply hcond.resolve_left
    rintro ⟨r, hmem, hdup⟩
    rw [hall r hmem] at hdup
    exact absurd hdup nofun

/-- A reference frame of a stream with the given number of reference frames. -/
def frameSlice (numRefFrames frameNum : Int) : SliceParam where
  sps := { numRefFrames := numRefFrames }
  nalReferenceIdc := 1
  frameNum := frameNum
  deltaPicOrderCnt0 := 5

/-- Three frame numbers are missing after the first frame; the buffer is large enough. -/
theorem gap_filled_three : ∃ s, Lib.Run.run step (initial 4 {} {} .idle)
      [.slice (frameSlice 2 0) true, .store 0 []] = some s ∧
    (s.slicePrepare (frameSlice 2 4)).gapNumbers = [1, 2, 3] ∧
    (s.slicePrepare (frameSlice 2 4)).gapTurns.map Turn.result = [.stored, .stored, .stored] ∧
    (s.slicePrepare (frameSlice 2 4)).GapFilled := by
  obtain ⟨s, hs⟩ := Option.isSome_iff_exists.mp
    (by decide +kernel : (Lib.Run.run step (initial 4 {} {} .idle)
      [.slice (frameSlice 2 0) true, .store 0 []]).isSome = true)
  obtain ⟨d, hp⟩ := pooled_reachable ⟨4, {}, {}, .idle, by decide, _, hs⟩
  have hresults : (s.slicePrepare (frameSlice 2 4)).gapTurns.map Turn.result =
      [.stored, .stored, .stored] :=
    Lib.Run.read_of_run (fun s => (s.slicePrepare (frameSlice 2 4)).gapTurns.map Turn.result)
      (by decide +kernel) hs
  have hclean : ∀ r ∈ (s.slicePrepare (frameSlice 2 4)).gapTurns,
      (s.slicePrepare (frameSlice 2 4)).mSlice.picStructure = .frame ∧
        r.before.recyclesLongIdr = false :=
    of_decide_eq_true (Lib.Run.read_of_run (fun s => decide
      (∀ r ∈ (s.slicePrepare (frameSlice 2 4)).gapTurns,
        (s.slicePrepare (frameSlice 2 4)).mSlice.picStructure = .frame ∧
          r.before.recyclesLongIdr = false)) (by decide +kernel) hs)
  have hstored : ∀ r ∈ (s.slicePrepare (frameSlice 2 4)).gapTurns, r.result.returns = false := by
    intro r hr
    have hmem := List.mem_map_of_mem (f := Turn.result) hr
    rw [hresults] at hmem
    simp only [List.mem_cons, List.not_mem_nil, or_false, or_self] at hmem
    rw [hmem]
    rfl
  have hnum : (0 : Int) ≤ 4 ∧ (4 : Int) < 2 ^ (0 + 4) := by decide
  refine ⟨s, hs, Lib.Run.read_of_run (fun s => (s.slicePrepare (frameSlice 2 4)).gapNumbers)
    (by decide +kernel) hs, hresults, ?_⟩
  exact (gap_filled_iff (s := s.slicePrepare (frameSlice 2 4)) hp hnum).mpr
    ⟨hstored, Or.inr hclean⟩

/-- The only frame store waits for the display: the first picture of the gap has no place, and the
slice keeps its frame number and has lost its offset. -/
theorem gap_full_buffer : ∃ s, Lib.Run.run step (initial 1 {} {} .idle)
      [.slice (frameSlice 1 0) true, .store 0 []] = some s ∧
    (s.slicePrepare (frameSlice 1 2)).mSlice.frameNum = 2 ∧
    (s.slicePrepare (frameSlice 1 2)).mSlice.deltaPicOrderCnt0 = 5 ∧
    ((s.slicePrepare (frameSlice 1 2)).fillFrameNumGap.map fun t =>
      (t.mSlice.frameNum, t.mSlice.deltaPicOrderCnt0)) = some (1, 0) ∧
    ¬ (s.slicePrepare (frameSlice 1 2)).GapFilled := by
  obtain ⟨s, hs⟩ := Option.isSome_iff_exists.mp
    (by decide +kernel : (Lib.Run.run step (initial 1 {} {} .idle)
      [.slice (frameSlice 1 0) true, .store 0 []]).isSome = true)
  have hleft : ((s.slicePrepare (frameSlice 1 2)).fillFrameNumGap.map fun t =>
      (t.mSlice.frameNum, t.mSlice.deltaPicOrderCnt0)) = some (1, 0) :=
    Lib.Run.read_of_run (fun s => (s.slicePrepare (frameSlice 1 2)).fillFrameNumGap.map fun t =>
      (t.mSlice.frameNum, t.mSlice.deltaPicOrderCnt0)) (by decide +kernel) hs
  refine ⟨s, hs, rfl, rfl, hleft, fun hfilled => ?_⟩
  obtain ⟨t, sl, ht, hr, -⟩ := hfilled.ends
  rw [ht] at hleft
  have hnum : t.mSlice.frameNum = 1 := congrArg Prod.fst (Option.some.inj hleft)
  have htwo : t.mSlice.frameNum = 2 := hr.frameNum
  rw [hnum] at htwo
  exact absurd htwo (by decide)

end MediaModules.H264Dpb.Dpb
