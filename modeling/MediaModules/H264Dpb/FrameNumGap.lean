import MediaModules.H264Dpb.Moves
import MediaModules.H264Dpb.Poc

/-!
# Gaps in the frame number

`fill_frame_num_gap`: for each frame number that was left out the loop takes a picture from the
pool, lends the slice its frame number and stores the picture. When the picture or its place is
missing, it returns from the middle of the loop.
-/
namespace MediaModules.H264Dpb

/-- How a turn of the loop ends: the picture was stored, refused as a duplicate (`-2`), had no
place (`-1`), or there was none. -/
inductive GapEnd
  | stored
  | duplicate
  | full
  | noPicture
deriving DecidableEq, Repr

/-- The turn returns from `fill_frame_num_gap`. -/
def GapEnd.returns : GapEnd → Bool
  | .stored => false
  | .duplicate => false
  | .full => true
  | .noPicture => true

namespace Dpb

open MediaModules.H264Dpb

/-- A picture for a missing frame number. -/
def gapPicture (frameNum : Int) (q : StorablePicture) : StorablePicture :=
  { q with
    codedFrame := true
    picNum := frameNum
    frameNum := frameNum
    nonExisting := true
    isOutput := true
    usedForReference := true
    adaptiveRefPicBufferingFlag := false }

/-- The slice gets the missing frame number, and the POC that goes with it. -/
def numberSlice (s : Dpb) (frameNum : Int) : Dpb :=
  let s := { s with mSlice := { s.mSlice with frameNum := frameNum } }
  if s.mSPS.picOrderCntType ≠ 0 then
    let r := decodePoc s.mSPS s.mVideo s.mSlice
    { s with mVideo := r.1, mSlice := r.2 }
  else s

/-- The picture gets its numbers and the POC of the slice. -/
def numberGapPicture (s : Dpb) (p : Nat) (frameNum : Int) : Dpb :=
  let s := (s.modifyPic (some p) (gapPicture frameNum)).numberSlice frameNum
  s.modifyPic (some p) fun q => { q with
    topPoc := s.mSlice.toppoc
    bottomPoc := s.mSlice.bottompoc
    framePoc := s.mSlice.framepoc
    poc := s.mSlice.framepoc }

/-- `bufmgr_force_recover`. That the buffer manager is to be reset is noted outside the buffer. -/
def bufmgrForceRecover (s : Dpb) : Dpb := s.bufmgrH264RemoveUnusedFrame 2

/-- The picture is numbered and stored; a picture that is not stored is released. -/
def storeGapPicture (s : Dpb) (p : Nat) (frameNum : Int) : GapEnd × Dpb :=
  let r := (s.numberGapPicture p frameNum).storePictureInDpb p 0
  if r.1 = -1 then (.full, (r.2.releasePicture p).bufmgrForceRecover)
  else if r.1 = -2 then (.duplicate, r.2.releasePicture p)
  else (.stored, r.2)

/-- A turn of the loop up to the next frame number. -/
def gapTurn (s : Dpb) (frameNum : Int) : GapEnd × Dpb :=
  let n := s.getNewPic s.mSlice.picStructure
  match n.1 with
  | none => (.noPicture, n.2)
  | some p => n.2.storeGapPicture p frameNum

/-- The frame number after the one just stored. `pre_frame_num` is unsigned, and frame numbers stay
far below its range, so the sum does not wrap. -/
def nextUnused (s : Dpb) (frameNum : Int) : Int := (frameNum + 1) % s.mVideo.maxFrameNum

/-- The end of a turn: the frame number was seen. -/
def noteFrameNum (s : Dpb) (frameNum : Int) : Dpb :=
  { s with mVideo := { s.mVideo with preFrameNum := frameNum } }

/-- The loop, up to the frame number of the slice, and whether it came to its end. -/
def gapLoop (currFrameNum : Int) : Nat → Int → Dpb → Option (Bool × Dpb)
  | 0, _, _ => none
  | fuel + 1, unused, s =>
    if currFrameNum = unused then some (true, s)
    else
      let r := s.gapTurn unused
      if r.1.returns then some (false, r.2)
      else gapLoop currFrameNum fuel (r.2.nextUnused unused) (r.2.noteFrameNum unused)

/-- The state at the head of the loop. -/
def gapStart (s : Dpb) : Dpb :=
  { s with mSlice := { s.mSlice with deltaPicOrderCnt0 := 0, deltaPicOrderCnt1 := 0 } }

/-- The frame number after the last one seen. -/
def firstUnused (s : Dpb) : Int := s.nextUnused s.mVideo.preFrameNum

/-- `fill_frame_num_gap`; `none` stands for a loop without end. -/
def fillFrameNumGap (s : Dpb) : Option Dpb :=
  (gapLoop s.mSlice.frameNum (s.mVideo.maxFrameNum.toNat + 1) s.firstUnused s.gapStart).map fun r =>
    if r.1 then
      { r.2 with mSlice := { r.2.mSlice with
        deltaPicOrderCnt0 := s.mSlice.deltaPicOrderCnt0
        deltaPicOrderCnt1 := s.mSlice.deltaPicOrderCnt1
        frameNum := s.mSlice.frameNum } }
    else r.2

/-! ## What a turn leaves alone -/

/-- The fields of the slice the loop works with. -/
def sliceKey (sl : Slice) : Int × Int × Int × PictureStructure :=
  (sl.frameNum, sl.deltaPicOrderCnt0, sl.deltaPicOrderCnt1, sl.picStructure)

variable {s t : Dpb}

/-- The slice and the range of frame numbers are as before. -/
def SameSlice (s t : Dpb) : Prop :=
  t.mSlice = s.mSlice ∧ t.mVideo.maxFrameNum = s.mVideo.maxFrameNum

theorem SameSlice.trans {u : Dpb} (h : s.SameSlice t) (h' : t.SameSlice u) : s.SameSlice u :=
  ⟨h'.1.trans h.1, h'.2.trans h.2⟩

/-- What leaves a part of the state alone that knows the slice. -/
theorem sameSlice_of {f : Dpb → Dpb} (hf : ∀ u : Dpb, u.SameSlice (f u))
    (h : f t = f s) : s.SameSlice t := by
  have ht := hf t
  rw [h] at ht
  exact ⟨ht.1.symm.trans (hf s).1, ht.2.symm.trans (hf s).2⟩

theorem sameSlice_of_unmarked (h : t.unmarked = s.unmarked) : s.SameSlice t :=
  sameSlice_of (f := unmarked) (fun _ => ⟨rfl, rfl⟩) h

theorem sameSlice_of_undisplayed (h : t.undisplayed = s.undisplayed) : s.SameSlice t :=
  sameSlice_of (f := undisplayed) (fun _ => ⟨rfl, rfl⟩) h

theorem sameSlice_of_beside {i : Nat} (h : t.beside i = s.beside i) : s.SameSlice t :=
  sameSlice_of (f := beside i) (fun _ => ⟨rfl, rfl⟩) h

theorem sameSlice_modifyPic (s : Dpb) (p : Option Nat) (f : StorablePicture → StorablePicture) :
    s.SameSlice (s.modifyPic p f) := by
  cases p <;> exact ⟨rfl, rfl⟩

theorem sameSlice_move {d : Option Nat} (hm : Move d s t) : s.SameSlice t := by
  cases hm with
  | steer ht => exact sameSlice_of (f := unsteered) (fun _ => ⟨rfl, rfl⟩) ht
  | unmark i => exact sameSlice_of_unmarked (unmarked_unmarkForReference s i)
  | unmarkLong i => exact sameSlice_of_unmarked (unmarked_unmarkForLongTermReference s i)
  | command p m hd =>
    have hun : s.SameSlice (s.memoryManagementControl p m).unmarked := by
      rw [unmarked_memoryManagementControl]
      exact ⟨rfl, rfl⟩
    exact ⟨hun.1, hun.2⟩
  | refList => exact ⟨rfl, rfl⟩
  | ltrefList => exact ⟨rfl, rfl⟩
  | current p f hd hf => exact sameSlice_modifyPic s (some p) f
  | forget => exact ⟨rfl, rfl⟩
  | remove pos i hpos =>
    exact sameSlice_of (f := unstored) (fun _ => ⟨rfl, rfl⟩) (unstored_removeFrameFromDpb s pos)
  | output flushFlag => exact sameSlice_of_undisplayed (undisplayed_outputFrames s flushFlag)
  | flag index => exact sameSlice_of_undisplayed (undisplayed_setFrameOutputFlag s index)
  | lone p => exact sameSlice_of_undisplayed (undisplayed_showLoneField s p)

theorem sameSlice_moves {d : Option Nat} (h : Moves d s t) : s.SameSlice t :=
  h.keep (P := s.SameSlice) (fun _ _ hm hs => hs.trans (sameSlice_move hm)) ⟨rfl, rfl⟩

theorem sameSlice_getNewPic (s : Dpb) (parity : PictureStructure) :
    s.SameSlice (s.getNewPic parity).2 :=
  sameSlice_of_beside (beside_getNewPic s 0 parity)

theorem sameSlice_storePicture (s : Dpb) (p : Nat) (dataFlag : UInt8) :
    s.SameSlice (s.storePictureInDpb p dataFlag).2 := by
  have hinsert (u : Dpb) (i : Nat) : u.SameSlice (u.insertPictureInDpb i p dataFlag) :=
    sameSlice_of_beside (beside_insertPicture u i p dataFlag)
  have hpair (u : Dpb) (i : Nat) : u.SameSlice (u.storeSecondField i p dataFlag) := by
    have hout (v : Dpb) : v.SameSlice v.outputAfterPair :=
      sameSlice_of_undisplayed (undisplayed_outputAfterPair v)
    exact ⟨(hout _).1.trans (hinsert u i).1, (hout _).2.trans (hinsert u i).2⟩
  have happend (u : Dpb) (i : Nat) : u.SameSlice (u.appendStore i p dataFlag) := by
    have hout (v : Dpb) : v.SameSlice v.outputAfterStore :=
      sameSlice_of_undisplayed (undisplayed_outputAfterStore v)
    exact ⟨(hout _).1.trans (hinsert u i).1, (hout _).2.trans (hinsert u i).2⟩
  have hmark := sameSlice_moves (moves_storeMarking s (p := p) rfl)
  have hroom := hmark.trans (sameSlice_moves ((moves_makeRoom (s.storeMarking p) rfl).trans
    (moves_dropDuplicates (some p) ((s.storeMarking p).makeRoom p) p)))
  unfold storePictureInDpb storeFirstField
  dsimp only
  split
  · exact hmark.trans (hpair _ _)
  · split
    · exact hroom
    · split
      · exact hroom
      · exact hroom.trans (happend _ _)

/-- The picture order count changes neither the number nor the offsets of the slice. -/
theorem decodePoc_sliceKey (sps : SPSParameters) (v : VideoParameters) (sl : Slice) :
    sliceKey (decodePoc sps v sl).2 = sliceKey sl := by
  have hplace (msb : Int) : sliceKey (placePoc msb sl) = sliceKey sl := by
    unfold placePoc
    dsimp only
    split
    · rfl
    · split <;> rfl
  have hexpected (x abs : Int) :
      sliceKey (placeExpected sps x { sl with absFrameNum := abs }) = sliceKey sl := by
    unfold placeExpected
    dsimp only
    split
    · rfl
    · split <;> rfl
  have hnum (x : Int) : sliceKey (placeFrameNum x sl) = sliceKey sl := by
    unfold placeFrameNum
    dsimp only
    split
    · rfl
    · split <;> rfl
  unfold decodePoc
  split
  · exact hplace _
  · exact hexpected _ _
  · show sliceKey (if sl.idrFlag then _ else _) = _
    split
    · rfl
    · exact hnum _
  · rfl

theorem numberGapPicture_slice (s : Dpb) (p : Nat) (n : Int) :
    (s.numberGapPicture p n).mVideo.maxFrameNum = s.mVideo.maxFrameNum ∧
      sliceKey (s.numberGapPicture p n).mSlice = sliceKey { s.mSlice with frameNum := n } := by
  show ((s.modifyPic (some p) (gapPicture n)).numberSlice n).mVideo.maxFrameNum = _ ∧
    sliceKey ((s.modifyPic (some p) (gapPicture n)).numberSlice n).mSlice = _
  unfold numberSlice
  dsimp only
  split
  · exact ⟨congrArg Prod.fst (decodePoc_videoKey _ _ _), decodePoc_sliceKey _ _ _⟩
  · exact ⟨rfl, rfl⟩

theorem storeGapPicture_slice (s : Dpb) (p : Nat) (n : Int) :
    (s.numberGapPicture p n).SameSlice (s.storeGapPicture p n).2 ∧
      (s.storeGapPicture p n).1 ≠ .noPicture := by
  have hstore := sameSlice_storePicture (s.numberGapPicture p n) p 0
  have hrelease (u : Dpb) : u.SameSlice (u.releasePicture p) := sameSlice_modifyPic u (some p) _
  have hrecover (u : Dpb) : u.SameSlice u.bufmgrForceRecover :=
    sameSlice_moves (moves_bufmgrRemoveUnused none u 2)
  unfold storeGapPicture
  dsimp only
  split
  · exact ⟨(hstore.trans (hrelease _)).trans (hrecover _), nofun⟩
  · split
    · exact ⟨hstore.trans (hrelease _), nofun⟩
    · exact ⟨hstore, nofun⟩

theorem gapTurn_none (n : Int) (h : (s.getNewPic s.mSlice.picStructure).1 = none) :
    s.gapTurn n = (.noPicture, (s.getNewPic s.mSlice.picStructure).2) := by
  unfold gapTurn
  dsimp only
  rw [h]

theorem gapTurn_some (n : Int) {p : Nat} (h : (s.getNewPic s.mSlice.picStructure).1 = some p) :
    s.gapTurn n = (s.getNewPic s.mSlice.picStructure).2.storeGapPicture p n := by
  unfold gapTurn
  dsimp only
  rw [h]

/-- What a turn leaves of the slice: the frame number of the gap, unless there was no picture. -/
theorem gapTurn_slice (s : Dpb) (n : Int) :
    (s.gapTurn n).2.mVideo.maxFrameNum = s.mVideo.maxFrameNum ∧
      sliceKey (s.gapTurn n).2.mSlice = sliceKey { s.mSlice with
        frameNum := if (s.gapTurn n).1 = .noPicture then s.mSlice.frameNum else n } := by
  have hnew := sameSlice_getNewPic s s.mSlice.picStructure
  cases hp : (s.getNewPic s.mSlice.picStructure).1 with
  | none =>
    rw [gapTurn_none n hp, if_pos rfl]
    exact ⟨hnew.2, congrArg sliceKey hnew.1⟩
  | some p =>
    obtain ⟨hstore, hne⟩ := storeGapPicture_slice (s.getNewPic s.mSlice.picStructure).2 p n
    obtain ⟨hmax, hkey⟩ := numberGapPicture_slice (s.getNewPic s.mSlice.picStructure).2 p n
    rw [gapTurn_some n hp, if_neg hne, hstore.1, hkey, hnew.1]
    exact ⟨(hstore.2.trans hmax).trans hnew.2, rfl⟩

/-! ## The loop comes to an end -/

/-- How many frame numbers are still missing. -/
def missing (maxFrameNum currFrameNum unused : Int) : Nat :=
  ((currFrameNum - unused) % maxFrameNum).toNat

/-- Each turn leaves one less. -/
theorem missing_next {max curr unused : Int} (hcurr : 0 ≤ curr ∧ curr < max)
    (hunused : 0 ≤ unused ∧ unused < max) (hne : curr ≠ unused) :
    missing max curr ((unused + 1) % max) + 1 = missing max curr unused := by
  have hnext : (curr - (unused + 1) % max) % max = (curr - unused - 1) % max := by
    rw [Int.sub_emod, Int.emod_emod_of_dvd _ (Int.dvd_refl max), ← Int.sub_emod]
    congr 1
    omega
  unfold missing
  rw [hnext]
  by_cases hlt : unused < curr
  · rw [Int.emod_eq_of_lt (by omega) (by omega), Int.emod_eq_of_lt (by omega) (by omega)]
    omega
  · have hwrap (x : Int) (hx : -max ≤ x) (hneg : x < 0) : x % max = x + max := by
      rw [← Int.add_emod_right, Int.emod_eq_of_lt (by omega) (by omega)]
    rw [hwrap _ (by omega) (by omega), hwrap _ (by omega) (by omega)]
    omega

theorem missing_lt {max curr unused : Int} (hmax : 0 < max) :
    missing max curr unused < max.toNat := by
  have hlt := Int.emod_lt_of_pos (curr - unused) hmax
  have hpos := Int.emod_nonneg (curr - unused) (by omega : max ≠ 0)
  unfold missing
  omega

/-- The frame numbers of the loop are in range, and it does not run out of turns. -/
structure GapRange (fuel : Nat) (curr unused : Int) (s : Dpb) : Prop where
  curr_lt : 0 ≤ curr ∧ curr < s.mVideo.maxFrameNum
  unused_lt : 0 ≤ unused ∧ unused < s.mVideo.maxFrameNum
  enough : missing s.mVideo.maxFrameNum curr unused < fuel

theorem gapRange_next {fuel : Nat} {curr n : Int} (h : GapRange (fuel + 1) curr n s)
    (hne : curr ≠ n) :
    GapRange fuel curr ((s.gapTurn n).2.nextUnused n) ((s.gapTurn n).2.noteFrameNum n) := by
  have hmax := (gapTurn_slice s n).1
  have hpos : 0 < s.mVideo.maxFrameNum := by
    have := h.curr_lt
    omega
  have hleft := missing_next h.curr_lt h.unused_lt hne
  have henough := h.enough
  constructor
  · show 0 ≤ curr ∧ curr < (s.gapTurn n).2.mVideo.maxFrameNum
    rw [hmax]
    exact h.curr_lt
  · show 0 ≤ (n + 1) % (s.gapTurn n).2.mVideo.maxFrameNum ∧
      (n + 1) % (s.gapTurn n).2.mVideo.maxFrameNum < (s.gapTurn n).2.mVideo.maxFrameNum
    rw [hmax]
    exact ⟨Int.emod_nonneg _ (by omega), Int.emod_lt_of_pos _ hpos⟩
  · show missing (s.gapTurn n).2.mVideo.maxFrameNum curr
      ((n + 1) % (s.gapTurn n).2.mVideo.maxFrameNum) < fuel
    rw [hmax]
    omega

/-- The loop comes to an end. -/
theorem gapLoop_isSome {fuel : Nat} {curr n : Int} (h : GapRange fuel curr n s) :
    (gapLoop curr fuel n s).isSome = true := by
  induction fuel generalizing n s with
  | zero => exact absurd h.enough (Nat.not_lt_zero _)
  | succ fuel ih =>
    unfold gapLoop
    split
    · rfl
    · next hne =>
      dsimp only
      split
      · rfl
      · exact ih (gapRange_next h hne)

theorem gapRange_start (h : 0 ≤ s.mSlice.frameNum ∧ s.mSlice.frameNum < s.mVideo.maxFrameNum) :
    GapRange (s.mVideo.maxFrameNum.toNat + 1) s.mSlice.frameNum s.firstUnused s.gapStart := by
  have hpos : 0 < s.mVideo.maxFrameNum := by omega
  refine ⟨h, ⟨Int.emod_nonneg _ (by omega), Int.emod_lt_of_pos _ hpos⟩, ?_⟩
  exact Nat.lt_succ_of_lt (missing_lt hpos)

/-- `fill_frame_num_gap` terminates. -/
theorem fillFrameNumGap_isSome
    (h : 0 ≤ s.mSlice.frameNum ∧ s.mSlice.frameNum < s.mVideo.maxFrameNum) :
    s.fillFrameNumGap.isSome = true := by
  unfold fillFrameNumGap
  rw [Option.isSome_map]
  exact gapLoop_isSome (gapRange_start h)

/-! ## The turns -/

/-- A turn of the loop: the frame number, the state before, how it ended and what it left. -/
structure Turn where
  frameNum : Int
  before : Dpb
  result : GapEnd
  after : Dpb

/-- The turns of the loop, one after the other. -/
def turnsFrom (currFrameNum : Int) : Nat → Int → Dpb → List Turn
  | 0, _, _ => []
  | fuel + 1, unused, s =>
    if currFrameNum = unused then []
    else
      let r := s.gapTurn unused
      ⟨unused, s, r.1, r.2⟩ :: if r.1.returns then []
        else turnsFrom currFrameNum fuel (r.2.nextUnused unused) (r.2.noteFrameNum unused)

/-- The turns of `fill_frame_num_gap`. -/
def gapTurns (s : Dpb) : List Turn :=
  turnsFrom s.mSlice.frameNum (s.mVideo.maxFrameNum.toNat + 1) s.firstUnused s.gapStart

/-- The frame numbers after the last one seen and before that of the slice, modulo their range. -/
def gapNumbers (s : Dpb) : List Int :=
  (List.range (missing s.mVideo.maxFrameNum s.mSlice.frameNum (s.mVideo.preFrameNum + 1))).map
    fun j : Nat => (s.mVideo.preFrameNum + 1 + j) % s.mVideo.maxFrameNum

variable {fuel : Nat} {curr n : Int}

/-- Behind the last missing number there is no turn. -/
theorem turnsFrom_nil (h : curr = n) (s : Dpb) : turnsFrom curr (fuel + 1) n s = [] := if_pos h

theorem turnsFrom_cons (hne : curr ≠ n) (s : Dpb) : turnsFrom curr (fuel + 1) n s =
    ⟨n, s, (s.gapTurn n).1, (s.gapTurn n).2⟩ :: if (s.gapTurn n).1.returns then []
      else turnsFrom curr fuel ((s.gapTurn n).2.nextUnused n) ((s.gapTurn n).2.noteFrameNum n) :=
  if_neg hne

/-- How the loop goes on: it is at its end, the turn returns, or the next one follows. -/
theorem gapLoop_cases {t : Dpb} {done : Bool} (h : gapLoop curr (fuel + 1) n s = some (done, t)) :
    (curr = n ∧ done = true ∧ t = s) ∨
      curr ≠ n ∧ ((s.gapTurn n).1.returns = true ∧ done = false ∧ t = (s.gapTurn n).2 ∨
        (s.gapTurn n).1.returns = false ∧ gapLoop curr fuel ((s.gapTurn n).2.nextUnused n)
          ((s.gapTurn n).2.noteFrameNum n) = some (done, t)) := by
  unfold gapLoop at h
  split at h
  · next heq =>
    obtain ⟨hdone, ht⟩ := Prod.mk.inj (Option.some.inj h)
    exact .inl ⟨heq, hdone.symm, ht.symm⟩
  · next hne =>
    refine .inr ⟨hne, ?_⟩
    dsimp only at h
    split at h
    · next hret =>
      obtain ⟨hdone, ht⟩ := Prod.mk.inj (Option.some.inj h)
      exact .inl ⟨hret, hdone.symm, ht.symm⟩
    · next hret => exact .inr ⟨Bool.not_eq_true _ ▸ hret, h⟩

/-- The loop comes to its end when no turn returns. -/
theorem gapLoop_done {t : Dpb} {done : Bool} (h : gapLoop curr fuel n s = some (done, t)) :
    done = true ↔ ∀ r ∈ turnsFrom curr fuel n s, r.result.returns = false := by
  induction fuel generalizing n s with
  | zero => exact absurd h nofun
  | succ fuel ih =>
    obtain ⟨heq, hdone, -⟩ | ⟨hne, ⟨hret, hdone, -⟩ | ⟨hret, h⟩⟩ := gapLoop_cases h
    · rw [turnsFrom_nil heq]
      exact iff_of_true hdone (List.forall_mem_nil _)
    · rw [turnsFrom_cons hne, List.forall_mem_cons, hdone]
      exact iff_of_false Bool.false_ne_true fun hall => Bool.false_ne_true (hall.1.symm.trans hret)
    · rw [turnsFrom_cons hne, List.forall_mem_cons]
      dsimp only
      rw [hret, if_neg Bool.false_ne_true, ih h, and_iff_right rfl]

/-- What a turn leaves. -/
def Turn.leaves (r : Turn) : Dpb :=
  if r.result.returns then r.after else r.after.noteFrameNum r.frameNum

/-- What the last of the turns leaves. -/
def lastState (s : Dpb) (turns : List Turn) : Dpb := (turns.getLast?.map Turn.leaves).getD s

theorem gapLoop_last {t : Dpb} {done : Bool} (h : gapLoop curr fuel n s = some (done, t)) :
    t = lastState s (turnsFrom curr fuel n s) := by
  induction fuel generalizing n s with
  | zero => exact absurd h nofun
  | succ fuel ih =>
    obtain ⟨heq, -, ht⟩ | ⟨hne, ⟨hret, -, ht⟩ | ⟨hret, h⟩⟩ := gapLoop_cases h
    · rw [turnsFrom_nil heq]
      exact ht
    · rw [turnsFrom_cons hne, hret, if_pos rfl, ht]
      exact (if_pos hret).symm
    · have hleaves : Turn.leaves ⟨n, s, (s.gapTurn n).1, (s.gapTurn n).2⟩ =
          (s.gapTurn n).2.noteFrameNum n := if_neg (by rw [hret]; exact Bool.false_ne_true)
      rw [turnsFrom_cons hne, hret, if_neg Bool.false_ne_true, ih h]
      unfold lastState
      rw [List.getLast?_cons]
      cases (turnsFrom curr fuel ((s.gapTurn n).2.nextUnused n)
        ((s.gapTurn n).2.noteFrameNum n)).getLast? with
      | none => exact hleaves.symm
      | some r => rfl

/-- A loop left early leaves the slice with another frame number. -/
theorem gapLoop_unrestored {t : Dpb} (h : gapLoop curr fuel n s = some (false, t))
    (hs : s.mSlice.frameNum ≠ curr ∨ s.freePic.isSome = true) : t.mSlice.frameNum ≠ curr := by
  induction fuel generalizing n s with
  | zero => exact absurd h nofun
  | succ fuel ih =>
    obtain ⟨-, hdone, -⟩ | ⟨hne, hrest⟩ := gapLoop_cases h
    · exact absurd hdone Bool.false_ne_true
    · have hnum : (s.gapTurn n).2.mSlice.frameNum =
          if (s.gapTurn n).1 = .noPicture then s.mSlice.frameNum else n :=
        congrArg Prod.fst (gapTurn_slice s n).2
      have hother : (s.gapTurn n).2.mSlice.frameNum ≠ curr := by
        rw [hnum]
        split
        · next hnone =>
          apply hs.resolve_right
          intro hsome
          obtain ⟨p, hp⟩ := Option.isSome_iff_exists.mp hsome
          have hnew : (s.getNewPic s.mSlice.picStructure).1 = some p := by
            unfold getNewPic
            rw [hp]
          rw [gapTurn_some n hnew] at hnone
          exact (storeGapPicture_slice _ p n).2 hnone
        · exact fun heq => hne heq.symm
      rcases hrest with ⟨-, -, ht⟩ | ⟨-, h⟩
      · exact ht ▸ hother
      · exact ih h (Or.inl hother)

theorem turnsFrom_numbers (h : GapRange fuel curr n s)
    (hall : ∀ r ∈ turnsFrom curr fuel n s, r.result.returns = false) :
    (turnsFrom curr fuel n s).map Turn.frameNum =
      (List.range (missing s.mVideo.maxFrameNum curr n)).map
        fun j : Nat => (n + j) % s.mVideo.maxFrameNum := by
  induction fuel generalizing n s with
  | zero => exact absurd h.enough (Nat.not_lt_zero _)
  | succ fuel ih =>
    by_cases hne : curr = n
    · have hzero : missing s.mVideo.maxFrameNum curr n = 0 := by
        unfold missing
        rw [hne, Int.sub_self, Int.zero_emod]
        rfl
      rw [turnsFrom_nil hne, hzero]
      rfl
    · rw [turnsFrom_cons hne] at hall ⊢
      obtain ⟨hret, hrest⟩ := List.forall_mem_cons.mp hall
      have hmax : ((s.gapTurn n).2.noteFrameNum n).mVideo.maxFrameNum = s.mVideo.maxFrameNum :=
        (gapTurn_slice s n).1
      have hret : (s.gapTurn n).1.returns = false := hret
      rw [hret] at hrest
      have hnext := ih (gapRange_next h hne) hrest
      have hmissing := missing_next h.curr_lt h.unused_lt hne
      have hunused : (s.gapTurn n).2.nextUnused n = (n + 1) % s.mVideo.maxFrameNum :=
        congrArg (fun m => (n + 1) % m) hmax
      rw [hret, if_neg Bool.false_ne_true, List.map_cons, hnext, hmax, hunused, ← hmissing,
        List.range_succ_eq_map, List.map_cons, List.map_map]
      congr 1
      · show n = (n + 0) % s.mVideo.maxFrameNum
        rw [Int.add_zero, Int.emod_eq_of_lt h.unused_lt.1 h.unused_lt.2]
      · apply List.map_congr_left
        intro j _
        show ((n + 1) % s.mVideo.maxFrameNum + (j : Int)) % s.mVideo.maxFrameNum =
          (n + ((j + 1 : Nat) : Int)) % s.mVideo.maxFrameNum
        rw [Int.emod_add_emod]
        congr 1
        omega

theorem gapTurns_numbers
    (h : 0 ≤ s.mSlice.frameNum ∧ s.mSlice.frameNum < s.mVideo.maxFrameNum)
    (hall : ∀ r ∈ s.gapTurns, r.result.returns = false) :
    s.gapTurns.map Turn.frameNum = s.gapNumbers := by
  have hmissing : missing s.mVideo.maxFrameNum s.mSlice.frameNum s.firstUnused =
      missing s.mVideo.maxFrameNum s.mSlice.frameNum (s.mVideo.preFrameNum + 1) := by
    unfold missing firstUnused nextUnused
    rw [Int.sub_emod, Int.emod_emod_of_dvd _ (Int.dvd_refl _), ← Int.sub_emod]
  have hturns := turnsFrom_numbers (gapRange_start h) hall
  unfold gapTurns gapNumbers
  rw [hturns, ← hmissing]
  apply List.map_congr_left
  intro j _
  exact Int.emod_add_emod _ _ _

/-! ## The slice at the end -/

/-- Up to the slice, `fill_frame_num_gap` leaves what the last turn leaves. -/
theorem fillFrameNumGap_last (h : s.fillFrameNumGap = some t) :
    ∃ sl, t = { lastState s.gapStart s.gapTurns with mSlice := sl } := by
  unfold fillFrameNumGap at h
  obtain ⟨⟨done, u⟩, hloop, ht⟩ := Option.map_eq_some_iff.mp h
  have hlast : u = lastState s.gapStart s.gapTurns := gapLoop_last hloop
  rw [← ht, ← hlast]
  cases done with
  | true => exact ⟨_, rfl⟩
  | false => exact ⟨u.mSlice, rfl⟩

/-- The slice has its frame number and its offsets again. -/
structure Restored (s t : Dpb) : Prop where
  frameNum : t.mSlice.frameNum = s.mSlice.frameNum
  deltaPicOrderCnt0 : t.mSlice.deltaPicOrderCnt0 = s.mSlice.deltaPicOrderCnt0
  deltaPicOrderCnt1 : t.mSlice.deltaPicOrderCnt1 = s.mSlice.deltaPicOrderCnt1

/-- With a picture to begin with, the slice is restored exactly when no turn returns. -/
theorem fillFrameNumGap_restored
    (h : 0 ≤ s.mSlice.frameNum ∧ s.mSlice.frameNum < s.mVideo.maxFrameNum)
    (hfree : s.freePic.isSome = true) :
    (∃ t, s.fillFrameNumGap = some t ∧ s.Restored t) ↔
      ∀ r ∈ s.gapTurns, r.result.returns = false := by
  obtain ⟨⟨done, t⟩, hloop⟩ := Option.isSome_iff_exists.mp (gapLoop_isSome (gapRange_start h))
  have hfill : s.fillFrameNumGap = some (if done then
      { t with mSlice := { t.mSlice with
        deltaPicOrderCnt0 := s.mSlice.deltaPicOrderCnt0
        deltaPicOrderCnt1 := s.mSlice.deltaPicOrderCnt1
        frameNum := s.mSlice.frameNum } }
      else t) := by
    unfold fillFrameNumGap
    rw [hloop]
    rfl
  have hdone := gapLoop_done hloop
  rw [hfill]
  cases done with
  | true => exact iff_of_true ⟨_, rfl, rfl, rfl, rfl⟩ (hdone.mp rfl)
  | false =>
    refine iff_of_false ?_ (mt hdone.mpr Bool.false_ne_true)
    rintro ⟨u, hu, hrestored⟩
    have hut : t = u := Option.some.inj hu
    exact gapLoop_unrestored hloop (Or.inr hfree) (hut ▸ hrestored.frameNum)

end Dpb

end MediaModules.H264Dpb
