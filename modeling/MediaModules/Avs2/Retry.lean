import MediaModules.Avs2.RefInfo

/-!
# A second call for a picture

When no frame is free `prepare_RefInfo` fails, after the frames have been moved. A second call, with a
frame released, looks for the references in the array as the first one has left it. What it finds is
the same unless a reference was missing or wanted repeatedly and the first call's moves decide.
-/
namespace MediaModules.Avs2

open Lib.Rearrange Lib.Seats

/-- What is shown of a frame. -/
structure Display where
  isOutput : Int := -1
  toPrepareDisp : Int := 0
  bgFlag : Nat := 0
  vfRef : Int := 0

namespace Decoder

/-- A frame is released, or shown otherwise than before. -/
def release (d : Decoder) (f : Nat) (display : Display) : Decoder :=
  d.setFrame f fun frame => { frame with
    isOutput := display.isOutput
    toPrepareDisp := display.toPrepareDisp
    bgFlag := display.bgFlag
    vfRef := display.vfRef }

/-- A frame of the pool is nearest to reference `i`. -/
def IsNearest (d : Decoder) (f i : Nat) : Prop :=
  ∀ m < d.refMaxbuffer, (d.coi f - d.target i).natAbs ≤ (d.coi (item d.fref m) - d.target i).natAbs

instance (d : Decoder) (f i : Nat) : Decidable (d.IsNearest f i) :=
  inferInstanceAs (Decidable (∀ m < _, _))

/-- One frame is nearest to reference `i`. -/
def NearestAlone (d : Decoder) (i : Nat) : Prop := ∀ j < d.refMaxbuffer, ∀ k < d.refMaxbuffer,
  d.IsNearest (item d.fref j) i ∧ d.IsNearest (item d.fref k) i → item d.fref j = item d.fref k

instance (d : Decoder) (i : Nat) : Decidable (d.NearestAlone i) :=
  inferInstanceAs (Decidable (∀ j < _, ∀ k < _, _ ∧ _ → _))

/-- A missing reference that gets a substitute has one nearest frame. -/
def OneNearest (d : Decoder) : Prop := d.Substitutes → ∀ i < d.count,
  ¬ Present d.coi d.refMaxbuffer d.fref (d.target i) → d.NearestAlone i

instance (d : Decoder) : Decidable d.OneNearest := inferInstanceAs (Decidable (_ → ∀ i < _, _ → _))

/-- All references are there, and distinct; or their coding orders are theirs alone, and none is wanted
more than twice. -/
def OneSeat (d : Decoder) : Prop :=
  ((∀ i < d.count, Present d.coi d.refMaxbuffer d.fref (d.target i)) ∧
    Distinct d.coi d.refMaxbuffer d.target d.count d.fref) ∨
  Alone d.coi d.refMaxbuffer d.target d.count d.fref ∧
    AtMostTwice d.coi d.refMaxbuffer d.target d.count d.fref

instance (d : Decoder) : Decidable d.OneSeat := inferInstanceAs (Decidable (_ ∧ _ ∨ _ ∧ _))

variable {d d' : Decoder} {fref fref' : List Nat} {f i n : Nat} {display : Display} {ret : Int}

/-! ## What the loop depends on -/

/-- The loop depends on the coding orders, the references and the policies. -/
theorem placeRef_congr (hcoi : d'.coi = d.coi) (hmax : d'.refMaxbuffer = d.refMaxbuffer)
    (htarget : d'.target = d.target) (hpolicy : d'.errorProcPolicy = d.errorProcPolicy)
    (hmode : d'.errorHandleMode = d.errorHandleMode) : d'.placeRef = d.placeRef := by
  have hdist : d'.slotDist = d.slotDist := by
    funext fref t slot
    rw [slotDist, slotDist, hcoi]
  have hrecent : d'.recentIndex = d.recentIndex := by
    funext fref t
    rw [recentIndex, recentIndex, hdist, hmax]
  have herrors : d'.ShowsErrors ↔ d.ShowsErrors := by rw [ShowsErrors, ShowsErrors, hpolicy]
  funext l i
  rw [placeRef, placeRef, hcoi, hmax, htarget, hrecent, hmode]
  cases lookFor d.coi d.refMaxbuffer l.fref (d.target i) with
  | some j => rfl
  | none => exact if_congr herrors rfl rfl

theorem release_coi (d : Decoder) (f : Nat) (display : Display) : (d.release f display).coi = d.coi :=
  setFrame_coi d f _ fun _ => rfl

theorem release_setUp (d : Decoder) (f : Nat) (display : Display) :
    (d.release f display).setUp = d.setUp.release f display := by
  by_cases h : d.tr > d.nextIDRtr ∧ d.currIDRtr ≠ d.nextIDRtr
  · rw [setUp_next h]
    exact setUp_next h
  · rw [setUp_current h]
    exact setUp_current h

theorem release_placed (d : Decoder) (f : Nat) (display : Display) (n : Nat) :
    (d.release f display).placed n = d.placed n := by
  have hplace : (d.release f display).placeRef = d.placeRef :=
    placeRef_congr (release_coi d f display) rfl rfl rfl rfl
  rw [placed, hplace]
  rfl

/-- The frames are moved alike when one of them is released before. -/
theorem release_reordered (d : Decoder) (f : Nat) (display : Display) :
    (d.release f display).reordered = d.reordered.release f display := by
  have hcount : (d.release f display).count = d.count := rfl
  rw [reordered, release_setUp, hcount, release_placed]
  rfl

/-! ## Moving the frames again -/

theorem setUp_setUp (d : Decoder) : d.setUp.setUp = d.setUp := by
  by_cases h : d.tr > d.nextIDRtr ∧ d.currIDRtr ≠ d.nextIDRtr
  · rw [setUp_next h]
    exact setUp_current fun h' => h'.2 rfl
  · rw [setUp_current h]
    exact setUp_current h

theorem reordered_placeRef (d : Decoder) : d.reordered.placeRef = d.placeRef := by
  refine placeRef_congr ?_ ?_ ?_ ?_ ?_
  all_goals
    rw [reordered, setUp]
    split <;> rfl

/-- Only the array of frames differs for a second call. -/
theorem reordered_placed (d : Decoder) (n : Nat) :
    d.reordered.placed n = ({ d with fref := d.reordered.fref } : Decoder).placed n := by
  rw [placed, reordered_placeRef]
  rfl

section Nearest

variable (hfirst : Within 0 (d.refMaxbuffer - 1) d.fref fref)
  (hsecond : Within 0 (d.refMaxbuffer - 1) d.fref fref')
include hfirst

theorem recentIndex_isNearest (hmissing : ¬ Present d.coi d.refMaxbuffer d.fref (d.target i)) {j : Nat}
    (h : d.recentIndex fref (d.target i) = some j) :
    ∃ k < d.refMaxbuffer, item fref j = item d.fref k ∧ d.IsNearest (item d.fref k) i := by
  obtain ⟨hj, hle⟩ := recentIndex_nearest h
  obtain ⟨k, hk, heq⟩ := Within.from hfirst hj
  refine ⟨k, hk, heq, fun m hm => ?_⟩
  obtain ⟨m', hm', heq'⟩ := Within.from (within_symm hfirst) hm
  rw [← heq, heq']
  exact hle m' hm' fun hkey => hmissing ⟨m, hm, heq' ▸ hkey⟩

include hsecond in
theorem recentIndex_isSome_of (h : (d.recentIndex fref (d.target i)).isSome = true) :
    (d.recentIndex fref' (d.target i)).isSome = true := by
  obtain ⟨j, hj⟩ := Option.isSome_iff_exists.mp h
  obtain ⟨hne, hlt⟩ := recentIndex_lt hj
  obtain ⟨k, hk, heq⟩ := Within.from hfirst (recentIndex_nearest hj).1
  obtain ⟨m, hm, heq'⟩ := Within.from (within_symm hsecond) hk
  rw [heq, heq'] at hne hlt
  exact recentIndex_isSome hm hne hlt

theorem substitute_same (hsecond : Within 0 (d.refMaxbuffer - 1) d.fref fref') (hnearest : d.OneNearest)
    (hi : i < d.count) : d.substitute fref i = d.substitute fref' i := by
  by_cases hpresent : Present d.coi d.refMaxbuffer d.fref (d.target i)
  · rw [substitute_present ((present_of_within hfirst).mpr hpresent),
      substitute_present ((present_of_within hsecond).mpr hpresent)]
  · rw [substitute_missing fun h => hpresent ((present_of_within hfirst).mp h),
      substitute_missing fun h => hpresent ((present_of_within hsecond).mp h)]
    by_cases hsub : d.Substitutes
    · rw [if_pos hsub, if_pos hsub]
      cases hone : d.recentIndex fref (d.target i) with
      | none =>
        cases htwo : d.recentIndex fref' (d.target i) with
        | none => rfl
        | some k =>
          have hsome := recentIndex_isSome_of hsecond hfirst (Option.isSome_iff_exists.mpr ⟨k, htwo⟩)
          rw [hone] at hsome
          exact nomatch hsome
      | some j =>
        have hsome := recentIndex_isSome_of hfirst hsecond (Option.isSome_iff_exists.mpr ⟨j, hone⟩)
        obtain ⟨k, htwo⟩ := Option.isSome_iff_exists.mp hsome
        obtain ⟨j', hj', hjeq, hjnear⟩ := recentIndex_isNearest hfirst hpresent hone
        obtain ⟨k', hk', hkeq, hknear⟩ := recentIndex_isNearest hsecond hpresent htwo
        rw [htwo, Option.map_some, Option.map_some, hjeq, hkeq,
          hnearest hsub i hi hpresent j' hj' k' hk' ⟨hjnear, hknear⟩]
    · rw [if_neg hsub, if_neg hsub]

end Nearest

/-- A second loop finds and leaves what the first one does. -/
theorem placed_again (hlength : d.refMaxbuffer ≤ d.fref.length) (hbuffers : d.count ≤ d.refMaxbuffer)
    (hseat : d.OneSeat) (hnearest : d.OneNearest) :
    d.reordered.placed d.count = d.placed d.count := by
  have hmoved : d.reordered.fref = seatAll d.coi d.refMaxbuffer d.target d.fref d.count :=
    d.placed_fref d.count
  have hfirst {m : Nat} (hm : m ≤ d.count) :
      Within 0 (d.refMaxbuffer - 1) d.fref (seatAll d.coi d.refMaxbuffer d.target d.fref m) :=
    seatAll_below d.coi hlength (Nat.le_trans hm hbuffers) d.target
  have hsecond {m : Nat} (hm : m ≤ d.count) : Within 0 (d.refMaxbuffer - 1) d.fref
      (seatAll d.coi d.refMaxbuffer d.target d.reordered.fref m) := by
    have hall := hfirst (Nat.le_refl d.count)
    rw [hmoved]
    have hlength' := hall.length_eq.symm ▸ hlength
    exact hall.trans (seatAll_below d.coi hlength' (Nat.le_trans hm hbuffers) d.target)
  rw [reordered_placed]
  apply RefLoop.ext
  · rw [placed_fref, placed_fref]
    show seatAll d.coi d.refMaxbuffer d.target d.reordered.fref d.count = _
    rw [hmoved]
    rcases hseat with ⟨hall, hdistinct⟩ | ⟨halone, htwice⟩
    · exact seatAll_twice_of_present hlength hbuffers hdistinct hall
    · exact seatAll_twice hlength hbuffers halone htwice
  · funext i
    rw [placed_errorFref, placed_errorFref]
    by_cases hi : i < d.count
    · rw [if_pos hi, if_pos hi]
      show d.substitute (seatAll d.coi d.refMaxbuffer d.target d.reordered.fref i) i = d.substitute _ i
      exact substitute_same (hsecond (Nat.le_of_lt hi)) (hfirst (Nat.le_of_lt hi)) hnearest hi
    · rw [if_neg hi, if_neg hi]
  · rw [Bool.eq_iff_iff, placed_errorMark, placed_errorMark]
    refine exists_congr fun i => and_congr_right fun hi => and_congr_left fun _ => not_congr ?_
    exact (present_of_within (hsecond (Nat.le_of_lt hi))).trans
      (present_of_within (hfirst (Nat.le_of_lt hi))).symm

theorem setUp_with (d : Decoder) (fref : List Nat) (errorFref : Nat → Option Nat) :
    ({ d with fref := fref, errorFref := errorFref } : Decoder).setUp =
      { d.setUp with fref := fref } := by
  by_cases h : d.tr > d.nextIDRtr ∧ d.currIDRtr ≠ d.nextIDRtr
  · rw [setUp_next h]
    exact setUp_next h
  · rw [setUp_current h]
    exact setUp_current h

theorem reordered_count (d : Decoder) : d.reordered.count = d.count := by
  rw [count, reordered, setUp_currRPS]
  rfl

theorem reordered_reordered (hagain : d.reordered.placed d.count = d.placed d.count) :
    d.reordered.reordered = d.reordered := by
  have hsetUp : d.reordered.setUp = { d.setUp with fref := (d.placed d.count).fref } := by
    rw [reordered, setUp_with, setUp_setUp]
  rw [reordered, reordered_count, hagain, hsetUp]
  rfl

/-- A call that finds no frame leaves the frames as it has moved them. -/
theorem prepareRefInfo_none (h : d.prepareRefInfo = .ok (d', -2)) : d' = d.reordered := by
  rw [prepareRefInfo_eq (count_le_of_ok h)] at h
  rcases finish_cases h with ⟨hret, -⟩ | ⟨-, hsame⟩ | ⟨hret, -⟩
  · rcases hret with hret | hret
    · exact absurd hret (by decide)
    · exact absurd hret (by decide)
  · exact hsame
  · exact absurd hret (by decide)

/-- After a call that found no frame, and a frame released, a second call does what one call would have
done with the frame released before. -/
theorem retry_same (hlength : d.fref.length = REF_MAXBUFFER) (hbuffers : d.count ≤ d.refMaxbuffer)
    (hseat : d.OneSeat) (hnearest : d.OneNearest) (h : d.prepareRefInfo = .ok (d', -2)) (f : Nat)
    (display : Display) :
    (d'.release f display).prepareRefInfo = (d.release f display).prepareRefInfo := by
  have hagain := placed_again (hlength ▸ d.refMaxbuffer_le) hbuffers hseat hnearest
  have hmax := count_le_of_ok h
  obtain rfl := prepareRefInfo_none h
  have hfirst : (d.release f display).count ≤ MAXREF := hmax
  have hsecond : (d.reordered.release f display).count ≤ MAXREF :=
    (reordered_count d).trans_le hmax
  rw [prepareRefInfo_eq hfirst, prepareRefInfo_eq hsecond, release_reordered, release_reordered,
    reordered_reordered hagain, release_placed, release_placed]
  show _ = (d.reordered.release f display).finish (d.placed d.count).errorMark
  rw [← hagain, ← reordered_count d]
  rfl

/-! ## What the moves decide -/

/-- A P picture of coding order 7 with the references `deltas`. Frame `i` has the `i`-th coding order,
and all frames are on display. -/
def onDisplay (orders deltas : List Int) (errorHandleMode : Nat) : Decoder where
  frmPool i :=
    { imgcoiRef := orders.getD i (-257), imgtrFwRefDistance := orders.getD i (-256), vfRef := 1 }
  errorProcPolicy := 0
  errorHandleMode := errorHandleMode
  imgType := .P_IMG
  tr := 7
  codingOrder := 7
  currRPS := { numOfRef := deltas.length, refPic := fun i => deltas.getD i 0 }

/-- The distances of the references of the current picture. -/
def refPoc (d : Decoder) (i : Nat) : Int := d.fRec.elim 0 fun f => (d.frmPool f).refPoc i

/-- A call finds no frame. With frame 10 released, a second call leaves another reference, or another
distance of a reference, than one call would. -/
def Differs (d : Decoder) : Prop := ∃ d' e e', d.prepareRefInfo = .ok (d', -2) ∧
  (d'.release 10 {}).prepareRefInfo = .ok (e, 0) ∧ (d.release 10 {}).prepareRefInfo = .ok (e', 0) ∧
    ∃ i < d.count, item e.fref i ≠ item e'.fref i ∨ e.refPoc i ≠ e'.refPoc i

/-- Reference 6 is wanted twice, and reference 5 is missing. -/
theorem retry_same_twice : ∃ d', (onDisplay [3, 2, 6] [1, 2, 1] 1).prepareRefInfo = .ok (d', -2) ∧
    d'.fref.take 3 = [0, 1, 2] ∧ d'.errorFref 1 = some 2 ∧ (d'.release 10 {}).prepareRefInfo =
      ((onDisplay [3, 2, 6] [1, 2, 1] 1).release 10 {}).prepareRefInfo := by
  refine ⟨_, rfl, by decide +kernel, by decide +kernel, ?_⟩
  exact retry_same rfl (by decide) (by decide +kernel) (by decide +kernel) rfl 10 {}

/-- The second call differs when two frames are nearest to a missing reference, when a coding order is
wanted three times, and when one that is wanted is that of two frames and another is missing. -/
theorem retry_differs : Differs (onDisplay [-257, 4, 6] [2, 1] 1) ∧
    Differs (onDisplay [1, 2, 3, 4, 5, 6] [1, 1, 1] 1) ∧ Differs (onDisplay [6, 6] [2, 1] 0) := by
  refine ⟨⟨_, _, _, rfl, rfl, rfl, ?_⟩, ⟨_, _, _, rfl, rfl, rfl, ?_⟩, ⟨_, _, _, rfl, rfl, rfl, ?_⟩⟩
  · exact ⟨0, by decide, Or.inr (by decide +kernel)⟩
  · exact ⟨0, by decide, Or.inl (by decide +kernel)⟩
  · exact ⟨1, by decide, Or.inl (by decide +kernel)⟩

end Decoder

end MediaModules.Avs2
