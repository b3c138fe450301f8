import MediaModules.Avs2.Headers

/-!
# No index of a picture header is out of range

The words of a header are arbitrary. The number of references is bounded by that of the frames, and for
a P or B picture by the length of the lists; the index of a predicted reference set is bounded from
above; and the distances of the loop filter's regions are added up before they are checked.
-/
namespace MediaModules.Avs2

open Lib.Checked

/-! ## When all are in range -/

/-- The region of a filter. -/
def regionOf (regionDistance : Nat → BitVec 16) (filters : Int) : Nat → Int
  | 0 => 0
  | f + 1 => symbol regionDistance filters (f + 1) + regionOf regionDistance filters f

def RegionOk (regionDistance : Nat → BitVec 16) (filters : Int) (f : Nat) : Prop :=
  0 ≤ regionOf regionDistance filters f ∧ regionOf regionDistance filters f < NO_VAR_BINS

instance (regionDistance : Nat → BitVec 16) (filters : Int) (f : Nat) :
    Decidable (RegionOk regionDistance filters f) :=
  inferInstanceAs (Decidable (_ ∧ _))

/-- The coefficients of a row are what they may be. -/
def RowOk (words : Nat → BitVec 16) : Prop :=
  ∀ pos < ALF_MAX_NUM_COEF, CoeffOk pos (getParam (words pos))

/-- The regions of a luma filter are there, up to the first filter that the reader stops at. -/
def AlfFits (p : Param) (alfEnable : Nat) : Prop :=
  alfEnable ≠ 0 → getParam p.pictureAlfEnableY ≠ 0 →
    0 ≤ getParam p.alfFiltersNumM1 ∧ getParam p.alfFiltersNumM1 ≤ 15 →
      ∀ f < (getParam p.alfFiltersNumM1 + 1).toNat, (∀ g < f, RowOk (p.alfYCoeffmulti g)) →
        RegionOk p.regionDistance (getParam p.alfFiltersNumM1 + 1) f

/-- An I picture has not more references than the lists are long; the index of the reference set that a
P or B picture predicts from is not negative. -/
def SetFits (code : Headers.PictureStartCode) (p : Param) (refMaxbuffer : Nat) : Prop :=
  match code with
  | .I_PICTURE_START_CODE => p.numOfRefCur.toNat ≤ MAXREF ∨ refMaxbuffer ≤ MAXREF
  | .PB_PICTURE_START_CODE => getParam p.predict ≠ 0 → 0 ≤ getParam p.RPSIdx

variable {p : Param} {h h' : Headers} {alf : ALFParam} {n : Int} {rps : ReferenceManagement}

/-! ## Reference sets -/

theorem readDeltas_ok (words : Nat → BitVec 16) (deltas : Nat → Int) (hn : n ≤ MAXREF) :
    ∃ deltas', readDeltas words n deltas = .ok deltas' :=
  ⟨_, loopBelow_ok (Int.toNat_le.mpr hn)⟩

theorem readDeltas_error (words : Nat → BitVec 16) (deltas : Nat → Int) (hn : ¬ n ≤ MAXREF) :
    readDeltas words n deltas = .error .outOfRange := by
  rw [readDeltas, loopBelow_eq, if_neg fun hle => hn (Int.toNat_le.mp hle)]

theorem clampMaxref_le (n : Int) : clampMaxref n ≤ MAXREF := by
  rw [clampMaxref]
  split
  · exact Int.le_refl _
  · next hle => exact Int.not_lt.mp hle

theorem readRPS_ok (p : Param) (rps : ReferenceManagement) (hn : n ≤ MAXREF) :
    ∃ rps', readRPS p n rps = .ok rps' ∧ rps'.numOfRef = n := by
  obtain ⟨refPic, href⟩ := readDeltas_ok p.refPicCur rps.refPic hn
  obtain ⟨removePic, hremove⟩ := readDeltas_ok p.removePicCur rps.removePic
    (clampMaxref_le (getParam p.numToRemoveCur))
  unfold readRPS
  rw [href]
  dsimp only [bind, Except.bind]
  rw [hremove]
  exact ⟨_, rfl, rfl⟩

theorem readRPS_error (p : Param) (rps : ReferenceManagement) (hn : ¬ n ≤ MAXREF) :
    readRPS p n rps = .error .outOfRange := by
  rw [readRPS, readDeltas_error p.refPicCur rps.refPic hn]
  rfl

/-- The driver's check of the number of references. -/
theorem checked_numOfRef (p : Param) {r : Nat} (hr : r ≤ REF_MAXBUFFER) :
    getParam (p.checked r).numOfRefCur = (min p.numOfRefCur.toNat r : Nat) := by
  have hsmall : r < 32768 := Nat.lt_of_le_of_lt hr (by decide)
  rw [Param.checked, getParam]
  split
  · next hgt =>
    rw [Nat.min_eq_right (Nat.le_of_lt hgt), BitVec.toInt_eq_toNat_cond]
    simp only [BitVec.toNat_ofNat]
    omega
  · next hle =>
    rw [Nat.min_eq_left (Nat.not_lt.mp hle), BitVec.toInt_eq_toNat_cond]
    omega

section Predicted

variable (decodRPS : Nat → ReferenceManagement) (rps : ReferenceManagement)

theorem predictedRPS_ok (hfits : getParam p.predict ≠ 0 → 0 ≤ getParam p.RPSIdx) :
    ∃ rps', predictedRPS p decodRPS rps = .ok rps' := by
  rw [predictedRPS]
  by_cases hpredict : getParam p.predict = 0
  · rw [if_pos hpredict]
    exact ⟨_, rfl⟩
  · have hnonneg := hfits hpredict
    rw [if_neg hpredict]
    dsimp only
    rw [if_pos (show _ ∧ _ from ?_)]
    · exact ⟨_, rfl⟩
    · rw [MAXGOP]
      split <;> omega

theorem predictedRPS_error (hfits : ¬ (getParam p.predict ≠ 0 → 0 ≤ getParam p.RPSIdx)) :
    predictedRPS p decodRPS rps = .error .outOfRange := by
  obtain ⟨hpredict, hneg⟩ := Classical.not_imp.mp hfits
  have hsmall : ¬ getParam p.RPSIdx ≥ MAXGOP := by
    rw [MAXGOP]
    omega
  rw [predictedRPS, if_neg hpredict]
  dsimp only
  rw [if_neg hsmall, if_neg fun h => hneg h.1]

end Predicted

/-! ## Pictures -/

/-- What the indices depend on is the same. -/
structure Same (h h' : Headers) : Prop where
  refMaxbuffer : h'.dec.refMaxbuffer = h.dec.refMaxbuffer
  alfEnable : h'.alfEnable = h.alfEnable

namespace Headers

theorem getIPictureHeader_ok (p : Param) (h : Headers) (hn : getParam p.numOfRefCur ≤ MAXREF) :
    ∃ h', getIPictureHeader p h = .ok h' ∧ Same h h' ∧
      h'.dec.currRPS.numOfRef = getParam p.numOfRefCur := by
  obtain ⟨rps, hread, hnum⟩ := readRPS_ok p h.dec.currRPS hn
  unfold getIPictureHeader
  dsimp only [bind, Except.bind]
  rw [hread]
  exact ⟨_, rfl, ⟨rfl, rfl⟩, hnum⟩

theorem getIPictureHeader_error (p : Param) (h : Headers) (hn : ¬ getParam p.numOfRefCur ≤ MAXREF) :
    getIPictureHeader p h = .error .outOfRange := by
  unfold getIPictureHeader
  dsimp only [bind, Except.bind]
  rw [readRPS_error p h.dec.currRPS hn]

theorem getPBPictureHeader_ok (h : Headers) (hfits : getParam p.predict ≠ 0 → 0 ≤ getParam p.RPSIdx) :
    ∃ h', getPBPictureHeader p h = .ok h' ∧ Same h h' ∧
      h'.dec.currRPS.numOfRef = clampMaxref (getParam p.numOfRefCur) := by
  obtain ⟨predicted, hpredicted⟩ := predictedRPS_ok h.decodRPS h.dec.currRPS hfits
  obtain ⟨rps, hread, hnum⟩ := readRPS_ok p predicted (clampMaxref_le (getParam p.numOfRefCur))
  unfold getPBPictureHeader
  dsimp only [bind, Except.bind]
  rw [hpredicted]
  dsimp only
  rw [hread]
  exact ⟨_, rfl, ⟨rfl, rfl⟩, hnum⟩

theorem getPBPictureHeader_error (h : Headers)
    (hfits : ¬ (getParam p.predict ≠ 0 → 0 ≤ getParam p.RPSIdx)) :
    getPBPictureHeader p h = .error .outOfRange := by
  unfold getPBPictureHeader
  dsimp only [bind, Except.bind]
  rw [predictedRPS_error h.decodRPS h.dec.currRPS hfits]

/-- A header leaves a reference set that is in range, or it fails where its own does not fit. -/
theorem getPictureHeader_cases (code : PictureStartCode) (p : Param) (h : Headers) :
    (SetFits code p h.dec.refMaxbuffer ∧
      ∃ h', getPictureHeader code (p.checked h.dec.refMaxbuffer) h = .ok h' ∧
        Same h h' ∧ h'.dec.InRange) ∨
    ¬ SetFits code p h.dec.refMaxbuffer ∧
      getPictureHeader code (p.checked h.dec.refMaxbuffer) h = .error .outOfRange := by
  have hnum := checked_numOfRef p h.dec.refMaxbuffer_le
  have hclamp := clampMaxref_le (getParam (p.checked h.dec.refMaxbuffer).numOfRefCur)
  cases code with
  | I_PICTURE_START_CODE =>
    have hiff : SetFits .I_PICTURE_START_CODE p h.dec.refMaxbuffer ↔
        getParam (p.checked h.dec.refMaxbuffer).numOfRefCur ≤ MAXREF := by
      rw [hnum, Int.ofNat_le, SetFits]
      omega
    by_cases hfits : SetFits .I_PICTURE_START_CODE p h.dec.refMaxbuffer
    · obtain ⟨h', hread, hsame, hcount⟩ := getIPictureHeader_ok _ h (hiff.mp hfits)
      refine Or.inl ⟨hfits, h', hread, hsame, ?_, ?_, ?_⟩
      · rw [hcount, hnum]
        exact Int.natCast_nonneg _
      · rw [hcount]
        exact hiff.mp hfits
      · rw [hcount, hnum, hsame.refMaxbuffer]
        exact Int.ofNat_le.mpr (Nat.min_le_right _ _)
    · exact Or.inr ⟨hfits, getIPictureHeader_error _ h fun hle => hfits (hiff.mpr hle)⟩
  | PB_PICTURE_START_CODE =>
    have hpredict : (p.checked h.dec.refMaxbuffer).predict = p.predict := by
      rw [Param.checked]
      split <;> rfl
    have hidx : (p.checked h.dec.refMaxbuffer).RPSIdx = p.RPSIdx := by
      rw [Param.checked]
      split <;> rfl
    have hiff : SetFits .PB_PICTURE_START_CODE p h.dec.refMaxbuffer ↔
        (getParam (p.checked h.dec.refMaxbuffer).predict ≠ 0 →
          0 ≤ getParam (p.checked h.dec.refMaxbuffer).RPSIdx) := by
      rw [hpredict, hidx, SetFits]
    by_cases hfits : SetFits .PB_PICTURE_START_CODE p h.dec.refMaxbuffer
    · obtain ⟨h', hread, hsame, hcount⟩ := getPBPictureHeader_ok h (hiff.mp hfits)
      refine Or.inl ⟨hfits, h', hread, hsame, ?_, ?_, ?_⟩
      · rw [hcount, clampMaxref, hnum]
        split
        · decide
        · exact Int.natCast_nonneg _
      · rw [hcount]
        exact hclamp
      · rw [hcount, clampMaxref, hnum, hsame.refMaxbuffer]
        split <;> omega
    · exact Or.inr ⟨hfits, getPBPictureHeader_error h fun himp => hfits (hiff.mpr himp)⟩

theorem foldl_setFrame {α : Type*} (read : Decoder → α)
    (hread : ∀ d f change, read (Decoder.setFrame d f change) = read d) (slot : Decoder → Nat → Nat)
    (change : Frame → Frame) (l : List Nat) (d : Decoder) :
    read (l.foldl (fun d i => d.setFrame (slot d i) change) d) = read d := by
  induction l generalizing d with
  | nil => rfl
  | cons i l ih => exact (ih _).trans (hread d (slot d i) change)

theorem calcPictureDistance_same (h : Headers) : Same h h.calcPictureDistance ∧
    h.calcPictureDistance.dec.currRPS = h.dec.currRPS := by
  rw [calcPictureDistance]
  split
  · refine ⟨⟨?_, rfl⟩, ?_⟩
    · exact foldl_setFrame Decoder.refMaxbuffer (fun _ _ _ => rfl)
        (fun d i => d.fref.getD i default) _ _ _
    · exact foldl_setFrame Decoder.currRPS (fun _ _ _ => rfl)
        (fun d i => d.fref.getD i default) _ _ _
  · exact ⟨⟨rfl, rfl⟩, rfl⟩

end Headers

/-! ## The loop filter -/

theorem assert_ok {cond : Prop} [Decidable cond] (h : cond) : assert cond = .ok () := if_pos h

theorem assert_stuck {cond : Prop} [Decidable cond] (h : ¬ cond) : assert cond = .error .stuck :=
  if_neg h

theorem readCoeffs_cases {row : Nat} (hrow : row < NO_VAR_BINS) (words : Nat → BitVec 16)
    (alf : ALFParam) : (RowOk words ∧ ∃ alf', readCoeffs row words alf = .ok alf') ∨
      ¬ RowOk words ∧ readCoeffs row words alf = .error .stuck := by
  have hcases : (RowOk words ∧ ∃ alf', readCoeffs row words alf = .ok alf' ∧ True) ∨
      ∃ pos < ALF_MAX_NUM_COEF, (∀ j < pos, CoeffOk j (getParam (words j))) ∧
        ¬ CoeffOk pos (getParam (words pos)) ∧ readCoeffs row words alf = .error .stuck := by
    refine rounds_cases (P := fun _ _ => True) trivial (fun pos _ alf _ hok => ?_)
      fun pos _ alf _ hno => ?_
    · rw [readCoeff, if_pos hrow, assert_ok hok]
      exact ⟨_, rfl, trivial⟩
    · rw [readCoeff, if_pos hrow, assert_stuck hno]
      rfl
  rcases hcases with ⟨hall, alf', hread, -⟩ | ⟨pos, hpos, -, hno, hread⟩
  · exact Or.inl ⟨hall, alf', hread⟩
  · exact Or.inr ⟨fun hall => hno (hall pos hpos), hread⟩

/-- A filter is good when its region is there and its row can be read. -/
def FilterOk (p : Param) (filters : Int) (f : Nat) : Prop :=
  RegionOk p.regionDistance filters f ∧ RowOk (p.alfYCoeffmulti f)

/-- How a bad filter stops the reader. -/
def filterHalt (p : Param) (filters : Int) (f : Nat) : Halt :=
  if RegionOk p.regionDistance filters f then .stuck else .outOfRange

section Filters

variable {filters : Int} {f : Nat} {s : ALFParam × Int}

theorem markRegion_ok (hs : s.2 = regionOf p.regionDistance filters (f - 1))
    (hok : RegionOk p.regionDistance filters f) :
    ∃ s', markRegion p filters s f = .ok s' ∧ s'.2 = regionOf p.regionDistance filters f := by
  cases f with
  | zero => exact ⟨s, if_pos rfl, hs⟩
  | succ f =>
    have hpattern : symbol p.regionDistance filters (f + 1) + s.2 =
        regionOf p.regionDistance filters (f + 1) := by
      rw [hs]
      rfl
    rw [markRegion, if_neg (Nat.succ_ne_zero f), hpattern]
    exact ⟨_, if_pos hok, rfl⟩

theorem markRegion_error (hs : s.2 = regionOf p.regionDistance filters (f - 1))
    (hno : ¬ RegionOk p.regionDistance filters f) :
    markRegion p filters s f = .error .outOfRange := by
  cases f with
  | zero => exact absurd ⟨Int.le_refl 0, show (0 : Int) < NO_VAR_BINS by decide⟩ hno
  | succ f =>
    have hpattern : symbol p.regionDistance filters (f + 1) + s.2 =
        regionOf p.regionDistance filters (f + 1) := by
      rw [hs]
      rfl
    rw [markRegion, if_neg (Nat.succ_ne_zero f), hpattern]
    exact if_neg hno

theorem readFilter_ok (hf : f < NO_VAR_BINS) (hs : s.2 = regionOf p.regionDistance filters (f - 1))
    (hok : FilterOk p filters f) :
    ∃ s', readFilter p filters s f = .ok s' ∧ s'.2 = regionOf p.regionDistance filters f := by
  obtain ⟨s', hmark, hs'⟩ := markRegion_ok hs hok.1
  rw [readFilter, hmark]
  rcases readCoeffs_cases hf (p.alfYCoeffmulti f) s'.1 with ⟨-, alf, hread⟩ | ⟨hno, -⟩
  · dsimp only [bind, Except.bind]
    rw [hread]
    exact ⟨_, rfl, hs'⟩
  · exact absurd hok.2 hno

theorem readFilter_error (hf : f < NO_VAR_BINS) (hs : s.2 = regionOf p.regionDistance filters (f - 1))
    (hno : ¬ FilterOk p filters f) : readFilter p filters s f = .error (filterHalt p filters f) := by
  by_cases hregion : RegionOk p.regionDistance filters f
  · obtain ⟨s', hmark, -⟩ := markRegion_ok hs hregion
    rw [readFilter, hmark, filterHalt, if_pos hregion]
    rcases readCoeffs_cases hf (p.alfYCoeffmulti f) s'.1 with ⟨hrow, -⟩ | ⟨-, hread⟩
    · exact absurd ⟨hregion, hrow⟩ hno
    · dsimp only [bind, Except.bind]
      rw [hread]
  · rw [readFilter, markRegion_error hs hregion, filterHalt, if_neg hregion]
    rfl

/-- The filters are all good, or the first bad one stops the reader. -/
theorem readFilters_cases {n : Nat} (hn : n ≤ NO_VAR_BINS) (p : Param) (filters : Int) (alf : ALFParam) :
    ((∀ f < n, FilterOk p filters f) ∧
      ∃ s, rounds (readFilter p filters) n (alf, 0) = .ok s ∧
        s.2 = regionOf p.regionDistance filters (n - 1)) ∨
    ∃ f < n, (∀ g < f, FilterOk p filters g) ∧ ¬ FilterOk p filters f ∧
      rounds (readFilter p filters) n (alf, 0) = .error (filterHalt p filters f) := by
  refine rounds_cases
    (P := fun f (s : ALFParam × Int) => s.2 = regionOf p.regionDistance filters (f - 1)) rfl
    (fun f hf s hs hok => ?_) fun f hf s hs hno => ?_
  · exact readFilter_ok (Nat.lt_of_lt_of_le hf hn) hs hok
  · exact readFilter_error (Nat.lt_of_lt_of_le hf hn) hs hno

/-- The first bad filter has a region out of range exactly when one has of those that are reached. -/
theorem filterHalt_iff {n : Nat} (hf : f < n) (hbefore : ∀ g < f, FilterOk p filters g)
    (hno : ¬ FilterOk p filters f) :
    filterHalt p filters f ≠ .outOfRange ↔
      ∀ f < n, (∀ g < f, RowOk (p.alfYCoeffmulti g)) → RegionOk p.regionDistance filters f := by
  constructor
  · intro hhalt g hg hrows
    rw [filterHalt] at hhalt
    have hregion : RegionOk p.regionDistance filters f := by
      by_contra hbad
      exact hhalt (if_neg hbad)
    rcases Nat.lt_trichotomy g f with hlt | rfl | hgt
    · exact (hbefore g hlt).1
    · exact hregion
    · exact absurd ⟨hregion, hrows f hgt⟩ hno
  · intro hall
    rw [filterHalt, if_pos (hall f hf fun g hg => (hbefore g hg).2)]
    decide

end Filters

/-- The luma filters are read without an index out of range exactly when their regions are there. -/
theorem readAlfCoeff_iff (p : Param) (alf : ALFParam) : readAlfCoeff p .ALF_Y alf ≠ .error .outOfRange ↔
    (0 ≤ getParam p.alfFiltersNumM1 ∧ getParam p.alfFiltersNumM1 ≤ 15 →
      ∀ f < (getParam p.alfFiltersNumM1 + 1).toNat, (∀ g < f, RowOk (p.alfYCoeffmulti g)) →
        RegionOk p.regionDistance (getParam p.alfFiltersNumM1 + 1) f) := by
  unfold readAlfCoeff
  dsimp only [bind, Except.bind]
  by_cases hm : 0 ≤ getParam p.alfFiltersNumM1 ∧ getParam p.alfFiltersNumM1 ≤ 15
  · have hn : (getParam p.alfFiltersNumM1 + 1).toNat ≤ NO_VAR_BINS := by
      rw [NO_VAR_BINS]
      omega
    rw [assert_ok hm, forall_prop_of_true hm]
    dsimp only
    rcases readFilters_cases hn p (getParam p.alfFiltersNumM1 + 1)
      { alf with filtersPerGroup := getParam p.alfFiltersNumM1 + 1, filterPattern := fun _ => 0 } with
      ⟨hall, s, hread, -⟩ | ⟨f, hf, hbefore, hno, hread⟩
    · rw [hread]
      refine iff_of_true ?_ fun f hf _ => (hall f hf).1
      dsimp only
      by_cases hlast : 0 ≤ s.2 ∧ s.2 ≤ 15
      · rw [assert_ok hlast]
        exact fun h => nomatch h
      · rw [assert_stuck hlast]
        exact fun h => nomatch h
    · rw [hread, ← filterHalt_iff hf hbefore hno]
      exact not_congr ⟨fun h => Except.error.inj h, fun h => congrArg _ h⟩
  · rw [assert_stuck hm]
    exact iff_of_true (fun h => nomatch h) fun h => absurd h hm

theorem readCoeffs_ne {row : Nat} (hrow : row < NO_VAR_BINS) (words : Nat → BitVec 16) (alf : ALFParam) :
    readCoeffs row words alf ≠ .error .outOfRange := by
  rcases readCoeffs_cases hrow words alf with ⟨-, alf', hread⟩ | ⟨-, hread⟩ <;> rw [hread] <;>
    exact fun h => nomatch h

theorem readAlfCoeff_chroma (p : Param) (alf : ALFParam) {c : ALFComponentID} (hc : c ≠ .ALF_Y) :
    readAlfCoeff p c alf ≠ .error .outOfRange := by
  have hrow : 0 < NO_VAR_BINS := by decide
  cases c with
  | ALF_Y => exact absurd rfl hc
  | ALF_Cb => exact readCoeffs_ne hrow p.alfCbCoeffmulti alf
  | ALF_Cr => exact readCoeffs_ne hrow p.alfCrCoeffmulti alf

namespace Headers

theorem readComponent_cases (p : Param) (c : ALFComponentID) (h : Headers) :
    (∃ h', readComponent p c h = .ok h' ∧ h'.dec = h.dec ∧
      (h.picAlfOn c ≠ 0 → ∃ alf, readAlfCoeff p c (h.alfPictureParam c) = .ok alf)) ∨
    ∃ e, readComponent p c h = .error e ∧ h.picAlfOn c ≠ 0 ∧
      readAlfCoeff p c (h.alfPictureParam c) = .error e := by
  rw [readComponent]
  by_cases hoff : h.picAlfOn c = 0
  · rw [if_pos hoff]
    exact Or.inl ⟨h, rfl, rfl, fun hon => absurd hoff hon⟩
  · rw [if_neg hoff]
    cases hread : readAlfCoeff p c (h.alfPictureParam c) with
    | error e => exact Or.inr ⟨e, rfl, hoff, rfl⟩
    | ok alf => exact Or.inl ⟨_, rfl, rfl, fun _ => ⟨alf, rfl⟩⟩

theorem readComponent_chroma (p : Param) (h : Headers) {c : ALFComponentID} (hc : c ≠ .ALF_Y) :
    (∃ h', readComponent p c h = .ok h' ∧ h'.dec = h.dec) ∨
      ∃ e, readComponent p c h = .error e ∧ e ≠ .outOfRange := by
  rcases readComponent_cases p c h with ⟨h', hread, hdec, -⟩ | ⟨e, hread, -, hcoeff⟩
  · exact Or.inl ⟨h', hread, hdec⟩
  · exact Or.inr ⟨e, hread, fun heq => readAlfCoeff_chroma p _ hc (heq ▸ hcoeff)⟩

/-- The parameters of the loop filter are read, or an index is out of range where they do not fit. -/
theorem readAlfParam_cases (p : Param) (h : Headers) :
    (AlfFits p h.alfEnable ∧ ((∃ h', readAlfParam p h = .ok h' ∧ h'.dec = h.dec) ∨
      ∃ e, readAlfParam p h = .error e ∧ e ≠ .outOfRange)) ∨
    ¬ AlfFits p h.alfEnable ∧ readAlfParam p h = .error .outOfRange := by
  by_cases hoff : h.alfEnable = 0
  · exact Or.inl ⟨fun hon => absurd hoff hon, Or.inl ⟨h, if_pos hoff, rfl⟩⟩
  · have hluma := readAlfCoeff_iff p ((switchAlf p h).alfPictureParam .ALF_Y)
    rw [readAlfParam, if_neg hoff]
    dsimp only [bind, Except.bind]
    rcases readComponent_cases p .ALF_Y (switchAlf p h) with
      ⟨h₁, hread, hdec, hcoeff⟩ | ⟨e, hread, hon, hcoeff⟩
    · have hfits : AlfFits p h.alfEnable := fun _ hon => by
        obtain ⟨alf, hcoeff⟩ := hcoeff hon
        refine hluma.mp fun heq => ?_
        rw [hcoeff] at heq
        exact nomatch heq
      refine Or.inl ⟨hfits, ?_⟩
      rw [hread]
      dsimp only
      rcases readComponent_chroma p h₁ (c := .ALF_Cb) (by decide) with
        ⟨h₂, hread, hdec₂⟩ | ⟨e, hread, he⟩
      · rw [hread]
        dsimp only
        rcases readComponent_chroma p h₂ (c := .ALF_Cr) (by decide) with ⟨h₃, hread, hdec₃⟩ | herror
        · exact Or.inl ⟨h₃, hread, hdec₃.trans (hdec₂.trans hdec)⟩
        · exact Or.inr herror
      · rw [hread]
        exact Or.inr ⟨e, rfl, he⟩
    · rw [hread]
      by_cases he : e = .outOfRange
      · refine Or.inr ⟨fun hfits => ?_, congrArg _ he⟩
        exact hluma.mpr (hfits hoff hon) (he ▸ hcoeff)
      · refine Or.inl ⟨fun _ _ => hluma.mp fun heq => ?_, Or.inr ⟨e, rfl, he⟩⟩
        exact he (Except.error.inj (hcoeff.symm.trans heq))

/-! ## The references of a picture -/

theorem processHeader_ok (hrange : h.dec.InRange) : ∃ r, h.processHeader = .ok r := by
  have hbackground {g : Headers} (hg : g.dec.InRange) : g.backgroundReferences.dec.InRange := by
    rw [backgroundReferences]
    split
    · exact ⟨hg.nonneg, hg.le_max, hg.le_buffers⟩
    · split
      · exact ⟨hg.nonneg, hg.le_max, hg.le_buffers⟩
      · exact hg
  have hstart : h.startSequence.dec.InRange := by
    rw [startSequence]
    split
    · exact ⟨hrange.nonneg, hrange.le_max, hrange.le_buffers⟩
    · exact hrange
  obtain ⟨r, hprepare⟩ := Decoder.prepareRefInfo_ok (hbackground hstart)
  rw [processHeader, initFrame, hprepare]
  split
  · exact ⟨_, rfl⟩
  · exact ⟨_, rfl⟩

theorem alfFits_checked (p : Param) (r alfEnable : Nat) :
    AlfFits (p.checked r) alfEnable ↔ AlfFits p alfEnable := by
  rw [Param.checked]
  split
  · exact Iff.rfl
  · exact Iff.rfl

/-- No index is out of range exactly when the reference set and the regions of the loop filter fit. -/
theorem readPicture_inRange_iff (code : PictureStartCode) (p : Param) (h : Headers) :
    readPicture code p h ≠ .error .outOfRange ↔
      SetFits code p h.dec.refMaxbuffer ∧ AlfFits p h.alfEnable := by
  rw [readPicture, prepareHeader]
  dsimp only [bind, Except.bind]
  rcases getPictureHeader_cases code p h with ⟨hset, h₁, hread, hsame, hrange⟩ | ⟨hset, hread⟩
  · obtain ⟨hcalc, hrps⟩ := calcPictureDistance_same h₁
    have hrange : h₁.calcPictureDistance.dec.InRange := by
      refine ⟨?_, ?_, ?_⟩
      · rw [hrps]
        exact hrange.nonneg
      · rw [hrps]
        exact hrange.le_max
      · rw [hrps, hcalc.refMaxbuffer]
        exact hrange.le_buffers
    have half : AlfFits (p.checked h.dec.refMaxbuffer) h₁.calcPictureDistance.alfEnable ↔
        AlfFits p h.alfEnable := by
      rw [alfFits_checked, hcalc.alfEnable, hsame.alfEnable]
    rw [hread]
    dsimp only
    rcases readAlfParam_cases (p.checked h.dec.refMaxbuffer) h₁.calcPictureDistance with
      ⟨hfits, ⟨h₂, hparam, hdec⟩ | ⟨e, hparam, he⟩⟩ | ⟨hfits, hparam⟩
    · obtain ⟨r, hprocess⟩ := processHeader_ok (h := h₂) (hdec ▸ hrange)
      rw [hparam]
      dsimp only
      rw [hprocess]
      exact iff_of_true (fun heq => nomatch heq) ⟨hset, half.mp hfits⟩
    · rw [hparam]
      exact iff_of_true (fun heq => he (Except.error.inj heq)) ⟨hset, half.mp hfits⟩
    · rw [hparam]
      exact iff_of_false (fun heq => heq rfl) fun hboth => hfits (half.mpr hboth.2)
  · rw [hread]
    exact iff_of_false (fun heq => heq rfl) fun hboth => hset hboth.1

/-- Eight references of an I picture, a negative index of a reference set, and a region behind the last
are out of range. -/
theorem readPicture_outOfRange :
    readPicture .I_PICTURE_START_CODE { numOfRefCur := 8 } {} = .error .outOfRange ∧
    readPicture .PB_PICTURE_START_CODE { predict := 1, RPSIdx := 0xffff } {} = .error .outOfRange ∧
    readPicture .I_PICTURE_START_CODE
      { pictureAlfEnableY := 1, alfFiltersNumM1 := 1, regionDistance := fun _ => 16 }
      { alfEnable := 1 } = .error .outOfRange := by
  refine ⟨rfl, rfl, rfl⟩

end Headers

end MediaModules.Avs2
