import MediaModules.H264Dpb.Pool

/-!
# The picture after a reset

A reference picture with memory management control operation 5 counts, once stored, as one of
frame number and POC 0, and the POC of the next picture is to be derived from that. `slice_prepare`
clears `last_has_mmco_5` before `decode_poc` looks at it, so the next POC is derived from what the
picture had before its reset: it is the right one only when that comes to the same.
-/
namespace MediaModules.H264Dpb

/-! ## What is prescribed -/

/-- The wrap of the least significant bits: the most significant bits go up, down or stay. -/
def lsbWrap (maxLsb prevLsb lsb : Int) : Int :=
  if lsb < prevLsb ∧ prevLsb - lsb ≥ maxLsb / 2 then 1
  else if lsb > prevLsb ∧ lsb - prevLsb > maxLsb / 2 then -1
  else 0

/-- `MaxPicOrderCntLsb`. -/
def SliceParam.maxLsb (h : SliceParam) : Int := 2 ^ (h.sps.log2MaxPicOrderCntLsbMinus4 + 4)

/-- `MaxFrameNum`. -/
def SliceParam.maxFrameNum (h : SliceParam) : Int := 2 ^ (h.sps.log2MaxFrameNumMinus4 + 4)

/-- The POC of type 0 from the most significant bits: of the top and of the bottom field. -/
def pocOfMsb (h : SliceParam) (msb : Int) : Int × Int :=
  let top := msb + h.picOrderCntLsb
  (top, if h.picStructure = .frame then top + h.deltaPicOrderCntBottom else top)

/-- The POC of type 1 from the frame number offset. -/
def expectedOfOffset (h : SliceParam) (frameNumOffset : Int) : Int :=
  expectedPicOrderCnt h.sps (absFrameNum1 h.sps frameNumOffset h.frameNum h.nalReferenceIdc)
    h.nalReferenceIdc

def pocOfExpected (h : SliceParam) (expected : Int) : Int × Int :=
  let top := expected + h.deltaPicOrderCnt0
  (top, if h.picStructure = .frame then
      top + h.sps.offsetForTopToBottomField + h.deltaPicOrderCnt1
    else expected + h.sps.offsetForTopToBottomField + h.deltaPicOrderCnt0)

/-- The POC of type 2 from the frame number offset. -/
def pocOfOffset (h : SliceParam) (frameNumOffset : Int) : Int × Int :=
  let poc := if h.nalReferenceIdc = 0 then 2 * (frameNumOffset + h.frameNum) - 1
    else 2 * (frameNumOffset + h.frameNum)
  (poc, poc)

/-- The POC of the picture after a reset: type 0 takes 0 for the most significant bits before, and
for the least significant ones the POC the top field has after the reset; types 1 and 2 take 0 for
frame number offset and frame number before. -/
def prescribedPoc (h : SliceParam) (topPocAfterReset : Int) : Int × Int :=
  match h.sps.picOrderCntType with
  | 0 =>
    let prevLsb := if h.idrFlag then 0 else topPocAfterReset
    pocOfMsb h (lsbWrap h.maxLsb prevLsb h.picOrderCntLsb * h.maxLsb)
  | 1 => pocOfExpected h (expectedOfOffset h 0)
  | _ => if h.idrFlag then (0, 0) else pocOfOffset h 0

/-- A picture of the parity has the POC. -/
def HasPoc (q : StorablePicture) (parity : PictureStructure) (poc : Int × Int) : Prop :=
  match parity with
  | .frame => q.topPoc = poc.1 ∧ q.bottomPoc = poc.2 ∧ q.poc = min poc.1 poc.2
  | .topField => q.poc = poc.1
  | .bottomField => q.poc = poc.2

/-- The current picture has the POC. -/
def GivenPoc (t : Dpb) (parity : PictureStructure) (poc : Int × Int) : Prop :=
  ∃ q, t.mVideo.decPicture = some q ∧ HasPoc (t.pics q) parity poc

/-! ## What the code derives -/

theorem pocMsb_eq (maxLsb prevMsb prevLsb lsb : Int) :
    pocMsb maxLsb prevMsb prevLsb lsb = prevMsb + lsbWrap maxLsb prevLsb lsb * maxLsb := by
  unfold pocMsb lsbWrap
  split
  · omega
  · split <;> omega

/-- The POC the code derives for a slice, from what the picture before has left. -/
def derivedPoc (v : VideoParameters) (h : SliceParam) : Int × Int :=
  let offset := if h.idrFlag then 0
    else frameNumOffsetAfter h.maxFrameNum v.previousFrameNumOffset v.previousFrameNum h.frameNum
  match h.sps.picOrderCntType with
  | 0 =>
    let prevMsb := if h.idrFlag then 0 else v.prevPicOrderCntMsb
    let prevLsb := if h.idrFlag then 0 else v.prevPicOrderCntLsb
    pocOfMsb h (prevMsb + lsbWrap h.maxLsb prevLsb h.picOrderCntLsb * h.maxLsb)
  | 1 => pocOfExpected h (expectedOfOffset h offset)
  | _ => if h.idrFlag then (0, 0) else pocOfOffset h offset

section Types

variable (sps : SPSParameters) {v : VideoParameters} {sl : Slice}

theorem decodePoc_type0 (h : sps.picOrderCntType = 0) :
    decodePoc sps v sl = decodePoc0 sps v sl := by
  simp only [decodePoc, h]

theorem decodePoc_type1 (h : sps.picOrderCntType = 1) :
    decodePoc sps v sl = decodePoc1 sps v sl := by
  simp only [decodePoc, h]

theorem decodePoc_type2 (h : sps.picOrderCntType = 2) : decodePoc sps v sl = decodePoc2 v sl := by
  simp only [decodePoc, h]

end Types

/-- The POC of a slice as `decode_poc` leaves it. -/
structure SlicePoc (sl : Slice) (parity : PictureStructure) (poc : Int × Int) : Prop where
  structure_eq : sl.picStructure = parity
  top : parity ≠ .bottomField → sl.toppoc = poc.1
  bottom : parity ≠ .topField → sl.bottompoc = poc.2
  frame : parity = .frame → sl.framepoc = min poc.1 poc.2

/-- A slice as `slice_prepare` leaves it. -/
structure Prepared (sl : Slice) (h : SliceParam) : Prop where
  idrFlag : sl.idrFlag = h.idrFlag
  frameNum : sl.frameNum = h.frameNum
  nalReferenceIdc : sl.nalReferenceIdc = h.nalReferenceIdc
  picOrderCntLsb : sl.picOrderCntLsb = h.picOrderCntLsb
  deltaPicOrderCntBottom : sl.deltaPicOrderCntBottom = h.deltaPicOrderCntBottom
  deltaPicOrderCnt0 : sl.deltaPicOrderCnt0 = h.deltaPicOrderCnt0
  deltaPicOrderCnt1 : sl.deltaPicOrderCnt1 = h.deltaPicOrderCnt1
  picStructure : sl.picStructure = h.picStructure
  fieldPicFlag : sl.fieldPicFlag = decide (h.picStructure ≠ .frame)
  bottomFieldFlag : sl.bottomFieldFlag = decide (h.picStructure = .bottomField)

theorem prepared_prepareSlice (sl : Slice) (h : SliceParam) :
    Prepared (Dpb.prepareSlice sl h) h :=
  ⟨rfl, rfl, rfl, rfl, rfl, rfl, rfl, rfl, rfl, rfl⟩

section Place

variable {sl : Slice} {h : SliceParam}

theorem placePoc_spec (hp : Prepared sl h) (msb : Int) :
    SlicePoc (placePoc msb sl) h.picStructure (pocOfMsb h msb) := by
  have hfield := hp.fieldPicFlag
  have hbottom := hp.bottomFieldFlag
  have hs := hp.picStructure
  cases hc : h.picStructure <;> rw [hc] at hfield hbottom hs <;>
    constructor <;> simp [placePoc, pocOfMsb, hfield, hbottom, hs, hc, hp.picOrderCntLsb,
      hp.deltaPicOrderCntBottom]

theorem placeExpected_spec (hp : Prepared sl h) (sps : SPSParameters)
    (hsps : sps.offsetForTopToBottomField = h.sps.offsetForTopToBottomField) (expected abs : Int) :
    SlicePoc (placeExpected sps expected { sl with absFrameNum := abs }) h.picStructure
      (pocOfExpected h expected) := by
  have hfield := hp.fieldPicFlag
  have hbottom := hp.bottomFieldFlag
  have hs := hp.picStructure
  cases hc : h.picStructure <;> rw [hc] at hfield hbottom hs <;>
    constructor <;> simp [placeExpected, pocOfExpected, hfield, hbottom, hs, hc, hsps,
      hp.deltaPicOrderCnt0, hp.deltaPicOrderCnt1]

theorem placeFrameNum_spec (hp : Prepared sl h) (offset : Int) :
    SlicePoc (placeFrameNum offset sl) h.picStructure (pocOfOffset h offset) := by
  have hfield := hp.fieldPicFlag
  have hbottom := hp.bottomFieldFlag
  have hs := hp.picStructure
  cases hc : h.picStructure <;> rw [hc] at hfield hbottom hs <;>
    constructor <;> simp [placeFrameNum, pocOfOffset, hfield, hbottom, hs, hp.frameNum,
      hp.nalReferenceIdc]

theorem frameNumOffset_spec (hp : Prepared sl h) {v : VideoParameters}
    (hv : v.lastHasMmco5 = false) (hm : v.maxFrameNum = h.maxFrameNum) :
    (decodeFrameNumOffset v sl).frameNumOffset = if h.idrFlag then 0
      else frameNumOffsetAfter h.maxFrameNum v.previousFrameNumOffset v.previousFrameNum
        h.frameNum := by
  unfold decodeFrameNumOffset
  rw [hp.idrFlag, hv, hp.frameNum, ← hm]
  split <;> rfl

theorem choosePrevPoc_spec (hp : Prepared sl h) {v : VideoParameters}
    (hv : v.lastHasMmco5 = false) :
    (choosePrevPoc v sl).prevPicOrderCntMsb = (if h.idrFlag then 0 else v.prevPicOrderCntMsb) ∧
      (choosePrevPoc v sl).prevPicOrderCntLsb = if h.idrFlag then 0 else v.prevPicOrderCntLsb := by
  unfold choosePrevPoc
  rw [hp.idrFlag, hv]
  split <;> exact ⟨rfl, rfl⟩

theorem decodePoc0_spec (hp : Prepared sl h) {v : VideoParameters} (hv : v.lastHasMmco5 = false)
    (b : Bool) :
    SlicePoc (decodePoc0 { h.sps with frameMbsOnlyFlag := b } v sl).2 h.picStructure
      (pocOfMsb h ((if h.idrFlag then 0 else v.prevPicOrderCntMsb) +
        lsbWrap h.maxLsb (if h.idrFlag then 0 else v.prevPicOrderCntLsb) h.picOrderCntLsb *
          h.maxLsb)) := by
  obtain ⟨hmsb, hlsb⟩ := choosePrevPoc_spec hp hv
  rw [← hmsb, ← hlsb, ← pocMsb_eq, ← hp.picOrderCntLsb]
  exact placePoc_spec hp _

theorem decodePoc1_spec (hp : Prepared sl h) (v : VideoParameters) (b : Bool) :
    SlicePoc (decodePoc1 { h.sps with frameMbsOnlyFlag := b } v sl).2 h.picStructure
      (pocOfExpected h (expectedOfOffset h (decodeFrameNumOffset v sl).frameNumOffset)) := by
  have hexpected : expectedPicOrderCnt { h.sps with frameMbsOnlyFlag := b }
      (absFrameNum1 { h.sps with frameMbsOnlyFlag := b } (decodeFrameNumOffset v sl).frameNumOffset
        sl.frameNum sl.nalReferenceIdc) sl.nalReferenceIdc =
      expectedOfOffset h (decodeFrameNumOffset v sl).frameNumOffset := by
    rw [hp.frameNum, hp.nalReferenceIdc]
    rfl
  rw [← hexpected]
  exact placeExpected_spec hp { h.sps with frameMbsOnlyFlag := b } rfl _ _

theorem decodePoc2_spec (hp : Prepared sl h) (v : VideoParameters) :
    SlicePoc (decodePoc2 v sl).2 h.picStructure
      (if h.idrFlag then (0, 0)
        else pocOfOffset h (decodeFrameNumOffset v sl).frameNumOffset) := by
  show SlicePoc (if sl.idrFlag then _ else _) _ _
  rw [hp.idrFlag]
  split
  · exact ⟨hp.picStructure, fun _ => rfl, fun _ => rfl, fun _ => rfl⟩
  · exact placeFrameNum_spec hp _

/-- With `last_has_mmco_5` cleared, the POC comes from what the picture before has left. -/
theorem decodePoc_spec (hp : Prepared sl h) {v : VideoParameters} (hv : v.lastHasMmco5 = false)
    (hm : v.maxFrameNum = h.maxFrameNum) (ht : h.sps.picOrderCntType ≤ 2) (b : Bool) :
    SlicePoc (decodePoc { h.sps with frameMbsOnlyFlag := b } v sl).2 h.picStructure
      (derivedPoc v h) := by
  have hoffset := frameNumOffset_spec hp hv hm
  have htypes : h.sps.picOrderCntType = 0 ∨ h.sps.picOrderCntType = 1 ∨
      h.sps.picOrderCntType = 2 := by omega
  rcases htypes with ht | ht | ht
  · have hderived : derivedPoc v h = pocOfMsb h ((if h.idrFlag then 0 else v.prevPicOrderCntMsb) +
        lsbWrap h.maxLsb (if h.idrFlag then 0 else v.prevPicOrderCntLsb) h.picOrderCntLsb *
          h.maxLsb) := by
      simp only [derivedPoc, ht]
    rw [decodePoc_type0 { h.sps with frameMbsOnlyFlag := b } ht, hderived]
    exact decodePoc0_spec hp hv b
  · have hderived : derivedPoc v h =
        pocOfExpected h (expectedOfOffset h (decodeFrameNumOffset v sl).frameNumOffset) := by
      simp only [derivedPoc, ht, hoffset]
    rw [decodePoc_type1 { h.sps with frameMbsOnlyFlag := b } ht, hderived]
    exact decodePoc1_spec hp v b
  · have hderived : derivedPoc v h = if h.idrFlag then (0, 0)
        else pocOfOffset h (decodeFrameNumOffset v sl).frameNumOffset := by
      simp only [derivedPoc, ht, hoffset]
    rw [decodePoc_type2 { h.sps with frameMbsOnlyFlag := b } ht, hderived]
    exact decodePoc2_spec hp v

end Place

/-! ## The picture of a slice -/

namespace Dpb

open MediaModules.H264Dpb

variable {s : Dpb}

theorem takePicture_mSlice (s : Dpb) : s.takePicture.mSlice = s.mSlice := by
  unfold takePicture getNewPic
  split <;> rfl

/-- The POC of a picture. -/
def pocs (q : StorablePicture) : Int × Int × Int := (q.poc, q.topPoc, q.bottomPoc)

theorem pocs_of_unnumbered {t : Dpb} (h : t.unnumbered = s.unnumbered) (p : Nat) :
    pocs (t.pics p) = pocs (s.pics p) :=
  show pocs (t.unnumbered.pics p) = pocs (s.unnumbered.pics p) by rw [h]

theorem mSlice_of_unnumbered {t : Dpb} (h : t.unnumbered = s.unnumbered) : t.mSlice = s.mSlice :=
  show t.unnumbered.mSlice = s.unnumbered.mSlice by rw [h]

/-- The new picture has the POC of its slice. -/
theorem pocs_startPicture (s : Dpb) (p : Nat) :
    pocs ((s.initPicture p).updatePicNum.pics p) =
      (match s.mSlice.picStructure with
        | .topField => s.mSlice.toppoc
        | .bottomField => s.mSlice.bottompoc
        | .frame => s.mSlice.framepoc, s.mSlice.toppoc, s.mSlice.bottompoc) := by
  rw [pocs_of_unnumbered (unnumbered_updatePicNum (s.initPicture p))]
  unfold initPicture
  dsimp only
  rw [modifyPic_pics, if_pos rfl]
  rfl

theorem checkFrameStoreSamePicNum_poc (s : Dpb) (p q : Nat) :
    ((s.checkFrameStoreSamePicNum p).pics q).poc = (s.pics q).poc := by
  unfold checkFrameStoreSamePicNum
  split
  · rfl
  · refine modifyPic_read s StorablePicture.poc (fun q => ?_) (some p) q
    dsimp only
    split <;> rfl

theorem givenPoc_numbered {parity : PictureStructure} {poc : Int × Int} {p : Nat}
    (hcur : s.mVideo.decPicture = some p) (hsl : SlicePoc s.mSlice parity poc) :
    GivenPoc (if (s.initPicture p).updatePicNum.mSlice.picStructure = .frame then
        (s.initPicture p).updatePicNum
      else (s.initPicture p).updatePicNum.checkFrameStoreSamePicNum p) parity poc := by
  have hpoc := pocs_startPicture s p
  have hframes : (s.initPicture p).updatePicNum.frames = s.frames := by
    rw [frames_updatePicNum, frames_initPicture]
  have hdec : (s.initPicture p).updatePicNum.mVideo.decPicture = some p :=
    (congrArg Frames.decPicture hframes).trans hcur
  have hslice : (s.initPicture p).updatePicNum.mSlice = s.mSlice :=
    (mSlice_of_unnumbered (unnumbered_updatePicNum (s.initPicture p))).trans rfl
  have hdec' : ((s.initPicture p).updatePicNum.checkFrameStoreSamePicNum p).mVideo.decPicture =
      some p :=
    (congrArg Frames.decPicture (frames_checkFrameStoreSamePicNum _ p)).trans hdec
  rw [hslice, hsl.structure_eq]
  rw [hsl.structure_eq] at hpoc
  simp only [pocs, Prod.mk.injEq] at hpoc
  obtain ⟨h1, h2, h3⟩ := hpoc
  cases parity with
  | frame =>
    rw [if_pos rfl]
    exact ⟨p, hdec, h2.trans (hsl.top nofun), h3.trans (hsl.bottom nofun), h1.trans (hsl.frame rfl)⟩
  | topField =>
    rw [if_neg nofun]
    exact ⟨p, hdec', (checkFrameStoreSamePicNum_poc _ p p).trans (h1.trans (hsl.top nofun))⟩
  | bottomField =>
    rw [if_neg nofun]
    exact ⟨p, hdec', (checkFrameStoreSamePicNum_poc _ p p).trans (h1.trans (hsl.bottom nofun))⟩

theorem givenPoc_startPicture {parity : PictureStructure} {poc : Int × Int}
    (h : s.frames.Pooled none) (hsl : SlicePoc s.decodeSlicePoc.mSlice parity poc) :
    GivenPoc s.startPicture parity poc := by
  rw [← frames_decodeSlicePoc] at h
  obtain ⟨p, hp⟩ := pooled_takePicture h
  have hcur : s.decodeSlicePoc.takePicture.mVideo.decPicture = some p := hp.current
  rw [← takePicture_mSlice] at hsl
  unfold startPicture
  dsimp only
  rw [hcur]
  exact givenPoc_numbered hcur hsl

theorem derivedPoc_congr {v w : VideoParameters} (h : SliceParam)
    (hmsb : v.prevPicOrderCntMsb = w.prevPicOrderCntMsb)
    (hlsb : v.prevPicOrderCntLsb = w.prevPicOrderCntLsb)
    (hnum : v.previousFrameNum = w.previousFrameNum)
    (hoffset : v.previousFrameNumOffset = w.previousFrameNumOffset) :
    derivedPoc v h = derivedPoc w h := by
  unfold derivedPoc
  rw [hmsb, hlsb, hnum, hoffset]

/-- The first slice of a picture gives it the POC derived from what the picture before has left. -/
theorem givenPoc_slice (h : SliceParam) (bufs : Bool) (hs : s.frames.Pooled none)
    (ht : h.sps.picOrderCntType ≤ 2) :
    GivenPoc (s.h264SliceHeaderProcess h bufs).2 h.picStructure (derivedPoc s.mVideo h) := by
  have hcur : s.mVideo.decPicture = none := hs.current
  have hbegin : GivenPoc (s.beginSlice h) h.picStructure (derivedPoc s.mVideo h) := by
    unfold beginSlice
    rw [hcur]
    dsimp only [Option.isNone_none]
    rw [if_pos rfl]
    refine givenPoc_startPicture hs ?_
    have hsl := decodePoc_spec (prepared_prepareSlice s.mSlice h)
      (v := if h.nalReferenceIdc ≠ 0 then
          { prepareVideo s.mVideo h s.firstPicDone with preFrameNum := h.frameNum }
        else prepareVideo s.mVideo h s.firstPicDone)
      (by split <;> rfl) (by split <;> rfl) ht s.mSPS.frameMbsOnlyFlag
    rw [derivedPoc_congr (w := s.mVideo) h (by split <;> rfl) (by split <;> rfl)
      (by split <;> rfl) (by split <;> rfl)] at hsl
    exact hsl
  unfold h264SliceHeaderProcess
  dsimp only
  split
  · exact hbegin
  · exact hbegin

/-! ## The reset -/

/-- The current picture is a reference picture with operation 5. -/
structure CarriesMmco5 (s : Dpb) (p : Nat) : Prop where
  current : s.mVideo.decPicture = some p
  notIdr : (s.pics p).idrFlag = false
  reference : (s.pics p).usedForReference = true
  adaptive : (s.pics p).adaptiveRefPicBufferingFlag = true
  operation : ∃ m ∈ s.mSlice.decRefPicMarkingBuffer, m.memoryManagementControlOperation = 5

/-- The POC of the top field of a picture, 0 for a bottom field. -/
def topPocOf (q : StorablePicture) : Int :=
  if q.picStructure = .bottomField then 0 else q.topPoc

theorem resetPicture_unmarked (q : StorablePicture) :
    topPocOf (resetPicture q.unmarked) = topPocOf (resetPicture q) := by
  unfold resetPicture
  cases hq : q.picStructure <;> simp [topPocOf, StorablePicture.unmarked, hq]

theorem pics_flushDpb (s : Dpb) (p : Nat) :
    topPocOf (s.flushDpb.pics p) = topPocOf (s.pics p) := by
  have hmark (t : Dpb) (h : t.unmarked = s.unmarked) : topPocOf (t.pics p) = topPocOf (s.pics p) :=
    show topPocOf (t.unmarked.pics p) = topPocOf (s.unmarked.pics p) by rw [h]
  have hremove (t : Dpb) : topPocOf (t.removeAllUnused.2.pics p) = topPocOf (t.pics p) :=
    show topPocOf (t.removeAllUnused.2.unstored.pics p) = topPocOf (t.unstored.pics p) by
      rw [unstored_removeAllUnused]
  have hshow (t : Dpb) : (t.outputAll true).pics = t.pics :=
    show (t.outputAll true).undisplayed.pics = t.undisplayed.pics by rw [undisplayed_outputAll]
  unfold flushDpb
  split
  · show topPocOf (((s.used.foldl unmarkForReference s).removeAllUnused.2.outputAll true).pics p) = _
    rw [hshow, hremove, hmark _ (foldl_read unmarked unmarked_unmarkForReference s.used s)]
  · rfl

/-- Operations with operation 5 among them reset the picture. -/
theorem topPocOf_adaptive (p : Nat)
    (h : (s.mSlice.decRefPicMarkingBuffer.any fun m => m.memoryManagementControlOperation = 5)) :
    topPocOf ((s.adaptiveMemoryManagement p).pics p) = topPocOf (resetPicture (s.pics p)) := by
  have hloop := unmarked_adaptiveLoop { s with mVideo := { s.mVideo with lastHasMmco5 := false } } p
    s.mSlice.decRefPicMarkingBuffer
  rw [h] at hloop
  unfold adaptiveMemoryManagement
  dsimp only
  generalize List.foldl _ _ s.mSlice.decRefPicMarkingBuffer = t at hloop ⊢
  have hmmco : t.mVideo.lastHasMmco5 = true :=
    show t.unmarked.mVideo.lastHasMmco5 = true by rw [hloop]; rfl
  have hpic : (t.pics p).unmarked = (s.pics p).unmarked :=
    show t.unmarked.pics p = s.unmarked.pics p by rw [hloop]; rfl
  rw [if_pos hmmco, pics_flushDpb, modifyPic_pics, if_pos rfl, ← resetPicture_unmarked, hpic,
    resetPicture_unmarked]

/-- A reference picture with operation 5 is reset in the marking process. -/
theorem topPocOf_storeMarking {p : Nat} (h : s.CarriesMmco5 p) :
    topPocOf ((s.storeMarking p).pics p) = topPocOf (resetPicture (s.pics p)) := by
  obtain ⟨m, hm, h5⟩ := h.operation
  have hadaptive := topPocOf_adaptive (s := s.notePicture p) p
    (List.any_eq_true.mpr ⟨m, hm, decide_eq_true h5⟩)
  have hnote : (s.notePicture p).pics p = s.pics p := rfl
  unfold storeMarking
  dsimp only
  rw [hnote, h.notIdr, h.reference, h.adaptive]
  exact hadaptive

end Dpb

/-! ## The picture after a reset -/

/-- The frame number offset a slice gets from what the picture before has left. -/
def offsetAfter (v : VideoParameters) (h : SliceParam) : Int :=
  frameNumOffsetAfter h.maxFrameNum v.previousFrameNumOffset v.previousFrameNum h.frameNum

/-- What the picture before has left comes to the same as what its reset would leave. -/
def StaleAgrees (v : VideoParameters) (h : SliceParam) (topPocAfterReset : Int) : Prop :=
  h.idrFlag = true ∨
    match h.sps.picOrderCntType with
    | 0 => v.prevPicOrderCntMsb +
          lsbWrap h.maxLsb v.prevPicOrderCntLsb h.picOrderCntLsb * h.maxLsb =
        lsbWrap h.maxLsb topPocAfterReset h.picOrderCntLsb * h.maxLsb
    | 1 => expectedOfOffset h (offsetAfter v h) = expectedOfOffset h 0
    | _ => offsetAfter v h = 0

/-- Two POCs give a picture of the parity the same. -/
def SamePoc (parity : PictureStructure) (a b : Int × Int) : Prop :=
  match parity with
  | .frame => a.1 = b.1 ∧ a.2 = b.2
  | .topField => a.1 = b.1
  | .bottomField => a.2 = b.2

theorem GivenPoc.iff_same {t : Dpb} {parity : PictureStructure} {a b : Int × Int}
    (h : GivenPoc t parity a) : GivenPoc t parity b ↔ SamePoc parity a b := by
  obtain ⟨q, hq, ha⟩ := h
  have hunique : GivenPoc t parity b ↔ HasPoc (t.pics q) parity b :=
    ⟨fun ⟨r, hr, hb⟩ => Option.some.inj (hq.symm.trans hr) ▸ hb, fun hb => ⟨q, hq, hb⟩⟩
  rw [hunique]
  cases parity with
  | frame =>
    obtain ⟨h1, h2, h3⟩ := ha
    simp only [HasPoc, SamePoc, h1, h2, h3]
    exact ⟨fun hb => ⟨hb.1, hb.2.1⟩, fun hb => ⟨hb.1, hb.2, by rw [hb.1, hb.2]⟩⟩
  | topField => simp only [HasPoc, SamePoc, show (t.pics q).poc = a.1 from ha]
  | bottomField => simp only [HasPoc, SamePoc, show (t.pics q).poc = a.2 from ha]

/-- A POC that tells its argument in both fields. -/
theorem samePoc_of_injective {f : Int → Int × Int} {a b : Int}
    (htop : (f a).1 = (f b).1 ↔ a = b) (hbottom : (f a).2 = (f b).2 ↔ a = b)
    (parity : PictureStructure) : SamePoc parity (f a) (f b) ↔ a = b := by
  cases parity with
  | frame => exact (and_congr htop hbottom).trans (and_self_iff)
  | topField => exact htop
  | bottomField => exact hbottom

theorem samePoc_msb (h : SliceParam) (parity : PictureStructure) (a b : Int) :
    SamePoc parity (pocOfMsb h a) (pocOfMsb h b) ↔ a = b := by
  refine samePoc_of_injective (f := pocOfMsb h) ?_ ?_ parity
  · exact Int.add_left_inj _
  · unfold pocOfMsb
    dsimp only
    split <;> omega

theorem samePoc_expected (h : SliceParam) (parity : PictureStructure) (a b : Int) :
    SamePoc parity (pocOfExpected h a) (pocOfExpected h b) ↔ a = b := by
  refine samePoc_of_injective (f := pocOfExpected h) ?_ ?_ parity
  · exact Int.add_left_inj _
  · unfold pocOfExpected
    dsimp only
    split <;> omega

theorem samePoc_offset (h : SliceParam) (parity : PictureStructure) (a b : Int) :
    SamePoc parity (pocOfOffset h a) (pocOfOffset h b) ↔ a = b := by
  have hpoc : (pocOfOffset h a).1 = (pocOfOffset h b).1 ↔ a = b := by
    unfold pocOfOffset
    dsimp only
    split <;> omega
  exact samePoc_of_injective (f := pocOfOffset h) hpoc hpoc parity

theorem SamePoc.refl (parity : PictureStructure) (a : Int × Int) : SamePoc parity a a := by
  cases parity
  · exact ⟨rfl, rfl⟩
  · rfl
  · rfl

/-- The POC derived is the prescribed one iff what the picture before has left agrees. -/
theorem samePoc_iff (v : VideoParameters) (h : SliceParam) (ht : h.sps.picOrderCntType ≤ 2)
    (parity : PictureStructure) (top : Int) :
    SamePoc parity (derivedPoc v h) (prescribedPoc h top) ↔ StaleAgrees v h top := by
  have htypes : h.sps.picOrderCntType = 0 ∨ h.sps.picOrderCntType = 1 ∨
      h.sps.picOrderCntType = 2 := by omega
  cases hidr : h.idrFlag with
  | true =>
    have hsame : derivedPoc v h = prescribedPoc h top := by
      rcases htypes with ht | ht | ht <;>
        simp only [derivedPoc, prescribedPoc, ht, hidr, if_true, Int.zero_add]
    rw [hsame]
    exact iff_of_true (SamePoc.refl _ _) (Or.inl hidr)
  | false =>
    have hagrees : StaleAgrees v h top ↔ match h.sps.picOrderCntType with
        | 0 => v.prevPicOrderCntMsb +
              lsbWrap h.maxLsb v.prevPicOrderCntLsb h.picOrderCntLsb * h.maxLsb =
            lsbWrap h.maxLsb top h.picOrderCntLsb * h.maxLsb
        | 1 => expectedOfOffset h (offsetAfter v h) = expectedOfOffset h 0
        | _ => offsetAfter v h = 0 := or_iff_right (by rw [hidr]; decide)
    rw [hagrees]
    rcases htypes with ht | ht | ht <;>
      simp only [derivedPoc, prescribedPoc, ht, hidr, Bool.false_eq_true, if_false]
    · exact samePoc_msb h parity _ _
    · exact samePoc_expected h parity _ _
    · exact samePoc_offset h parity _ _

namespace Dpb

/-- No picture is begun without a slice. -/
theorem pooled_quiet {s t : Dpb} {ops : List Op} (h : s.frames.Pooled none)
    (hops : ∀ h' bufs, Op.slice h' bufs ∉ ops) (hr : Lib.Run.run step s ops = some t) :
    t.frames.Pooled none := by
  induction ops generalizing s with
  | nil => exact Option.some.inj hr ▸ h
  | cons op ops ih =>
    obtain ⟨s', h1, h2⟩ := Lib.Run.run_cons_some.mp hr
    have hop : ∀ h' bufs, op ≠ .slice h' bufs := fun h' bufs he =>
      hops h' bufs (he ▸ List.mem_cons_self)
    exact ih ((pooled_other hop h h1).elim id id)
      (fun h' bufs hm => hops h' bufs (List.mem_cons_of_mem _ hm)) h2

/-- The picture after a reference picture with operation 5 gets the POC prescribed iff what its
slice finds of the picture before comes to the same as what the reset would have left. -/
theorem poc_after_mmco5_iff (s t u : Dpb) (p : Nat) (dataFlag : UInt8) (answers : List Display)
    (ops : List Op) (h : SliceParam) (bufs : Bool) (hs : Reachable s) (hmmco : s.CarriesMmco5 p)
    (hstore : step s (.store dataFlag answers) = some t)
    (hops : ∀ h' bufs, Op.slice h' bufs ∉ ops) (hrun : Lib.Run.run step t ops = some u)
    (htype : h.sps.picOrderCntType ≤ 2) :
    GivenPoc (u.h264SliceHeaderProcess h bufs).2 h.picStructure
        (prescribedPoc h (topPocOf (({ s with answers := answers }.storeMarking p).pics p))) ↔
      StaleAgrees u.mVideo h (topPocOf (resetPicture (s.pics p))) := by
  obtain ⟨d, hd⟩ := pooled_reachable hs
  have hpool : t.frames.Pooled none :=
    pooled_storeCurrent (s := { s with answers := answers }) dataFlag hd hstore
  have hgiven := givenPoc_slice h bufs (pooled_quiet hpool hops hrun) htype
  have hreset := topPocOf_storeMarking (s := { s with answers := answers }) (p := p)
    ⟨hmmco.current, hmmco.notIdr, hmmco.reference, hmmco.adaptive, hmmco.operation⟩
  rw [hgiven.iff_same, hreset]
  exact samePoc_iff u.mVideo h htype h.picStructure _

/-- A reference frame of POC type 0 with 16 values for the least significant bits. -/
def frameOfLsb (lsb : Int) : SliceParam := { nalReferenceIdc := 1, picOrderCntLsb := lsb }

/-- An IDR frame, a frame, and the slice of a frame of POC 12 with operation 5. -/
def untilMmco5 : List Op :=
  [.slice { frameOfLsb 0 with idrFlag := true } true, .store 0 [],
    .slice (frameOfLsb 6) true, .store 0 [], .slice { frameOfLsb 12 with mmcoCmd := [5, 0] } true]

/-- The state of such a run and the one after its picture is stored. -/
theorem stored_untilMmco5 : ∃ s t, Lib.Run.run step (initial 3 {} {} .idle) untilMmco5 = some s ∧
    Reachable s ∧ s.CarriesMmco5 7 ∧ step s (.store 0 []) = some t := by
  obtain ⟨s, hs⟩ := Option.isSome_iff_exists.mp
    (by decide +kernel : (Lib.Run.run step (initial 3 {} {} .idle) untilMmco5).isSome = true)
  have hstore := Lib.Run.read_of_run (fun s => (step s (.store 0 [])).isSome) (a := true)
    (by decide +kernel) hs
  obtain ⟨t, ht⟩ := Option.isSome_iff_exists.mp hstore
  refine ⟨s, t, hs, ⟨3, {}, {}, .idle, by decide, _, hs⟩, ⟨?_, ?_, ?_, ?_, ?_⟩, ht⟩
  · exact Lib.Run.read_of_run (fun s => s.mVideo.decPicture) (a := some 7) (by decide +kernel) hs
  · exact Lib.Run.read_of_run (fun s => (s.pics 7).idrFlag) (a := false) (by decide +kernel) hs
  · exact Lib.Run.read_of_run (fun s => (s.pics 7).usedForReference) (a := true)
      (by decide +kernel) hs
  · exact Lib.Run.read_of_run (fun s => (s.pics 7).adaptiveRefPicBufferingFlag) (a := true)
      (by decide +kernel) hs
  · have hops := Lib.Run.read_of_run (fun s => s.mSlice.decRefPicMarkingBuffer)
      (a := [⟨5, 0, 0, 0, 0⟩, ⟨0, 0, 0, 0, 0⟩]) (by decide +kernel) hs
    exact ⟨⟨5, 0, 0, 0, 0⟩, hops ▸ List.mem_cons_self, rfl⟩

/-- The next frame has the least significant bits 6: its POC is 6, as prescribed. -/
theorem poc_after_mmco5_agrees : ∃ s t,
    Lib.Run.run step (initial 3 {} {} .idle) untilMmco5 = some s ∧ s.CarriesMmco5 7 ∧
    step s (.store 0 []) = some t ∧
    GivenPoc (t.h264SliceHeaderProcess (frameOfLsb 6) true).2 .frame
      (prescribedPoc (frameOfLsb 6)
        (topPocOf (({ s with answers := [] }.storeMarking 7).pics 7))) := by
  obtain ⟨s, t, hs, hreach, hmmco, ht⟩ := stored_untilMmco5
  have hprev := Lib.Run.read_of_run (fun s => (step s (.store 0 [])).map fun t =>
      (t.mVideo.prevPicOrderCntMsb, t.mVideo.prevPicOrderCntLsb)) (a := some (0, 12))
    (by decide +kernel) hs
  have htop := Lib.Run.read_of_run (fun s => topPocOf (resetPicture (s.pics 7))) (a := 0)
    (by decide +kernel) hs
  rw [ht, Option.map_some, Option.some.injEq, Prod.mk.injEq] at hprev
  refine ⟨s, t, hs, hmmco, ht,
    (poc_after_mmco5_iff s t t 7 0 [] [] (frameOfLsb 6) true hreach hmmco ht (fun _ _ => nofun) rfl
      (by decide)).mpr (Or.inr ?_)⟩
  show t.mVideo.prevPicOrderCntMsb + lsbWrap 16 t.mVideo.prevPicOrderCntLsb 6 * 16 =
    lsbWrap 16 (topPocOf (resetPicture (s.pics 7))) 6 * 16
  rw [hprev.1, hprev.2, htop]
  decide

/-- The next frame has the least significant bits 2: it gets the POC 18 in place of 2. -/
theorem poc_after_mmco5_wraps : ∃ s t q,
    Lib.Run.run step (initial 3 {} {} .idle) untilMmco5 = some s ∧ s.CarriesMmco5 7 ∧
    step s (.store 0 []) = some t ∧
    (t.h264SliceHeaderProcess (frameOfLsb 2) true).2.mVideo.decPicture = some q ∧
    ((t.h264SliceHeaderProcess (frameOfLsb 2) true).2.pics q).poc = 18 ∧
    prescribedPoc (frameOfLsb 2)
      (topPocOf (({ s with answers := [] }.storeMarking 7).pics 7)) = (2, 2) ∧
    ¬ GivenPoc (t.h264SliceHeaderProcess (frameOfLsb 2) true).2 .frame
      (prescribedPoc (frameOfLsb 2)
        (topPocOf (({ s with answers := [] }.storeMarking 7).pics 7))) := by
  obtain ⟨s, t, hs, -, hmmco, ht⟩ := stored_untilMmco5
  have hnext := Lib.Run.read_of_run (fun s => (step s (.store 0 [])).map fun t =>
      ((t.h264SliceHeaderProcess (frameOfLsb 2) true).2.mVideo.decPicture,
        ((t.h264SliceHeaderProcess (frameOfLsb 2) true).2.pics 10).poc)) (a := some (some 10, 18))
    (by decide +kernel) hs
  have hprescribed := Lib.Run.read_of_run (fun s => prescribedPoc (frameOfLsb 2)
      (topPocOf (({ s with answers := [] }.storeMarking 7).pics 7))) (a := (2, 2))
    (by decide +kernel) hs
  rw [ht, Option.map_some, Option.some.injEq, Prod.mk.injEq] at hnext
  refine ⟨s, t, 10, hs, hmmco, ht, hnext.1, hnext.2, hprescribed, fun ⟨q, hq, hpoc⟩ => ?_⟩
  rw [hprescribed] at hpoc
  have h10 : q = 10 := Option.some.inj (hq.symm.trans hnext.1)
  rw [h10] at hpoc
  have h18 := hnext.2.symm.trans hpoc.2.2
  exact absurd h18 (by decide)

end Dpb

end MediaModules.H264Dpb
