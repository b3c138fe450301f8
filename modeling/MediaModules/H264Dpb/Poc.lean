import MediaModules.H264Dpb.Types

/-!
# The picture order count

`decode_poc` for the three types of picture order count.
-/
namespace MediaModules.H264Dpb

/-- The most significant bits of a POC of type 0 from those of the reference picture before. -/
def pocMsb (maxLsb prevMsb prevLsb lsb : Int) : Int :=
  if lsb < prevLsb ∧ prevLsb - lsb ≥ maxLsb / 2 then prevMsb + maxLsb
  else if lsb > prevLsb ∧ lsb - prevLsb > maxLsb / 2 then prevMsb - maxLsb
  else prevMsb

/-- The frame number offset of types 1 and 2 from that of the picture before. -/
def frameNumOffsetAfter (maxFrameNum prevOffset prevFrameNum frameNum : Int) : Int :=
  if frameNum < prevFrameNum then prevOffset + maxFrameNum else prevOffset

/-- Sum of the first `n` offsets, of which the array keeps 128. -/
def offsetSum (offsets : Nat → Int) (n : Nat) : Int :=
  ((List.range (min n 128)).map offsets).sum

/-- `case 0` of `decode_poc`, its head: the POC of the reference picture before. -/
def choosePrevPoc (v : VideoParameters) (sl : Slice) : VideoParameters :=
  if sl.idrFlag then { v with prevPicOrderCntMsb := 0, prevPicOrderCntLsb := 0 }
  else if v.lastHasMmco5 then
    if v.lastPicBottomField then { v with prevPicOrderCntMsb := 0, prevPicOrderCntLsb := 0 }
    else { v with prevPicOrderCntMsb := 0, prevPicOrderCntLsb := sl.toppoc }
  else v

/-- Its middle: the POC of the slice from the most significant bits. -/
def placePoc (msb : Int) (sl : Slice) : Slice :=
  let poc := msb + sl.picOrderCntLsb
  let sl := { sl with picOrderCntMsb := msb }
  let sl :=
    if !sl.fieldPicFlag then
      { sl with
        toppoc := poc
        bottompoc := poc + sl.deltaPicOrderCntBottom
        thisPOC := min poc (poc + sl.deltaPicOrderCntBottom) }
    else if !sl.bottomFieldFlag then { sl with toppoc := poc, thisPOC := poc }
    else { sl with bottompoc := poc, thisPOC := poc }
  { sl with framepoc := sl.thisPOC }

/-- Its end: what is kept for the picture after. -/
def rememberPoc (v : VideoParameters) (sl : Slice) : VideoParameters :=
  let v := { v with previousFrameNum := sl.frameNum }
  if sl.nalReferenceIdc ≠ 0 then
    { v with prevPicOrderCntLsb := sl.picOrderCntLsb, prevPicOrderCntMsb := sl.picOrderCntMsb }
  else v

/-- `case 0` of `decode_poc`. -/
def decodePoc0 (sps : SPSParameters) (v : VideoParameters) (sl : Slice) :
    VideoParameters × Slice :=
  let v := choosePrevPoc v sl
  let sl := placePoc (pocMsb (2 ^ (sps.log2MaxPicOrderCntLsbMinus4 + 4)) v.prevPicOrderCntMsb
    v.prevPicOrderCntLsb sl.picOrderCntLsb) sl
  (rememberPoc v sl, sl)

/-- The first step of types 1 and 2: the frame number offset. -/
def decodeFrameNumOffset (v : VideoParameters) (sl : Slice) : VideoParameters :=
  if sl.idrFlag then { v with frameNumOffset := 0 }
  else
    let v := if v.lastHasMmco5 then { v with previousFrameNumOffset := 0, previousFrameNum := 0 }
      else v
    { v with
      frameNumOffset := frameNumOffsetAfter v.maxFrameNum v.previousFrameNumOffset
        v.previousFrameNum sl.frameNum }

/-- The last step of types 1 and 2. -/
def rememberFrameNum (v : VideoParameters) (sl : Slice) : VideoParameters :=
  { v with previousFrameNum := sl.frameNum, previousFrameNumOffset := v.frameNumOffset }

/-- The `AbsFrameNum` of type 1. -/
def absFrameNum1 (sps : SPSParameters) (frameNumOffset frameNum : Int) (nalReferenceIdc : Nat) :
    Int :=
  let abs := if sps.numRefFramesInPicOrderCntCycle ≠ 0 then frameNumOffset + frameNum else 0
  if nalReferenceIdc = 0 ∧ abs > 0 then abs - 1 else abs

/-- The `ExpectedPicOrderCnt` of type 1. -/
def expectedPicOrderCnt (sps : SPSParameters) (abs : Int) (nalReferenceIdc : Nat) : Int :=
  let cycle := sps.numRefFramesInPicOrderCntCycle
  let expected :=
    if abs ≠ 0 then
      (abs - 1) / cycle * offsetSum sps.offsetForRefFrame cycle +
        offsetSum sps.offsetForRefFrame (((abs - 1) % cycle).toNat + 1)
    else 0
  if nalReferenceIdc = 0 then expected + sps.offsetForNonRefPic else expected

/-- The POC of a slice of type 1 from the expected one. -/
def placeExpected (sps : SPSParameters) (expected : Int) (sl : Slice) : Slice :=
  let top := expected + sl.deltaPicOrderCnt0
  let sl :=
    if !sl.fieldPicFlag then
      let bottom := top + sps.offsetForTopToBottomField + sl.deltaPicOrderCnt1
      { sl with toppoc := top, bottompoc := bottom, thisPOC := min top bottom }
    else if !sl.bottomFieldFlag then { sl with toppoc := top, thisPOC := top }
    else
      let bottom := expected + sps.offsetForTopToBottomField + sl.deltaPicOrderCnt0
      { sl with bottompoc := bottom, thisPOC := bottom }
  { sl with framepoc := sl.thisPOC }

/-- `case 1` of `decode_poc`. -/
def decodePoc1 (sps : SPSParameters) (v : VideoParameters) (sl : Slice) :
    VideoParameters × Slice :=
  let v := decodeFrameNumOffset v sl
  let abs := absFrameNum1 sps v.frameNumOffset sl.frameNum sl.nalReferenceIdc
  let expected := expectedPicOrderCnt sps abs sl.nalReferenceIdc
  let v := { v with
    expectedDeltaPerPicOrderCntCycle :=
      offsetSum sps.offsetForRefFrame sps.numRefFramesInPicOrderCntCycle
    expectedPicOrderCnt := expected }
  let sl := placeExpected sps expected { sl with absFrameNum := abs }
  (rememberFrameNum v sl, sl)

/-- The POC of a slice of type 2 that is no IDR slice. -/
def placeFrameNum (frameNumOffset : Int) (sl : Slice) : Slice :=
  let abs := frameNumOffset + sl.frameNum
  let poc := if sl.nalReferenceIdc = 0 then 2 * abs - 1 else 2 * abs
  let sl := { sl with absFrameNum := abs, thisPOC := poc, framepoc := poc }
  if !sl.fieldPicFlag then { sl with toppoc := poc, bottompoc := poc }
  else if !sl.bottomFieldFlag then { sl with toppoc := poc }
  else { sl with bottompoc := poc }

/-- `case 2` of `decode_poc`. -/
def decodePoc2 (v : VideoParameters) (sl : Slice) : VideoParameters × Slice :=
  let v := decodeFrameNumOffset v sl
  let sl :=
    if sl.idrFlag then { sl with thisPOC := 0, framepoc := 0, toppoc := 0, bottompoc := 0 }
    else placeFrameNum v.frameNumOffset sl
  (rememberFrameNum v sl, sl)

/-- `decode_poc`. -/
def decodePoc (sps : SPSParameters) (v : VideoParameters) (sl : Slice) : VideoParameters × Slice :=
  match sps.picOrderCntType with
  | 0 => decodePoc0 sps v sl
  | 1 => decodePoc1 sps v sl
  | 2 => decodePoc2 v sl
  | _ => (v, sl)

/-- The video parameters the picture order count does not concern. -/
def videoKey (v : VideoParameters) : Int × Option Nat × Option Nat :=
  (v.maxFrameNum, v.decPicture, v.noReferencePicture)

theorem decodePoc_videoKey (sps : SPSParameters) (v : VideoParameters) (sl : Slice) :
    videoKey (decodePoc sps v sl).1 = videoKey v := by
  have hprev : videoKey (choosePrevPoc v sl) = videoKey v := by
    unfold choosePrevPoc
    split
    · rfl
    · split
      · split <;> rfl
      · rfl
  have hremember (v : VideoParameters) (sl : Slice) : videoKey (rememberPoc v sl) = videoKey v := by
    unfold rememberPoc
    dsimp only
    split <;> rfl
  have hoffset : videoKey (decodeFrameNumOffset v sl) = videoKey v := by
    unfold decodeFrameNumOffset
    split
    · rfl
    · split <;> rfl
  unfold decodePoc
  split
  · exact (hremember _ _).trans hprev
  · exact hoffset
  · exact hoffset
  · rfl

end MediaModules.H264Dpb
