import MediaModules.Avs2.RefInfo

/-!
# Picture headers

The header of an AVS2 picture is a block of 16-bit words that the firmware has read from the stream. The
header functions copy them to the state of the decoder; the numbers of references, the index of a
reference set and the distances between the regions of the loop filter are used as indices.
-/
namespace MediaModules.Avs2

open Lib.Checked

def MAXGOP : Nat := 32
def NO_VAR_BINS : Nat := 16
def ALF_MAX_NUM_COEF : Nat := 9
def BACKGROUND_IMG : Nat := 3
def BP_IMG : Nat := 5

/-- The words of `union param_u` that the header functions of a picture read. `refPicCur` and
`removePicCur` have 8 entries, `regionDistance` has 16, and the coefficients have 9. -/
structure Param where
  timeCodeFlag : BitVec 16 := 0
  timeCode : BitVec 16 := 0
  backgroundPictureFlag : BitVec 16 := 0
  backgroundPictureOutputFlag : BitVec 16 := 0
  codingOrder : BitVec 16 := 0
  curLayer : BitVec 16 := 0
  displaydelay : BitVec 16 := 0
  predict : BitVec 16 := 0
  RPSIdx : BitVec 16 := 0
  referredByOthersCur : BitVec 16 := 0
  numOfRefCur : BitVec 16 := 0
  refPicCur : Nat → BitVec 16 := fun _ => 0
  numToRemoveCur : BitVec 16 := 0
  removePicCur : Nat → BitVec 16 := fun _ => 0
  progressiveFrame : BitVec 16 := 0
  pictureStructure : BitVec 16 := 0
  topFieldFirst : BitVec 16 := 0
  repeatFirstField : BitVec 16 := 0
  isTopField : BitVec 16 := 0
  pictureCodingType : BitVec 16 := 0
  backgroundPredFlag : BitVec 16 := 0
  backgroundReferenceEnable : BitVec 16 := 0
  randomAccessDecodableFlag : BitVec 16 := 0
  pictureAlfEnableY : BitVec 16 := 0
  pictureAlfEnableCb : BitVec 16 := 0
  pictureAlfEnableCr : BitVec 16 := 0
  alfFiltersNumM1 : BitVec 16 := 0
  regionDistance : Nat → BitVec 16 := fun _ => 0
  alfCbCoeffmulti : Nat → BitVec 16 := fun _ => 0
  alfCrCoeffmulti : Nat → BitVec 16 := fun _ => 0
  alfYCoeffmulti : Nat → Nat → BitVec 16 := fun _ _ => 0

/-- `struct ALFParam_s`. Both arrays have `NO_VAR_BINS` rows. -/
structure ALFParam where
  alfFlag : Int := 0
  filtersPerGroup : Int := 0
  filterPattern : Nat → Int := fun _ => 0
  coeffmulti : Nat → Nat → Int := fun _ _ => 0

inductive ALFComponentID
  | ALF_Y | ALF_Cb | ALF_Cr
deriving DecidableEq, Repr

/-- What the header functions read and write. The fields of the sequence are those before the blank
line. `decodRPS` has `MAXGOP` entries. -/
structure Headers where
  backgroundPictureEnable : Nat := 0
  temporalIdExistFlag : Int := 0
  lowDelay : Int := 0
  isFieldSequence : Int := 0
  pictureReorderDelay : Int := 0
  pictureQp : Int := 0
  alfEnable : Nat := 0
  decodRPS : Nat → ReferenceManagement := fun _ => {}

  dec : Decoder := {}
  typeb : Nat := 0
  timeCodeFlag : Int := 0
  timeCode : Int := 0
  backgroundPictureFlag : Int := 0
  backgroundPictureOutputFlag : Int := 0
  displaydelay : Int := 0
  progressiveFrame : Int := 0
  pictureStructure : Int := 0
  topFieldFirst : Int := 0
  repeatFirstField : Int := 0
  isTopField : Int := 0
  qp : Int := 0
  pictureCodingType : Int := 0
  backgroundPredFlag : Int := 0
  backgroundReferenceEnable : Int := 0
  randomAccessDecodableFlag : Int := 0
  alfPictureParam : ALFComponentID → ALFParam := fun _ => {}
  picAlfOn : ALFComponentID → Int := fun _ => 0
  newSequenceFlag : Bool := false

/-- `get_param`: a word is signed. -/
def getParam (value : BitVec 16) : Int := value.toInt

/-! ## Reference sets -/

/-- The deltas are copied to an array of `MAXREF` entries. -/
def readDeltas (words : Nat → BitVec 16) (n : Int) (deltas : Nat → Int) : Except Halt (Nat → Int) :=
  loopBelow MAXREF .outOfRange (fun deltas j => Function.update deltas j (getParam (words j)))
    n.toNat deltas

def clampMaxref (n : Int) : Int := if n > MAXREF then MAXREF else n

/-- The reference set of a picture; `numOfRef` has been read. -/
def readRPS (p : Param) (numOfRef : Int) (rps : ReferenceManagement) :
    Except Halt ReferenceManagement := do
  let refPic ← readDeltas p.refPicCur numOfRef rps.refPic
  let numToRemove := clampMaxref (getParam p.numToRemoveCur)
  let removePic ← readDeltas p.removePicCur numToRemove rps.removePic
  .ok { numOfRef, referredByOthers := getParam p.referredByOthersCur, refPic, numToRemove, removePic }

/-- The reference set that a P or B picture predicts its own from. Its index is bounded from above. -/
def predictedRPS (p : Param) (decodRPS : Nat → ReferenceManagement) (currRPS : ReferenceManagement) :
    Except Halt ReferenceManagement :=
  if getParam p.predict = 0 then .ok currRPS
  else
    let RPSIdx := if getParam p.RPSIdx ≥ MAXGOP then (MAXGOP : Int) - 1 else getParam p.RPSIdx
    if 0 ≤ RPSIdx ∧ RPSIdx < MAXGOP then .ok (decodRPS RPSIdx.toNat) else .error .outOfRange

/-- The driver limits the number of references before the header is read. -/
def Param.checked (p : Param) (refMaxbuffer : Nat) : Param :=
  if p.numOfRefCur.toNat > refMaxbuffer then { p with numOfRefCur := BitVec.ofNat 16 refMaxbuffer }
  else p

namespace Headers

/-- How the picture is structured, which both header functions read alike. -/
def readStructure (p : Param) (h : Headers) : Headers :=
  { h with
    progressiveFrame := getParam p.progressiveFrame
    pictureStructure := if getParam p.progressiveFrame = 0 then getParam p.pictureStructure else 1
    topFieldFirst := getParam p.topFieldFirst
    repeatFirstField := getParam p.repeatFirstField
    isTopField := if h.isFieldSequence ≠ 0 then getParam p.isTopField else h.isTopField }

/-- `Get_I_Picture_Header`. -/
def getIPictureHeader (p : Param) (h : Headers) : Except Halt Headers := do
  let background := h.backgroundPictureEnable ≠ 0 ∧ getParam p.backgroundPictureFlag ≠ 0
  let outputFlag := if background then getParam p.backgroundPictureOutputFlag else 0
  let h := { h with
    timeCodeFlag := getParam p.timeCodeFlag
    timeCode := if getParam p.timeCodeFlag ≠ 0 then getParam p.timeCode else h.timeCode
    backgroundPictureFlag := if background then getParam p.backgroundPictureFlag else 0
    typeb := if background then BACKGROUND_IMG else 0
    backgroundPictureOutputFlag := outputFlag
    dec.codingOrder := getParam p.codingOrder
    dec.curLayer := if h.temporalIdExistFlag = 1 then getParam p.curLayer else h.dec.curLayer
    displaydelay := if h.lowDelay = 0 ∧ ¬ (background ∧ outputFlag = 0) then getParam p.displaydelay
      else h.displaydelay }
  let rps ← readRPS p (getParam p.numOfRefCur) h.dec.currRPS
  let h := readStructure p { h with dec.currRPS := rps }
  .ok { h with qp := h.pictureQp, dec.imgType := .I_IMG }

/-- `Get_PB_Picture_Header`. -/
def getPBPictureHeader (p : Param) (h : Headers) : Except Halt Headers := do
  let codingType := getParam p.pictureCodingType
  let background := h.backgroundPictureEnable ≠ 0 ∧ (codingType = 1 ∨ codingType = 3)
  let predFlag := if background ∧ codingType = 1 then getParam p.backgroundPredFlag else 0
  let h := { h with
    pictureCodingType := codingType
    backgroundPredFlag := predFlag
    backgroundReferenceEnable :=
      if background then if predFlag = 0 then getParam p.backgroundReferenceEnable else 1 else 0
    dec.imgType := if codingType = 1 then .P_IMG else if codingType = 3 then .F_IMG else .B_IMG
    typeb := if codingType = 1 ∧ predFlag ≠ 0 then BP_IMG else 0
    dec.codingOrder := getParam p.codingOrder
    dec.curLayer := if h.temporalIdExistFlag = 1 then getParam p.curLayer else h.dec.curLayer
    displaydelay := if h.lowDelay = 0 then getParam p.displaydelay else h.displaydelay }
  let predicted ← predictedRPS p h.decodRPS h.dec.currRPS
  let rps ← readRPS p (clampMaxref (getParam p.numOfRefCur)) predicted
  let h := readStructure p { h with dec.currRPS := rps }
  .ok { h with randomAccessDecodableFlag := getParam p.randomAccessDecodableFlag, qp := h.pictureQp }

/-- `calc_picture_distance`. -/
def calcPictureDistance (h : Headers) : Headers :=
  let d := h.dec
  let d := if d.codingOrder < d.prevPicDistanceLsb then
      { (List.range d.refMaxbuffer).foldl (fun d i => d.setFrame (d.fref.getD i default) fun f =>
          { f with
            imgtrFwRefDistance :=
              if f.imgtrFwRefDistance ≥ 0 then f.imgtrFwRefDistance - 256 else f.imgtrFwRefDistance
            imgcoiRef := if f.imgtrFwRefDistance ≥ 0 then f.imgcoiRef - 256 else f.imgcoiRef
            refPoc := fun j => f.refPoc j - 256 }) d with
        currIDRtr := d.currIDRtr - 256
        currIDRcoi := d.currIDRcoi - 256
        nextIDRtr := d.nextIDRtr - 256
        nextIDRcoi := d.nextIDRcoi - 256 }
    else d
  { h with dec := { d with
    tr := if h.lowDelay = 0 then d.codingOrder + h.displaydelay - h.pictureReorderDelay
      else d.codingOrder } }

end Headers

/-! ## The loop filter -/

/-- An assertion that is waited for. -/
def assert (cond : Prop) [Decidable cond] : Except Halt Unit := if cond then .ok () else .error .stuck

/-- A coefficient is what the bitstream may hold. -/
def CoeffOk (pos : Nat) (coeff : Int) : Prop :=
  (pos ≤ 7 → -64 ≤ coeff ∧ coeff ≤ 63) ∧ (pos = 8 → -1088 ≤ coeff ∧ coeff ≤ 1071)

instance (pos : Nat) (coeff : Int) : Decidable (CoeffOk pos coeff) := inferInstanceAs (Decidable (_ ∧ _))

def ALFParam.setCoeff (alf : ALFParam) (row pos : Nat) (coeff : Int) : ALFParam :=
  { alf with
    coeffmulti := Function.update alf.coeffmulti row (Function.update (alf.coeffmulti row) pos coeff) }

/-- A coefficient of a row is read, and checked. -/
def readCoeff (row : Nat) (words : Nat → BitVec 16) (alf : ALFParam) (pos : Nat) :
    Except Halt ALFParam :=
  if row < NO_VAR_BINS then do
    assert (CoeffOk pos (getParam (words pos)))
    .ok (alf.setCoeff row pos (getParam (words pos)))
  else .error .outOfRange

def readCoeffs (row : Nat) (words : Nat → BitVec 16) (alf : ALFParam) : Except Halt ALFParam :=
  rounds (readCoeff row words) ALF_MAX_NUM_COEF alf

/-- The distance of a filter's region from the one before. -/
def symbol (regionDistance : Nat → BitVec 16) (filters : Int) (f : Nat) : Int :=
  if filters ≠ 16 then getParam (regionDistance (f - 1)) else 1

/-- The region of a filter but the first is marked, with `pre_symbole`. -/
def markRegion (p : Param) (filters : Int) (s : ALFParam × Int) (f : Nat) :
    Except Halt (ALFParam × Int) :=
  if f = 0 then .ok s
  else
    let pattern := symbol p.regionDistance filters f + s.2
    if 0 ≤ pattern ∧ pattern < NO_VAR_BINS then
      .ok ({ s.1 with filterPattern := Function.update s.1.filterPattern pattern.toNat 1 }, pattern)
    else .error .outOfRange

/-- One round of the loop over the filters. -/
def readFilter (p : Param) (filters : Int) (s : ALFParam × Int) (f : Nat) :
    Except Halt (ALFParam × Int) := do
  let s ← markRegion p filters s f
  let alf ← readCoeffs f (p.alfYCoeffmulti f) s.1
  .ok (alf, s.2)

/-- `readAlfCoeff`. -/
def readAlfCoeff (p : Param) (componentID : ALFComponentID) (alf : ALFParam) : Except Halt ALFParam :=
  match componentID with
  | .ALF_Cb => readCoeffs 0 p.alfCbCoeffmulti alf
  | .ALF_Cr => readCoeffs 0 p.alfCrCoeffmulti alf
  | .ALF_Y => do
    assert (0 ≤ getParam p.alfFiltersNumM1 ∧ getParam p.alfFiltersNumM1 ≤ 15)
    let filters := getParam p.alfFiltersNumM1 + 1
    let s ← rounds (readFilter p filters) filters.toNat
      ({ alf with filtersPerGroup := filters, filterPattern := fun _ => 0 }, 0)
    assert (0 ≤ s.2 ∧ s.2 ≤ 15)
    .ok s.1

namespace Headers

/-- One round of the loop over the components. -/
def readComponent (p : Param) (componentID : ALFComponentID) (h : Headers) : Except Halt Headers := do
  if h.picAlfOn componentID = 0 then .ok h
  else
    let alf ← readAlfCoeff p componentID (h.alfPictureParam componentID)
    .ok { h with alfPictureParam := Function.update h.alfPictureParam componentID alf }

/-- The components that the filter is on for. -/
def switchAlf (p : Param) (h : Headers) : Headers :=
  let picAlfOn : ALFComponentID → Int
    | .ALF_Y => getParam p.pictureAlfEnableY
    | .ALF_Cb => getParam p.pictureAlfEnableCb
    | .ALF_Cr => getParam p.pictureAlfEnableCr
  { h with picAlfOn, alfPictureParam := fun c => { h.alfPictureParam c with alfFlag := picAlfOn c } }

/-- `Read_ALF_param`. -/
def readAlfParam (p : Param) (h : Headers) : Except Halt Headers := do
  if h.alfEnable = 0 then .ok h
  else
    let h ← readComponent p .ALF_Y (switchAlf p h)
    let h ← readComponent p .ALF_Cb h
    readComponent p .ALF_Cr h

/-! ## A picture -/

inductive PictureStartCode
  | I_PICTURE_START_CODE | PB_PICTURE_START_CODE
deriving DecidableEq, Repr

def getPictureHeader (code : PictureStartCode) (p : Param) (h : Headers) : Except Halt Headers :=
  match code with
  | .I_PICTURE_START_CODE => getIPictureHeader p h
  | .PB_PICTURE_START_CODE => getPBPictureHeader p h

/-- What `avs2_prepare_header` does for a picture. -/
def prepareHeader (code : PictureStartCode) (p : Param) (h : Headers) : Except Halt Headers := do
  let h ← getPictureHeader code p h
  readAlfParam p h.calcPictureDistance

/-- A background picture has no reference, and a picture that refers to it has one. -/
def backgroundReferences (h : Headers) : Headers :=
  if h.dec.imgType = .I_IMG ∧ h.typeb = BACKGROUND_IMG then { h with dec.numOfReferences := 0 }
  else if h.dec.imgType = .P_IMG ∧ h.typeb = BP_IMG then { h with dec.numOfReferences := 1 }
  else h

/-- `init_frame`. A background picture that is not output needs no frame. -/
def initFrame (h : Headers) : Except Halt (Headers × Int) :=
  let h := h.backgroundReferences
  if h.typeb = BACKGROUND_IMG ∧ h.backgroundPictureOutputFlag = 0 then .ok (h, 0)
  else h.dec.prepareRefInfo.map fun r => ({ h with dec := r.1 }, if r.2 < 0 then -1 else 0)

/-- The first picture of a sequence is the next IDR picture. -/
def startSequence (h : Headers) : Headers :=
  if h.newSequenceFlag = true then
    { h with dec.nextIDRtr := h.dec.tr, dec.nextIDRcoi := h.dec.codingOrder, newSequenceFlag := false }
  else h

/-- What `avs2_process_header` does before it decodes, less the sizes of the picture. -/
def processHeader (h : Headers) : Except Halt (Headers × Int) := h.startSequence.initFrame

/-- A picture's header is read and its references are prepared. -/
def readPicture (code : PictureStartCode) (p : Param) (h : Headers) : Except Halt (Headers × Int) := do
  let h ← prepareHeader code (p.checked h.dec.refMaxbuffer) h
  h.processHeader

end Headers

end MediaModules.Avs2
