import MediaModules.Lib.Checked
import MediaModules.Lib.Seats
import MediaModules.Lib.Select

/-!
# The references of a picture

Before an AVS2 picture is decoded, `prepare_RefInfo` brings its references to the front of the frame
array, in the order of its reference set, and looks for a frame to decode it to. A reference that is
missing may be substituted by the frame nearest to it.
-/
namespace MediaModules.Avs2

open Lib.Checked Lib.Rearrange Lib.Seats Lib.Select

def MAXREF : Nat := 7
def REF_MAXBUFFER : Nat := 23

inductive ImgType
  | I_IMG | P_IMG | B_IMG | F_IMG
deriving DecidableEq, Repr

/-- `struct avs2_frame_s`, less what describes its memory. `refPoc` has `MAXREF` entries. -/
structure Frame where
  imgcoiRef : Int := -257
  imgtrFwRefDistance : Int := -256
  referredByOthers : Int := -1
  isOutput : Int := -1
  toPrepareDisp : Int := 0
  temporalId : Int := 0
  refPoc : Nat → Int := fun _ => 0
  bgFlag : Nat := 0
  vfRef : Int := 0
  poc : Int := 0
  decodeIdx : Nat := 0
  sliceType : ImgType := .I_IMG
  errorMark : Bool := false
  errorDropFlag : Bool := false
  decodedLcu : Int := 0
  used4kNum : Int := 0
  needMmuCopy : Int := 0

/-- `struct reference_management`. Both lists have `MAXREF` entries. -/
structure ReferenceManagement where
  numOfRef : Int := 0
  referredByOthers : Int := 0
  refPic : Nat → Int := fun _ => 0
  numToRemove : Int := 0
  removePic : Nat → Int := fun _ => 0

/-- What `prepare_RefInfo` works on: the frames, the array of references to them, and of the picture, the
sequence and the policies what it reads and writes. A frame is named by its place in the pool. -/
structure Decoder where
  frmPool : Nat → Frame := fun _ => {}
  fref : List Nat := List.range REF_MAXBUFFER
  errorFref : Nat → Option Nat := fun _ => none
  fRec : Option Nat := none
  refMaxbuffer : Nat := 16
  refMaxbuffer_le : refMaxbuffer ≤ REF_MAXBUFFER := by decide
  errorProcPolicy : Nat := 3
  errorHandleMode : Nat := 1
  lcuPercentageThreshold : Nat := 0
  bufmgrErrorFlag : Bool := false
  decodeIdx : Nat := 0
  imgType : ImgType := .I_IMG
  tr : Int := 0
  codingOrder : Int := 0
  numOfReferences : Int := 0
  prevPicDistanceLsb : Int := 0
  imgtrNextP : Int := 0
  currIDRtr : Int := 0
  currIDRcoi : Int := 0
  nextIDRtr : Int := 0
  nextIDRcoi : Int := 0
  curLayer : Int := 0
  trtmp : Int := 0
  currRPS : ReferenceManagement := {}

/-- How a call ends that does not return: an index is out of range, or an assertion is waited for. -/
inductive Halt
  | outOfRange | stuck
deriving DecidableEq, Repr

namespace Decoder

variable (d : Decoder)

/-- `fref[i]`. -/
def frame (i : Nat) : Frame := d.frmPool (item d.fref i)

/-- The coding order of a frame of the pool. -/
def coi (f : Nat) : Int := (d.frmPool f).imgcoiRef

/-- The coding order of a reference. -/
def target (i : Nat) : Int := d.codingOrder - d.currRPS.refPic i

def setFrame (f : Nat) (change : Frame → Frame) : Decoder :=
  { d with frmPool := Function.update d.frmPool f (change (d.frmPool f)) }

/-- The picture the code refers to as reference `i`. -/
def refFrame (i : Nat) : Nat := (d.errorFref i).getD (item d.fref i)

/-- The error policy shows erroneous frames. -/
def ShowsErrors : Prop := d.errorProcPolicy &&& 2 = 0

instance : Decidable d.ShowsErrors := inferInstanceAs (Decidable (_ = _))

/-! ## References -/

/-- How far a slot's coding order is from a missing one. -/
def slotDist (fref : List Nat) (t : Int) (slot : Option Nat) : Option Nat :=
  slot.bind fun j => if d.coi (item fref j) ≠ t then some (d.coi (item fref j) - t).natAbs else none

/-- The slot nearest to a missing coding order. -/
def recentIndex (fref : List Nat) (t : Int) : Option Nat :=
  (((List.range d.refMaxbuffer).map some).foldl (closer (d.slotDist fref t)) (0xffffffff, none)).2

@[ext]
structure RefLoop where
  fref : List Nat
  errorFref : Nat → Option Nat
  errorMark : Bool

/-- One round of the loop over the references. -/
def placeRef (l : RefLoop) (i : Nat) : RefLoop :=
  match lookFor d.coi d.refMaxbuffer l.fref (d.target i) with
  | some j => { l with fref := swap l.fref i j }
  | none =>
    if d.ShowsErrors then
      if d.errorHandleMode = 1 then
        match d.recentIndex l.fref (d.target i) with
        | some j => { l with errorFref := Function.update l.errorFref i (some (item l.fref j)) }
        | none => l
      else l
    else { l with errorMark := true }

/-- The loop. It reads `ref_pic[i]`, the shortest of its arrays. -/
def placeRefs : Except Halt RefLoop :=
  loopBelow MAXREF .outOfRange d.placeRef d.currRPS.numOfRef.toNat ⟨d.fref, d.errorFref, false⟩

/-! ## Checks -/

def WrongB : Prop := d.imgType = .B_IMG ∧ ((d.frame 0).imgtrFwRefDistance ≤ d.tr ∨
  (d.frame 1).imgtrFwRefDistance ≥ d.tr ∨ (d.frame 1).imgtrFwRefDistance = -256)

instance : Decidable d.WrongB := inferInstanceAs (Decidable (_ ∧ (_ ∨ _ ∨ _)))

/-- A reference of a P or F picture is neither where it should be nor a round of 256 behind. -/
def WrongRefs : Prop := (d.imgType = .P_IMG ∨ d.imgType = .F_IMG) ∧
  ∃ i < d.numOfReferences.toNat,
    (d.frame i).imgcoiRef ≠ d.target i ∧ (d.frame i).imgcoiRef ≠ d.target i - 256

instance : Decidable d.WrongRefs := inferInstanceAs (Decidable (_ ∧ ∃ i < _, _ ∧ _))

/-- `check_ref_pic_error_drop_flag`. -/
def refPicErrorDropFlag : Bool :=
  d.lcuPercentageThreshold ≠ 0 && d.imgType ≠ .I_IMG &&
    if d.imgType = .P_IMG ∨ d.imgType = .F_IMG then
      (List.range d.numOfReferences.toNat).any fun i => (d.frmPool (d.refFrame i)).errorDropFlag
    else (d.frmPool (d.refFrame 1)).errorDropFlag || (d.frmPool (d.refFrame 0)).errorDropFlag

/-! ## The frame of the picture -/

/-- A frame may be decoded to. -/
def Free (f : Frame) : Prop :=
  (f.imgcoiRef < -256 ∨ 128 ≤ (f.imgtrFwRefDistance - d.tr).natAbs) ∧ f.isOutput = -1 ∧ f.bgFlag = 0 ∧
    f.vfRef = 0 ∧ f.toPrepareDisp = 0

instance (f : Frame) : Decidable (d.Free f) := inferInstanceAs (Decidable (_ ∧ _ ∧ _ ∧ _ ∧ _))

def freeSlot : Option Nat := (List.range d.refMaxbuffer).find? fun i => d.Free (d.frame i)

/-- The frame the picture is decoded to, before its references are noted. -/
def newFrame (errorMark : Bool) (f : Frame) : Frame :=
  { f with
    imgtrFwRefDistance := d.tr
    imgcoiRef := d.codingOrder
    temporalId := d.curLayer
    isOutput := 1
    poc := d.tr
    errorMark := errorMark
    decodedLcu := 0
    errorDropFlag := false
    sliceType := d.imgType
    decodeIdx := d.decodeIdx + 1
    used4kNum := 0
    needMmuCopy := 0
    referredByOthers := d.currRPS.referredByOthers }

/-- The distances that are noted, in what was there before. -/
def notedPocs (old : Nat → Int) (j : Nat) : Int :=
  let distance (i : Nat) := (d.frmPool (d.refFrame i)).imgtrFwRefDistance
  if d.imgType = .I_IMG ∧ j < 4 then d.tr
  else if d.numOfReferences ≤ j ∧ j < 4 then 0
  else if d.imgType = .B_IMG then
    if j = 0 then distance 1 else if j = 1 then distance 0 else old j
  else if j < d.numOfReferences then distance j else old j

/-- The frame in slot `i` becomes the current one. -/
def startFrame (i : Nat) (errorMark : Bool) : Decoder :=
  { d.setFrame (item d.fref i) (d.newFrame errorMark) with
    fRec := some (item d.fref i)
    decodeIdx := d.decodeIdx + 1 }

def notePocs (f : Nat) : Decoder :=
  d.setFrame f fun frame => { frame with refPoc := d.notedPocs frame.refPoc }

/-- The distances for the next picture; a B picture hides that of its first reference. -/
def updatePointers : Decoder :=
  match d.imgType with
  | .I_IMG => d
  | .B_IMG =>
    { d.setFrame (item d.fref 0) fun frame =>
        { frame with imgtrFwRefDistance := (d.frame 1).imgtrFwRefDistance } with
      imgtrNextP := (d.frame 0).imgtrFwRefDistance
      trtmp := (d.frame 0).imgtrFwRefDistance }
  | _ => { d with imgtrNextP := d.tr }

/-- The frame in slot `i` is taken. The entries of `ref_poc` are cleared from `num_of_references` on. -/
def takeFrame (i : Nat) (errorMark : Bool) : Except Halt Decoder :=
  if d.numOfReferences < 0 then .error .outOfRange
  else .ok ((d.startFrame i errorMark).notePocs (item d.fref i)).updatePointers

/-- The IDR frame is updated, and the search for references set up. -/
def setUp : Decoder :=
  let d := if d.tr > d.nextIDRtr ∧ d.currIDRtr ≠ d.nextIDRtr then
      { d with currIDRtr := d.nextIDRtr, currIDRcoi := d.nextIDRcoi }
    else d
  { d with
    numOfReferences := d.currRPS.numOfRef
    prevPicDistanceLsb := d.codingOrder.tmod 256
    errorFref := fun _ => none }

/-- What follows the loop over the references. -/
def finish (errorMark : Bool) : Except Halt (Decoder × Int) :=
  if d.WrongB ∧ ¬ d.ShowsErrors then
    .ok ({ d with bufmgrErrorFlag :=
      if (d.frame 1).imgtrFwRefDistance ≠ -256 then true else d.bufmgrErrorFlag }, -1)
  else if d.WrongRefs ∧ ¬ d.ShowsErrors then .ok (d, -1)
  else if d.refPicErrorDropFlag = true then .ok (d, -3)
  else match d.freeSlot with
    | none => .ok (d, -2)
    | some i => (d.takeFrame i (errorMark || decide d.WrongB || decide d.WrongRefs)).map fun d => (d, 0)

/-- `prepare_RefInfo`. -/
def prepareRefInfo : Except Halt (Decoder × Int) := do
  let l ← d.setUp.placeRefs
  { d.setUp with fref := l.fref, errorFref := l.errorFref }.finish l.errorMark

/-! ## What the loop finds -/

variable {d} {l : RefLoop} {i n : Nat} {t : Int} {fref : List Nat}

/-- Missing references get substitutes. -/
def Substitutes (d : Decoder) : Prop := d.ShowsErrors ∧ d.errorHandleMode = 1

instance (d : Decoder) : Decidable d.Substitutes := inferInstanceAs (Decidable (_ ∧ _))

/-- The frame that is noted for reference `i` when it is looked for in `fref`. -/
def substitute (d : Decoder) (fref : List Nat) (i : Nat) : Option Nat :=
  if Present d.coi d.refMaxbuffer fref (d.target i) then none
  else if d.Substitutes then
    (d.recentIndex fref (d.target i)).map (item fref)
  else none

theorem placeRef_fref (d : Decoder) (l : RefLoop) (i : Nat) :
    (d.placeRef l i).fref = seat d.coi d.refMaxbuffer l.fref i (d.target i) := by
  rw [placeRef, seat]
  cases lookFor d.coi d.refMaxbuffer l.fref (d.target i) with
  | some j => rfl
  | none =>
    dsimp only
    split
    · split
      · cases d.recentIndex l.fref (d.target i) <;> rfl
      · rfl
    · rfl

theorem substitute_present (h : Present d.coi d.refMaxbuffer fref (d.target i)) :
    d.substitute fref i = none := if_pos h

theorem substitute_missing (h : ¬ Present d.coi d.refMaxbuffer fref (d.target i)) :
    d.substitute fref i = if d.Substitutes then
      (d.recentIndex fref (d.target i)).map (item fref) else none := if_neg h

theorem placeRef_errorFref (d : Decoder) (l : RefLoop) (i : Nat) (hi : l.errorFref i = none) :
    (d.placeRef l i).errorFref = Function.update l.errorFref i (d.substitute l.fref i) := by
  have hsame : Function.update l.errorFref i none = l.errorFref :=
    Function.update_eq_self_iff.mpr hi.symm
  rw [placeRef]
  cases hlook : lookFor d.coi d.refMaxbuffer l.fref (d.target i) with
  | some j =>
    obtain ⟨hj, hkey⟩ := lookFor_some hlook
    rw [substitute_present ⟨j, hj, hkey⟩, hsame]
  | none =>
    rw [substitute_missing (lookFor_none.mp hlook)]
    dsimp only
    by_cases herrors : d.ShowsErrors
    · by_cases hmode : d.errorHandleMode = 1
      · rw [if_pos herrors, if_pos hmode, if_pos (show d.Substitutes from ⟨herrors, hmode⟩)]
        cases d.recentIndex l.fref (d.target i) with
        | some j => rfl
        | none => exact hsame.symm
      · rw [if_pos herrors, if_neg hmode, if_neg (show ¬ d.Substitutes from fun h => hmode h.2), hsame]
    · rw [if_neg herrors, if_neg (show ¬ d.Substitutes from fun h => herrors h.1), hsame]

theorem placeRef_errorMark (d : Decoder) (l : RefLoop) (i : Nat) : (d.placeRef l i).errorMark =
    (l.errorMark || decide (¬ Present d.coi d.refMaxbuffer l.fref (d.target i) ∧ ¬ d.ShowsErrors)) := by
  rw [placeRef]
  cases hlook : lookFor d.coi d.refMaxbuffer l.fref (d.target i) with
  | some j =>
    obtain ⟨hj, hkey⟩ := lookFor_some hlook
    rw [decide_eq_false fun h => h.1 ⟨j, hj, hkey⟩, Bool.or_false]
  | none =>
    have hmissing := lookFor_none.mp hlook
    by_cases herrors : d.ShowsErrors
    · rw [decide_eq_false fun h => h.2 herrors, Bool.or_false]
      dsimp only
      rw [if_pos herrors]
      split
      · cases d.recentIndex l.fref (d.target i) <;> rfl
      · rfl
    · rw [decide_eq_true ⟨hmissing, herrors⟩, Bool.or_true]
      dsimp only
      rw [if_neg herrors]

/-- The loop over `n` references. -/
def placed (d : Decoder) (n : Nat) : RefLoop :=
  (List.range n).foldl d.placeRef ⟨d.fref, fun _ => none, false⟩

theorem placed_succ : d.placed (n + 1) = d.placeRef (d.placed n) n := by
  rw [placed, List.range_succ, List.foldl_append]
  rfl

theorem placed_fref (d : Decoder) (n : Nat) :
    (d.placed n).fref = seatAll d.coi d.refMaxbuffer d.target d.fref n := by
  induction n with
  | zero => rfl
  | succ n ih => rw [placed_succ, placeRef_fref, ih, seatAll_succ]

/-- A substitute is looked for in the array as it is when the loop comes to its reference. -/
theorem placed_errorFref (d : Decoder) (n i : Nat) : (d.placed n).errorFref i =
    if i < n then d.substitute (seatAll d.coi d.refMaxbuffer d.target d.fref i) i else none := by
  induction n generalizing i with
  | zero => rfl
  | succ n ih =>
    have hbefore : (d.placed n).errorFref n = none := by rw [ih, if_neg (Nat.lt_irrefl n)]
    rw [placed_succ, placeRef_errorFref d _ n hbefore, placed_fref]
    by_cases hin : i = n
    · rw [hin, Function.update_self, if_pos (Nat.lt_succ_self n)]
    · have hiff : i < n ↔ i < n + 1 := by omega
      rw [Function.update_of_ne hin, ih, if_congr hiff rfl rfl]

theorem placed_errorMark (d : Decoder) (n : Nat) : (d.placed n).errorMark = true ↔ ∃ i < n,
    ¬ Present d.coi d.refMaxbuffer (seatAll d.coi d.refMaxbuffer d.target d.fref i) (d.target i) ∧
      ¬ d.ShowsErrors := by
  induction n with
  | zero => exact ⟨fun h => absurd h Bool.false_ne_true, fun ⟨i, hi, _⟩ => absurd hi (Nat.not_lt_zero i)⟩
  | succ n ih =>
    rw [placed_succ, placeRef_errorMark, placed_fref, Bool.or_eq_true, ih, decide_eq_true_iff,
      Nat.exists_lt_succ_right]

/-- The nearest slot has no other coding order nearer to the missing one. -/
theorem recentIndex_nearest {j : Nat} (h : d.recentIndex fref t = some j) :
    j < d.refMaxbuffer ∧ ∀ k < d.refMaxbuffer, d.coi (item fref k) ≠ t →
      (d.coi (item fref j) - t).natAbs ≤ (d.coi (item fref k) - t).natAbs := by
  have hnearest :=
    foldl_closer (d.slotDist fref t) ((List.range d.refMaxbuffer).map some) (0xffffffff, none)
  rw [recentIndex] at h
  rcases hnearest.found with hstart | ⟨hmem, hdist⟩
  · rw [hstart] at h
    exact nomatch h
  · rw [h] at hmem hdist
    obtain ⟨j', hj', heq⟩ := List.mem_map.mp hmem
    obtain rfl := Option.some.inj heq
    refine ⟨List.mem_range.mp hj', fun k hk hne => ?_⟩
    have hle := hnearest.le (some k) (List.mem_map_of_mem (List.mem_range.mpr hk))
      (d.coi (item fref k) - t).natAbs (if_pos hne)
    obtain ⟨-, hbest⟩ := Option.ite_none_right_eq_some.mp hdist
    rwa [← Option.some.inj hbest] at hle

/-- The nearest slot is not out of reach. -/
theorem recentIndex_lt {j : Nat} (h : d.recentIndex fref t = some j) :
    d.coi (item fref j) ≠ t ∧ (d.coi (item fref j) - t).natAbs < 0xffffffff := by
  have hnearest :=
    foldl_closer (d.slotDist fref t) ((List.range d.refMaxbuffer).map some) (0xffffffff, none)
  have hlt :=
    foldl_closer_lt (d.slotDist fref t) ((List.range d.refMaxbuffer).map some) (0xffffffff, none)
  rw [recentIndex] at h
  have hchanged {p : Nat × Option Nat} (hp : p.2 = some j) : p ≠ (0xffffffff, none) := fun heq => by
    rw [heq] at hp
    exact nomatch hp
  obtain ⟨-, hdist⟩ := hnearest.found.resolve_left (hchanged h)
  rw [h] at hdist
  obtain ⟨hne, hbest⟩ := Option.ite_none_right_eq_some.mp hdist
  exact ⟨hne, Option.some.inj hbest ▸ hlt.resolve_left (hchanged h)⟩

/-- A nearest slot is found when some coding order is not out of reach. -/
theorem recentIndex_isSome {j : Nat} (hj : j < d.refMaxbuffer) (hne : d.coi (item fref j) ≠ t)
    (hreach : (d.coi (item fref j) - t).natAbs < 0xffffffff) : (d.recentIndex fref t).isSome = true := by
  have hnearest :=
    foldl_closer (d.slotDist fref t) ((List.range d.refMaxbuffer).map some) (0xffffffff, none)
  have hle := hnearest.le (some j) (List.mem_map_of_mem (List.mem_range.mpr hj))
    (d.coi (item fref j) - t).natAbs (if_pos hne)
  rw [recentIndex]
  rcases hnearest.found with hstart | ⟨hmem, -⟩
  · rw [hstart] at hle
    exact absurd hle (Nat.not_le.mpr hreach)
  · obtain ⟨k, -, heq⟩ := List.mem_map.mp hmem
    rw [← heq]
    rfl

/-! ## Without an index out of range -/

/-- The reference set is within the arrays, as the header functions leave it. -/
structure InRange (d : Decoder) : Prop where
  nonneg : 0 ≤ d.currRPS.numOfRef
  le_max : d.currRPS.numOfRef ≤ MAXREF
  le_buffers : d.currRPS.numOfRef ≤ d.refMaxbuffer

/-- How many references there are. -/
def count (d : Decoder) : Nat := d.currRPS.numOfRef.toNat

theorem InRange.count_le (h : d.InRange) : d.count ≤ MAXREF ∧ d.count ≤ d.refMaxbuffer := by
  have hmax := h.le_max
  have hbuffers := h.le_buffers
  rw [count]
  omega

/-- What `prepare_RefInfo` has set up and the loop has found. -/
def reordered (d : Decoder) : Decoder :=
  { d.setUp with fref := (d.placed d.count).fref, errorFref := (d.placed d.count).errorFref }

theorem setUp_next (h : d.tr > d.nextIDRtr ∧ d.currIDRtr ≠ d.nextIDRtr) : d.setUp = { d with
    currIDRtr := d.nextIDRtr
    currIDRcoi := d.nextIDRcoi
    numOfReferences := d.currRPS.numOfRef
    prevPicDistanceLsb := d.codingOrder.tmod 256
    errorFref := fun _ => none } := by
  rw [setUp, if_pos h]

theorem setUp_current (h : ¬ (d.tr > d.nextIDRtr ∧ d.currIDRtr ≠ d.nextIDRtr)) : d.setUp = { d with
    numOfReferences := d.currRPS.numOfRef
    prevPicDistanceLsb := d.codingOrder.tmod 256
    errorFref := fun _ => none } := by
  rw [setUp, if_neg h]

theorem setUp_placeRef (d : Decoder) : d.setUp.placeRef = d.placeRef := by
  rw [setUp]
  split <;> rfl

theorem setUp_fref (d : Decoder) : d.setUp.fref = d.fref := by
  rw [setUp]
  split <;> rfl

theorem setUp_currRPS (d : Decoder) : d.setUp.currRPS = d.currRPS := by
  rw [setUp]
  split <;> rfl

theorem setUp_placeRefs (d : Decoder) : d.setUp.placeRefs =
    loopBelow MAXREF .outOfRange d.placeRef d.count ⟨d.fref, fun _ => none, false⟩ := by
  rw [placeRefs, setUp_placeRef, setUp_fref, setUp_currRPS]
  rfl

theorem prepareRefInfo_eq (hn : d.count ≤ MAXREF) :
    d.prepareRefInfo = d.reordered.finish (d.placed d.count).errorMark := by
  rw [prepareRefInfo, setUp_placeRefs, loopBelow_ok hn]
  rfl

theorem count_le_of_ok {r : Decoder × Int} (h : d.prepareRefInfo = .ok r) : d.count ≤ MAXREF := by
  rw [prepareRefInfo] at h
  cases hplace : d.setUp.placeRefs with
  | error e =>
    rw [hplace] at h
    exact nomatch h
  | ok l =>
    rw [setUp_placeRefs] at hplace
    exact le_of_loopBelow hplace

/-! ## What a call changes -/

section Changes

variable {d' : Decoder} {slot : Nat} {mark : Bool} {ret : Int}

/-- What the frame taken for the picture changes. -/
structure Took (d d' : Decoder) (slot : Nat) : Prop where
  fref : d'.fref = d.fref
  errorFref : d'.errorFref = d.errorFref
  fRec : d'.fRec = some (item d.fref slot)
  coi : ∀ f, f ≠ item d.fref slot → d'.coi f = d.coi f

theorem setFrame_coi (d : Decoder) (f : Nat) (change : Frame → Frame)
    (h : ∀ frame, (change frame).imgcoiRef = frame.imgcoiRef) : (d.setFrame f change).coi = d.coi := by
  funext g
  rw [coi, setFrame, coi]
  dsimp only
  by_cases hg : g = f
  · rw [hg, Function.update_self, h]
  · rw [Function.update_of_ne hg]

theorem updatePointers_same (d : Decoder) : d.updatePointers.fref = d.fref ∧
    d.updatePointers.errorFref = d.errorFref ∧ d.updatePointers.fRec = d.fRec ∧
      d.updatePointers.coi = d.coi := by
  rw [updatePointers]
  split
  · exact ⟨rfl, rfl, rfl, rfl⟩
  · have hcoi := setFrame_coi d (item d.fref 0)
      (fun frame => { frame with imgtrFwRefDistance := (d.frame 1).imgtrFwRefDistance }) fun _ => rfl
    exact ⟨rfl, rfl, rfl, hcoi⟩
  · exact ⟨rfl, rfl, rfl, rfl⟩

theorem takeFrame_took (h : d.takeFrame slot mark = .ok d') : Took d d' slot := by
  rw [takeFrame] at h
  split at h
  · exact nomatch h
  · obtain rfl := Except.ok.inj h
    obtain ⟨hfref, herror, hrec, hcoi⟩ :=
      updatePointers_same ((d.startFrame slot mark).notePocs (item d.fref slot))
    refine ⟨hfref, herror, hrec, fun f hf => ?_⟩
    rw [hcoi, notePocs, setFrame_coi (d.startFrame slot mark) (item d.fref slot) _ (by intro _; rfl)]
    show (Function.update d.frmPool _ _ f).imgcoiRef = _
    rw [Function.update_of_ne hf]
    rfl

/-- How a call ends after the loop. A check fails, no frame is found, or a free one is taken. -/
theorem finish_cases (h : d.finish mark = .ok (d', ret)) :
    ((ret = -1 ∨ ret = -3) ∧ d'.fref = d.fref) ∨ (ret = -2 ∧ d' = d) ∨
      ret = 0 ∧ ∃ slot, d.freeSlot = some slot ∧ Took d d' slot := by
  have ends {e : Decoder} {r : Int} (heq : (.ok (e, r) : Except Halt (Decoder × Int)) = .ok (d', ret)) :
      e = d' ∧ r = ret := Prod.mk.inj (Except.ok.inj heq)
  rw [finish] at h
  split at h
  · obtain ⟨rfl, rfl⟩ := ends h
    exact Or.inl ⟨Or.inl rfl, rfl⟩
  · split at h
    · obtain ⟨rfl, rfl⟩ := ends h
      exact Or.inl ⟨Or.inl rfl, rfl⟩
    · split at h
      · obtain ⟨rfl, rfl⟩ := ends h
        exact Or.inl ⟨Or.inr rfl, rfl⟩
      · split at h
        · obtain ⟨rfl, rfl⟩ := ends h
          exact Or.inr (Or.inl ⟨rfl, rfl⟩)
        · next slot hfree =>
          refine Or.inr (Or.inr ?_)
          cases htake : d.takeFrame slot (mark || decide d.WrongB || decide d.WrongRefs) with
          | error e =>
            rw [htake] at h
            cases h
          | ok e =>
            rw [htake] at h
            obtain ⟨rfl, rfl⟩ := ends h
            exact ⟨rfl, slot, hfree, takeFrame_took htake⟩

/-- With no negative number of references, what follows the loop comes to an end. -/
theorem finish_ok (h : 0 ≤ d.numOfReferences) (mark : Bool) : ∃ r, d.finish mark = .ok r := by
  rw [finish]
  split
  · exact ⟨_, rfl⟩
  · split
    · exact ⟨_, rfl⟩
    · split
      · exact ⟨_, rfl⟩
      · split
        · exact ⟨_, rfl⟩
        · next slot _ =>
          rw [takeFrame, if_neg (Int.not_lt.mpr h)]
          exact ⟨_, rfl⟩

/-- With a reference set that is within the arrays, so does the call. -/
theorem prepareRefInfo_ok (h : d.InRange) : ∃ r, d.prepareRefInfo = .ok r := by
  have hnonneg : 0 ≤ d.reordered.numOfReferences := by
    rw [reordered, setUp]
    split <;> exact h.nonneg
  rw [prepareRefInfo_eq h.count_le.1]
  exact finish_ok hnonneg _

end Changes

end Decoder

end MediaModules.Avs2
