import MediaModules.Hevc.RefPicLists
import MediaModules.Lib.Select
import Mathlib.Data.List.FinRange

/-!
# The pictures of an HEVC instance and their buffers

The pool `m_PIC` of `struct hevc_state_s`, the frame buffers `m_BUF` and the motion-vector buffers
`m_mv_BUF` its pictures hold by index, and the functions that hand pictures and buffers out, mark
pictures for output and give them to the display.
-/
namespace MediaModules.Hevc.Pictures

open MediaModules.Lib.Select

def MAX_REF_PIC_NUM : Nat := 24

def BUF_POOL_SIZE : Nat := 32

def INVALID_POC : Int := -0x80000000

def MPRED_8K_MV_BUF_SIZE : Nat := 0x120000 * 4

def MPRED_4K_MV_BUF_SIZE : Nat := 0x120000

def MPRED_MV_BUF_SIZE : Nat := 0x3fc00

def MAX_SIZE_4K : Nat := 4096 * 2304

/-- A slot of `m_PIC`. -/
abbrev Pic := Fin MAX_REF_PIC_NUM

/-- A frame buffer, by its index in `m_BUF`. -/
abbrev BufIdx := Fin BUF_POOL_SIZE

/-- A motion-vector buffer, by its index in `m_mv_BUF`. -/
abbrev MvIdx := Fin MAX_REF_PIC_NUM

/-- `struct PIC_s`. A slot that is not `created` holds `NULL`; `valid` says that `index` is not -1,
and an index that is -1 is `none`. -/
structure Picture where
  created : Bool := false
  valid : Bool := false
  bufIndex : Option BufIdx := none
  mvBufIndex : Option MvIdx := none
  width : Nat := 0
  height : Nat := 0
  poc : Int := 0
  decodeIdx : Int := 0
  sliceType : Nat := 0
  numReorderPic : Nat := 0
  vfRef : Nat := 0
  referenced : Bool := false
  outputMark : Bool := false
  outputReady : Bool := false
  errorMark : Bool := false
  nodispMark : Bool := false
  dropFlag : Bool := false
  needMmuCopy : Bool := false
  ipMode : Bool := false

/-- `struct BUF_s`; `allocated` says that `start_adr` is not zero. -/
structure Buf where
  allocated : Bool := false
  used : Bool := false
  size : Int := 0

/-- An entry of `m_mv_BUF`. -/
structure MvBuf where
  allocated : Bool := false
  used : Bool := false

/-- What `struct hevc_state_s` has of the pictures. `handed` records what `prepare_display_buf` has
been called with, by decode index and POC. -/
structure State where
  mPIC : Pic → Picture := fun _ => {}
  mBUF : BufIdx → Buf := fun _ => {}
  mMvBUF : MvIdx → MvBuf := fun _ => {}
  mvBufSize : Nat := 0
  picW : Nat := 0
  picH : Nat := 0
  fatalNoMem : Bool := false
  idr : Bool := false
  resChange : Bool := false
  interlaceFlag : Bool := false
  spsNumReorderPics0 : Nat := 0
  currPOC : Int := INVALID_POC
  iPrevPOC : Int := 0
  decodedPoc : Int := INVALID_POC
  decodeIdx : Int := 0
  curPic : Option Pic := none
  vfPreCount : Nat := 0
  firstPicFlag : Nat := 0
  firstOutputPoc : Int := 0
  ignoreBufmgrError : Nat := 0
  pbSkipCount : Nat := 0
  handed : List (Int × Int) := []

/-- What the display does with a picture it is given: the frames it queues, the references they
leave and whether the picture is kept for them. -/
structure Shown where
  frames : Nat
  vfRef : Nat
  ready : Bool

/-- Module parameters and the kind of instance. `waitDv` is `bypass_dvenl && !dolby_meta_with_el`,
`dual` that there is a master or a slave, `noDisplay` one of the two debug flags. -/
structure Config where
  iOnly : Nat := 0
  fastOutputEnable : Bool := false
  efficiencyMode : Bool := false
  disableIpMode : Bool := false
  dual : Bool := false
  waitDv : Bool := false
  noDisplay : Bool := false
  lcuPercentageThreshold : Nat := 0
  pbSkipMode : Nat := 0
  mInsFlag : Bool := false
  display : Picture → Shown := fun _ => ⟨1, 1, true⟩

section Updates
variable (s : State)

def State.setPic (p : Pic) (x : Picture) : State :=
  { s with mPIC := fun q => if q = p then x else s.mPIC q }

def State.setBuf (i : BufIdx) (b : Buf) : State :=
  { s with mBUF := fun k => if k = i then b else s.mBUF k }

def State.setMvBuf (j : MvIdx) (b : MvBuf) : State :=
  { s with mMvBUF := fun k => if k = j then b else s.mMvBUF k }

end Updates

/-! ## Motion-vector buffers -/

section Functions
variable (c : Config) (s : State)

/-- `dealloc_mv_bufs` -/
def deallocMvBufs : State :=
  { s with
    mMvBUF := fun j => if (s.mMvBUF j).allocated then {} else s.mMvBUF j
    mPIC := fun p =>
      if (s.mPIC p).created then { s.mPIC p with mvBufIndex := none } else s.mPIC p }

/-- `put_mv_buf` -/
def putMvBuf (p : Pic) : State :=
  match (s.mPIC p).mvBufIndex with
  | none => s
  | some j =>
    let s := if (s.mMvBUF j).allocated && (s.mMvBUF j).used
      then s.setMvBuf j { s.mMvBUF j with used := false } else s
    s.setPic p { s.mPIC p with mvBufIndex := none }

def align64 (n : Nat) : Nat := (n + 63) / 64 * 64

/-- The size of a motion-vector buffer for pictures of the given size. -/
def newMvSize (width height : Nat) : Nat :=
  let w := align64 width
  let h := align64 height
  if MAX_SIZE_4K < w * h then MPRED_8K_MV_BUF_SIZE
  else if 1920 * 1088 < w * h then MPRED_4K_MV_BUF_SIZE
  else MPRED_MV_BUF_SIZE

def takeMvBuf (p : Pic) (j : MvIdx) : State :=
  (s.setMvBuf j ⟨true, true⟩).setPic p { s.mPIC p with mvBufIndex := some j }

/-- The part of `get_mv_buf` before a buffer is looked for. -/
def resizeMvBufs (p : Pic) : State :=
  let newSize := newMvSize (s.mPIC p).width (s.mPIC p).height
  if newSize ≠ s.mvBufSize then { deallocMvBufs s with mvBufSize := newSize } else s

/-- `get_mv_buf`; `alloc` says whether memory for a new buffer is to be had. -/
def getMvBuf (p : Pic) (alloc : Bool) : Bool × State :=
  let s := putMvBuf (resizeMvBufs s p) p
  match (List.finRange _).find? fun j => (s.mMvBUF j).allocated && !(s.mMvBUF j).used with
  | some j => (true, takeMvBuf s p j)
  | none =>
    match (List.finRange _).find? fun j => !(s.mMvBUF j).allocated with
    | some j => if alloc then (true, takeMvBuf s p j) else (false, s)
    | none => (false, s)

/-! ## Frame buffers -/

/-- `alloc_buf`; `bufSize` is what `cal_current_buf_size` says. -/
def allocBuf (bufSize : Int) (alloc : Bool) : Bool × State :=
  if s.fatalNoMem then (false, s)
  else
    match (List.finRange _).find? fun i => !(s.mBUF i).allocated with
    | none => (false, s)
    | some i =>
      if 0 < bufSize then
        if alloc then (true, s.setBuf i ⟨true, false, bufSize⟩)
        else (false, { s with fatalNoMem := s.fatalNoMem || decide (i.val ≤ 8) })
      else (true, s)

/-- `config_pic` -/
def configPic (p : Pic) (bufSize : Int) : Bool × State :=
  match (List.finRange _).find? fun i =>
      (s.mBUF i).allocated && !(s.mBUF i).used && decide (bufSize ≤ (s.mBUF i).size) with
  | none => (false, s)
  | some i =>
    (true, (s.setBuf i { s.mBUF i with used := true }).setPic p
      { s.mPIC p with poc := INVALID_POC, bufIndex := some i })

/-- `dealloc_pic_buf` -/
def deallocPicBuf (p : Pic) : State :=
  let t := s.setPic p { s.mPIC p with bufIndex := none }
  match (s.mPIC p).bufIndex with
  | none => t
  | some i => if (s.mBUF i).allocated then t.setBuf i {} else t

/-- `set_buf_unused` -/
def setBufUnused : Option BufIdx → State
  | none => s
  | some i => s.setBuf i { s.mBUF i with used := false }

/-- `dealloc_unused_buf` -/
def deallocUnusedBuf : State :=
  { s with mBUF := fun i =>
      if (s.mBUF i).allocated && !(s.mBUF i).used
      then { s.mBUF i with allocated := false, size := 0 } else s.mBUF i }

/-! ## The pool -/

/-- A picture that nothing keeps. -/
def Picture.idle (x : Picture) : Bool :=
  x.created && x.valid && !x.outputMark && !x.referenced && !x.outputReady

/-- What `pic_list_process` does to one picture, with the number of pictures up to it. -/
def releasePic (workPicNum : Nat) (a : State × Nat) (p : Pic) : State × Nat :=
  let (s, count) := a
  let x := s.mPIC p
  if x.created && x.valid then
    if x.idle && (x.width ≠ s.picW || x.height ≠ s.picH) then
      let s := setBufUnused s x.bufIndex
      (if workPicNum < count + 1 then
        s.setPic p { x with bufIndex := none, width := 0, height := 0, valid := false }
      else s.setPic p { x with bufIndex := none, width := s.picW, height := s.picH }, count + 1)
    else (s, count + 1)
  else a

/-- What `pic_alloc` and `pic_init` leave in a slot: all zero. -/
def picInit : Picture :=
  { created := true, bufIndex := some ⟨0, Nat.zero_lt_succ 31⟩
    mvBufIndex := some ⟨0, Nat.zero_lt_succ 23⟩ }

/-- The loop of `pic_list_process` that makes pictures usable. `pic_alloc` succeeds `records`
times. -/
def usePics (workPicNum : Nat) : List Pic → Nat → Nat → State → State
  | [], _, _, s => s
  | p :: ps, count, records, s =>
    let x := s.mPIC p
    if count < workPicNum && !x.created && records == 0 then s
    else
      let new := decide (count < workPicNum) && !x.created
      let x := if new then picInit else x
      let records := if new then records - 1 else records
      if x.created && !x.valid then
        let s := s.setPic p
          { x with valid := true, bufIndex := none, width := s.picW, height := s.picH }
        if workPicNum ≤ count + 1 then s else usePics workPicNum ps (count + 1) records s
      else usePics workPicNum ps count records s

/-- `pic_list_process`; `workPicNum` is what `get_work_pic_num` says. -/
def picListProcess (workPicNum records : Nat) : State :=
  let r := (List.finRange _).foldl (releasePic workPicNum) (s, 0)
  let s := if r.2 < workPicNum
    then usePics workPicNum (List.finRange _) r.2 records r.1 else r.1
  deallocUnusedBuf s

/-- The outcomes of the allocations of `get_new_pic`, and `cal_current_buf_size`. Without an MMU
`mmu` and `mmuDw` are true. -/
structure Allocs where
  bufSize : Int := 1
  buf : Bool := true
  mv : Bool := true
  mmu : Bool := true
  mmuDw : Bool := true

/-- `get_new_pic` can reuse the picture. -/
def State.free (p : Pic) : Bool :=
  (s.mPIC p).idle && decide ((s.mPIC p).width = s.picW) && decide ((s.mPIC p).height = s.picH) &&
    decide ((s.mPIC p).vfRef = 0)

/-- The picture `get_new_pic` chooses: one without a POC, else that with the lowest. -/
def freePic : Option Pic :=
  (List.finRange _).foldl (pick s.free fun p b => decide ((s.mPIC b).poc ≠ INVALID_POC ∧
    ((s.mPIC p).poc = INVALID_POC ∨ (s.mPIC p).poc < (s.mPIC b).poc))) none

/-- `get_new_pic` sees to it that the picture has a frame buffer. -/
def getBuf (p : Pic) (a : Allocs) : Bool × State :=
  if (s.mPIC p).bufIndex ≠ none then (true, s)
  else
    let r := allocBuf s a.bufSize a.buf
    if r.1 then
      let r := configPic r.2 p a.bufSize
      if r.1 then
        (true, r.2.setPic p { r.2.mPIC p with width := r.2.picW, height := r.2.picH })
      else (false, deallocPicBuf r.2 p)
    else (false, r.2)

/-- The picture taken for the current POC. -/
def startedPic (p : Pic) : Picture :=
  { s.mPIC p with
    referenced := true
    decodeIdx := s.decodeIdx
    outputMark := false
    errorMark := false
    nodispMark := false
    numReorderPic := s.spsNumReorderPics0
    ipMode := s.spsNumReorderPics0 == 0 && !c.dual && !c.disableIpMode
    poc := s.currPOC
    needMmuCopy := false
    dropFlag := false }

/-- The end of `get_new_pic`. -/
def startPic (p : Pic) : State :=
  let t := s.setPic p (startedPic c s p)
  if s.idr then { t with firstOutputPoc := s.currPOC } else t

/-- `get_new_pic` -/
def getNewPic (a : Allocs) : Option Pic × State :=
  match freePic s with
  | none => (none, s)
  | some p =>
    let b := getBuf s p a
    if b.1 then
      let m := getMvBuf b.2 p a.mv
      if m.1 then
        if a.mmu && a.mmuDw then (some p, startPic c m.2 p) else (none, putMvBuf m.2 p)
      else (none, m.2)
    else (none, b.2)

/-- `init_pic_list` first allocates frame buffers, as long as that succeeds. -/
def allocBufs (bufSize : Int) : List Bool → State → State
  | [], s => s
  | alloc :: allocs, s =>
    let r := allocBuf s bufSize alloc
    if r.1 then allocBufs bufSize allocs r.2 else r.2

/-- The loop of `init_pic_list` over the pictures; `pic_alloc` succeeds `records` times. -/
def initPics (bufSize : Int) : List Pic → Nat → State → State
  | [], _, s => s
  | _ :: _, 0, s => s
  | p :: ps, records + 1, s =>
    let x : Picture := { picInit with
      valid := true, bufIndex := none, mvBufIndex := none, width := s.picW, height := s.picH
      poc := INVALID_POC }
    let r := configPic (s.setPic p x) p bufSize
    if r.1 then initPics bufSize ps records r.2
    else r.2.setPic p { r.2.mPIC p with valid := false }

/-- `init_pic_list` on an instance without pictures and buffers. -/
def initPicList (width height initBufNum records : Nat) (bufSize : Int) (allocs : List Bool) :
    State :=
  let s := allocBufs bufSize (allocs.take initBufNum) { picW := width, picH := height }
  initPics bufSize ((List.finRange _).take initBufNum) records s

/-! ## References -/

def releaseRef (p : Pic) : State :=
  putMvBuf (s.setPic p { s.mPIC p with referenced := false }) p

/-- The POC an entry of `CUR_RPS` stands for. -/
def rpsPoc (curPoc : Int) (word : UInt16) : Int :=
  let delt := word.toNat &&& ((1 <<< (RPS_USED_BIT - 1)) - 1)
  if word.toNat &&& (1 <<< (RPS_USED_BIT - 1)) ≠ 0 then
    curPoc - ((1 <<< (RPS_USED_BIT - 1) : Nat) - delt)
  else curPoc + delt

/-- The reference picture set has the POC. -/
def isReferenced (curPoc : Int) (curRps : Fin 16 → UInt16) (poc : Int) : Bool :=
  ((List.ofFn curRps).takeWhile fun w => w ≠ RPS_END).any fun w => rpsPoc curPoc w == poc

/-- `apply_ref_pic_set` -/
def applyRefPicSet (curPoc : Int) (curRps : Fin 16 → UInt16) : State :=
  (List.finRange _).foldl (fun s p =>
    let x := s.mPIC p
    if x.created && x.valid && x.bufIndex.isSome && x.referenced && x.poc ≠ curPoc &&
        !isReferenced curPoc curRps x.poc
    then releaseRef s p else s) s

/-- `clear_referenced_flag` -/
def clearReferencedFlag : State :=
  (List.finRange _).foldl (fun s p =>
    let x := s.mPIC p
    if x.created && x.valid && x.referenced then releaseRef s p else s) s

/-! ## Output -/

/-- The picture is there, with a buffer. -/
def Picture.live (x : Picture) : Bool := x.created && x.valid && x.bufIndex.isSome

/-- `get_pic_by_POC`: the picture decoded last. -/
def getPicByPOC (poc : Int) : Option Pic :=
  if poc = INVALID_POC then none
  else (List.finRange _).foldl (pick (fun p => (s.mPIC p).live && (s.mPIC p).poc == poc)
    fun p b => decide ((s.mPIC b).decodeIdx < (s.mPIC p).decodeIdx)) none

/-- The picture waits for its output. -/
def Picture.waiting (x : Picture) : Bool := x.live && x.poc ≠ INVALID_POC && x.outputMark

/-- The picture that waits and was decoded first. -/
def firstDecoded : Option Pic :=
  (List.finRange _).foldl (pick (fun p => (s.mPIC p).waiting)
    fun p b => decide ((s.mPIC p).decodeIdx < (s.mPIC b).decodeIdx)) none

/-- The picture goes out before the other one. -/
def State.before (p b : Pic) : Bool :=
  decide ((s.mPIC p).poc < (s.mPIC b).poc ∨
    (s.mPIC p).poc = (s.mPIC b).poc ∧ (s.mPIC p).decodeIdx < (s.mPIC b).decodeIdx)

/-- The picture that waits with the lowest POC, unless there is a `first` one with a lower. -/
def lowestPoc (first : Option Pic) : Option Pic :=
  (List.finRange _).foldl (pick (fun p => (s.mPIC p).waiting) s.before) first

/-- The picture is the first one and goes out at once. -/
def State.fastFirst (p : Pic) : Bool :=
  (s.mPIC p).live && (s.mPIC p).poc ≠ INVALID_POC && (s.mPIC p).sliceType == 2 &&
    s.vfPreCount == 0 && c.fastOutputEnable

/-- The fast output of the first I picture, in the first loop of `output_pic`: the state, the
picture to be shown and whether there is such a picture. -/
def fastOutput : State × Option Pic × Bool :=
  (List.finRange _).foldl (fun a p =>
    if a.1.fastFirst c p then
      ({ a.1.setPic p { a.1.mPIC p with numReorderPic := 0 } with
          firstOutputPoc := (a.1.mPIC p).poc },
        if c.dual then some p else a.2.1, true)
    else a) (s, none, false)

/-- The number of pictures that wait for their output. -/
def numPicNotYetDisplay : Nat := (List.finRange MAX_REF_PIC_NUM).countP fun p => (s.mPIC p).waiting

def readyPic (p : Pic) : State :=
  s.setPic p { s.mPIC p with outputMark := false, outputReady := true }

/-- The end of `output_pic`: the second picture that is shown, after a fast first one. -/
def afterFirst (flush : Bool) (p : Pic) : Option Pic × State :=
  if s.spsNumReorderPics0 ≠ 0 ∧ s.vfPreCount = 1 ∧ (s.firstPicFlag = 1 ∨ s.firstPicFlag = 2) then
    let s := { s with firstPicFlag := 2 }
    if (s.mPIC p).poc = s.firstOutputPoc ∧ flush = false then (none, s)
    else if (s.mPIC p).poc < s.firstOutputPoc then
      (some p, s.setPic p { s.mPIC p with nodispMark := true })
    else (some p, { s with firstPicFlag := 3 })
  else (some p, s)

/-- `output_pic` -/
def outputPic (flush : Bool) : Option Pic × State :=
  if c.iOnly &&& 4 ≠ 0 then
    match firstDecoded s with
    | none => (none, s)
    | some p => afterFirst (releaseRef (readyPic s p) p) flush p
  else
    let num := numPicNotYetDisplay s
    let (s, first, fast) := fastOutput c s
    match lowestPoc s first with
    | none => (none, s)
    | some p =>
      if c.dual && s.curPic == some p && !flush && c.waitDv && !fast then (none, s)
      else if (s.mPIC p).needMmuCopy then (none, s)
      else if (s.mPIC p).numReorderPic < num || flush || MAX_REF_PIC_NUM - 1 ≤ num then
        afterFirst (readyPic s p) flush p
      else (none, s)

/-- `prepare_display_buf` -/
def prepareDisplayBuf (p : Pic) : State :=
  let x := s.mPIC p
  let d := c.display x
  { s.setPic p { x with vfRef := d.vfRef, outputReady := d.ready } with
    vfPreCount := s.vfPreCount + d.frames
    handed := s.handed ++ [(x.decodeIdx, x.poc)] }

/-- What `output_pic_display` does with the picture it got. -/
def showPic (flush : Nat) (ones : Bool) (p : Pic) : State :=
  let s := if flush = 2 then releaseRef s p else s
  let x := s.mPIC p
  let hidden := { x with outputReady := false }
  if (x.errorMark && s.ignoreBufmgrError &&& 2 == 0 && c.lcuPercentageThreshold == 0) ||
      x.nodispMark || c.noDisplay || x.dropFlag then s.setPic p hidden
  else if c.iOnly &&& 1 ≠ 0 ∧ x.sliceType ≠ 2 then s.setPic p hidden
  else
    let s := prepareDisplayBuf c s p
    if ones then { s with firstPicFlag := 1 } else s

/-- The loop of `output_pic_display`; every round but the last takes one mark away. -/
def outputLoop (flush : Nat) (ones : Bool) : Nat → State → State
  | 0, s => s
  | rounds + 1, s =>
    match outputPic c s (flush ≠ 0) with
    | (none, s) => s
    | (some p, s) =>
      let s := showPic c s flush ones p
      if ones then s else outputLoop flush ones rounds s

/-- `output_pic_display` -/
def outputPicDisplay (flush : Nat) (ones : Bool) : State :=
  outputLoop c flush ones (MAX_REF_PIC_NUM + 1) s

/-- The PB skip control. -/
def pbSkip (p : Pic) : State :=
  let s := if (s.mPIC p).errorMark = false ∧ c.pbSkipMode = 1
    then { s with ignoreBufmgrError := s.ignoreBufmgrError ||| 1 } else s
  if s.ignoreBufmgrError &&& 1 ≠ 0 then
    if 0 < s.pbSkipCount then { s with pbSkipCount := s.pbSkipCount - 1 }
    else { s with ignoreBufmgrError := s.ignoreBufmgrError ||| 2 }
  else s

/-- A decoded picture is marked for output, except in IP mode. -/
def markPic (p : Pic) : State :=
  s.setPic p { s.mPIC p with outputMark := (s.mPIC p).outputMark || !(s.mPIC p).ipMode }

/-- `interlace_clear_no_pair_pic` -/
def interlaceClearNoPairPic : State :=
  if s.interlaceFlag then
    { s with mPIC := fun p =>
        if (s.mPIC p).created && (s.mPIC p).valid && (s.mPIC p).vfRef == 1
        then { s.mPIC p with vfRef := 0, outputReady := false } else s.mPIC p }
  else s

/-- `flush_output` -/
def flushOutput (pic : Option Pic) : State :=
  let s := match pic with
    | none => s
    | some p =>
      let s := pbSkip c s p
      if (s.mPIC p).poc ≠ INVALID_POC then markPic s p else s
  interlaceClearNoPairPic (clearReferencedFlag (outputPicDisplay c s 2 false))

/-- `hevc_pre_pic` -/
def hevcPrePic : State :=
  let decodedPoc := if c.mInsFlag then s.decodedPoc else s.iPrevPOC
  let s := if c.mInsFlag then { s with decodedPoc := INVALID_POC } else s
  if !s.idr && !s.resChange then
    let s := match getPicByPOC s decodedPoc with
      | none => s
      | some p => markPic (pbSkip c s p) p
    if c.efficiencyMode then s else outputPicDisplay c s 0 false
  else
    let early := decide (s.vfPreCount = 1) && decide (s.firstPicFlag = 1)
    let pic := if early then none else getPicByPOC s decodedPoc
    let s := if early then { s with firstPicFlag := 2 } else s
    { flushOutput c s pic with resChange := false }

/-! ## The calls -/

/-- What the header of a picture says. -/
structure Header where
  idr : Bool := false
  poc : Int := 0
  width : Nat := 64
  height : Nat := 64
  numReorder : Nat := 1

/-- What `hevc_slice_segment_header_process` takes from the header of a picture. -/
def readHeader (h : Header) : State :=
  { s with
    idr := h.idr
    spsNumReorderPics0 := h.numReorder
    iPrevPOC := s.currPOC
    currPOC := h.poc
    picW := h.width
    picH := h.height
    resChange := s.resChange || s.picW ≠ h.width || s.picH ≠ h.height }

/-- What is found out about a picture while it is decoded. -/
structure Marks where
  sliceType : Nat := 0
  errorMark : Bool := false
  nodispMark : Bool := false
  dropFlag : Bool := false
  needMmuCopy : Bool := false

def setMarks (p : Pic) (m : Marks) : State :=
  s.setPic p { s.mPIC p with
    sliceType := m.sliceType
    errorMark := m.errorMark
    nodispMark := m.nodispMark
    dropFlag := m.dropFlag
    needMmuCopy := m.needMmuCopy }

/-- The display gives references to a picture back, and the picture with the last one. -/
def returnPic (p : Pic) (vfRef : Nat) (ready : Bool) : State :=
  s.setPic p { s.mPIC p with vfRef := vfRef, outputReady := (s.mPIC p).outputReady && ready }

/-- `get_new_pic`, and what `cur_pic` is then. -/
def nextPic (a : Allocs) : State :=
  let r := getNewPic c s a
  { r.2 with curPic := r.1, decodeIdx := if r.1.isSome then r.2.decodeIdx + 1 else r.2.decodeIdx }

end Functions

end MediaModules.Hevc.Pictures
