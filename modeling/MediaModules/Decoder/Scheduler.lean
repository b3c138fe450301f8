import MediaModules.Lib.Run
import MediaModules.Lib.Bits
import MediaModules.Lib.Shares

/-!
# The decoder scheduler

One thread gives the cores of the hardware to the connected decoders. It works in sections under the
lock; between them decoders finish, connect and ask to be disconnected.
-/
namespace MediaModules.Scheduler

open Lib.Run Lib.Bits Lib.Shares

/-- A set of cores. -/
abbrev Mask := BitVec 64

def VDEC_1 : Nat := 0
def VDEC_HEVC : Nat := 3
def VDEC_HEVCB : Nat := 4
def VDEC_MAX : Nat := 6

def CORE_MASK_HEVC : Mask := 1#64 <<< VDEC_HEVC
def CORE_MASK_HEVC_BACK : Mask := 1#64 <<< VDEC_HEVCB
def CORE_MASK_COMBINE : Mask := 1#64 <<< 31

def PRE_LEVEL_NOT_ENOUGH : Mask := 0xff#64

/-- `cores_with_input`. -/
def coresWithInput (core : Nat) : Bool := core = VDEC_1 || core = VDEC_HEVC

/-- `cores_used`. -/
def coresUsed (core : Nat) : Bool := core = VDEC_1 || core = VDEC_HEVC || core = VDEC_HEVCB

/-- `vdec_core_with_input`. -/
def vdecCoreWithInput (mask : Mask) : Bool :=
  (List.range VDEC_MAX).any fun type => mask.getLsbD type && coresWithInput type

/-- `vdec_core_with_back_core`. -/
def vdecCoreWithBackCore (mask : Mask) : Bool :=
  (List.range VDEC_MAX).any fun type => mask.getLsbD type && !coresWithInput type

/-- `mask_back_core`. -/
def maskBackCore (mask : Mask) : Mask := mask &&& CORE_MASK_HEVC_BACK

inductive VdecStatus
  | uninitialized
  | disconnected
  | connected
  | active
deriving DecidableEq, Repr

/-- What the scheduler keeps of a decoder. -/
structure Vdec where
  status : VdecStatus := .disconnected
  nextStatus : VdecStatus := .disconnected
  activeMask : Mask := 0#64
  schedMask : Mask := 0#64

/-- What the scheduler only reads: the cores of each decoder, its partner of a dual decoder,
`vdec_combine_flag`, and `is_vdec_hevc_combine`. -/
structure Setup where
  coreMask : Nat → Mask
  slave : Nat → Option Nat := fun _ => none
  master : Nat → Option Nat := fun _ => none
  vdecCombineFlag : Int
  vdecHevcCombine : Bool := false

namespace Setup

variable (c : Setup) (v : Nat)

def combined : Bool := c.coreMask v &&& CORE_MASK_COMBINE ≠ 0

/-- The cores of a decoder. -/
def cores : Mask := c.coreMask v &&& ~~~CORE_MASK_COMBINE

/-- `CORE_MASK_VDEC_1`. -/
def CORE_MASK_VDEC_1 : Mask := 1#64 <<< if c.vdecHevcCombine then VDEC_HEVC else VDEC_1

end Setup

/-- How full the buffer of a stream is. -/
structure StreamLevel where
  rp : Nat
  wp : Nat
  size : Nat
  prepareLevel : Nat
  recNumEnough : Bool

/-- `level`. -/
def StreamLevel.level (l : StreamLevel) : Nat :=
  if l.wp < l.rp then (l.size + l.wp - l.rp) % 4294967296 else l.wp - l.rp

/-- What `vdec_ready_to_run` finds of a decoder: its interrupts, its callbacks, whether a frame
based input lacks a chunk, the level of a stream based one, and the debug switches. -/
structure ReadyEnv where
  irqCnt : Nat := 0
  irqThreadCnt : Nat := 0
  backIrqCnt : Nat := 0
  backIrqThreadCnt : Nat := 0
  runReady : Option (Mask → Mask) := none
  errCrcBlock : Bool := false
  sched : Int := 1
  checkInputData : Option (Mask → Mask) := none
  frameUnderrun : Bool := false
  stream : Option StreamLevel := none
  stepMode : Nat := 0
  id : Nat := 0
  dualCoreDebug : Bool := false

namespace ReadyEnv

variable (e : ReadyEnv)

/-- What is left to do when input is missing: nothing, but for a back core that can run. -/
def underrun (ready : Mask) : Except Mask Bool := if ready ≠ 0 then .ok false else .error 0

/-- The input of a decoder: the mask it returns at once, or whether `run_ready` is to be asked. -/
def inputCheck (ready mask : Mask) : Except Mask Bool :=
  if !vdecCoreWithInput mask then .ok true
  else
    (if e.frameUnderrun then underrun ready else .ok true).bind fun check =>
      match e.stream with
      | none => .ok check
      | some l =>
        (if l.level = 0 then underrun ready else .ok check).bind fun check =>
          if l.level < l.prepareLevel ∧ !l.recNumEnough then
            if e.stepMode &&& 0x200 ≠ 0 ∧ e.stepMode &&& 0xff = e.id then .error mask
            else underrun ready
          else .ok check

/-- What `run_ready` answers, which is asked for all but the back core. -/
def askRunReady (mask : Mask) : Mask :=
  let ready := e.runReady.elim 0 fun f => f (mask &&& ~~~CORE_MASK_HEVC_BACK)
  if ready = 0xffffffff#64 then 0 else if ready = PRE_LEVEL_NOT_ENOUGH then 0 else ready

end ReadyEnv

/-- Where the thread is between two sections under the lock. In `elect` it looks for a decoder for a
core, first behind the last one and then from the beginning. -/
inductive Phase
  | idle
  | elect (core : Nat) (fromLast : Bool)
  | grant (v : Nat) (mask : Mask)
  | finish
deriving DecidableEq, Repr

/-- `struct vdec_core_s`, with the thread's own `disconnecting_list` and its calls of `run`. -/
structure Core where
  connectedVdecList : List Nat := []
  disconnectingList : List Nat := []
  schedMask : Mask := 0#64
  lastVdec : Option Nat := none
  lastHevc : Option Nat := none
  lastHevcBack : Option Nat := none
  lastRunVdec : Option Nat := none
  vdec : Nat → Vdec := fun _ => {}
  phase : Phase := .idle
  runs : List (Nat × Mask) := []

namespace Core

variable (c : Setup) (s : Core)

def setVdec (v : Nat) (x : Vdec) : Core := { s with vdec := Function.update s.vdec v x }

@[simp] theorem setVdec_self (v : Nat) (x : Vdec) : (s.setVdec v x).vdec v = x := by
  simp only [setVdec, Function.update_self]

theorem setVdec_of_ne {v w : Nat} (h : w ≠ v) (x : Vdec) :
    (s.setVdec v x).vdec w = s.vdec w := by
  simp only [setVdec, Function.update_of_ne h]

/-! ## Which cores a decoder can have -/

/-- `vdec_schedule_mask`. -/
def vdecScheduleMask (v : Nat) : Mask :=
  let mask := c.cores v
  if c.combined v then if mask &&& ~~~s.schedMask = mask then mask else 0
  else if c.vdecCombineFlag ≠ 0 ∧ s.schedMask ≠ 0 then 0
  else mask &&& ~~~(s.vdec v).schedMask &&& ~~~s.schedMask

/-- The decoder waits for its interrupt thread. -/
def waitsForIrq (e : ReadyEnv) (mask : Mask) : Bool :=
  if (mask = c.CORE_MASK_VDEC_1 ∨ mask = CORE_MASK_HEVC) ∧ e.irqCnt > e.irqThreadCnt then true
  else if mask = CORE_MASK_HEVC_BACK ∧ e.backIrqCnt > e.backIrqThreadCnt then true
  else e.irqCnt > e.irqThreadCnt && e.backIrqCnt > e.backIrqThreadCnt

/-- The back core is ready. -/
def backReady (v : Nat) (e : ReadyEnv) (mask : Mask) : Mask :=
  if vdecCoreWithBackCore mask ∧ !c.combined v ∧
      e.checkInputData.elim (0 : Mask) (fun f => f mask) ≠ 0 then
    maskBackCore mask
  else 0

/-- What a debug switch takes back of the cores that are ready. -/
def trimDebug (e : ReadyEnv) (ready : Mask) : Mask :=
  if e.dualCoreDebug then
    let ready := if s.schedMask &&& (CORE_MASK_HEVC_BACK ||| CORE_MASK_HEVC) ≠ 0 then 0 else ready
    if ready = CORE_MASK_HEVC_BACK ||| CORE_MASK_HEVC then CORE_MASK_HEVC_BACK else ready
  else ready

/-- What is taken back of the cores that are ready. -/
def trim (v : Nat) (e : ReadyEnv) (ready : Mask) : Mask :=
  if c.combined v then ready
  else
    let ready := trimDebug s e ready
    if c.vdecCombineFlag ≠ 0 ∧ ready &&& CORE_MASK_HEVC_BACK ≠ 0 ∧ ready &&& CORE_MASK_HEVC ≠ 0
    then ready &&& CORE_MASK_HEVC_BACK
    else ready

/-- The checks before the input is looked at. -/
def notReady (v : Nat) (e : ReadyEnv) (mask : Mask) : Bool :=
  let x := s.vdec v
  x.nextStatus = .disconnected || (x.status ≠ .connected && x.status ≠ .active) ||
    waitsForIrq c e mask || e.runReady.isNone || e.errCrcBlock ||
    (((c.slave v).isSome || (c.master v).isSome) && e.sched = 0)

/-- The cores that are ready, `run_ready` being asked for those with input. -/
def readyCores (v : Nat) (e : ReadyEnv) (mask : Mask) (check : Bool) : Mask :=
  let ready := backReady c v e mask
  if mask &&& ~~~CORE_MASK_HEVC_BACK ≠ 0 ∧ check then ready ||| (e.askRunReady mask &&& mask)
  else ready

/-- `vdec_ready_to_run`. -/
def vdecReadyToRun (v : Nat) (e : ReadyEnv) (mask : Mask) : Mask :=
  if notReady c s v e mask then 0
  else
    match e.inputCheck (backReady c v e mask) mask with
    | .error ready => ready
    | .ok check =>
      if e.stepMode ≠ 0 ∧ e.stepMode &&& 0xff ≠ e.id then 0
      else trim c s v e (readyCores c v e mask check)

/-! ## The thread -/

/-- The cores the decoder is asked about when a decoder for `core` is wanted. -/
def offered (core v : Nat) : Mask :=
  if c.vdecCombineFlag = 0 then vdecScheduleMask c s v &&& 1#64 <<< core
  else vdecScheduleMask c s v

/-- `vdec_get_last_vdec`; with combined decoders, `last_run_vdec`. -/
def vdecGetLastVdec (core : Nat) : Option Nat :=
  if c.vdecCombineFlag ≠ 0 then s.lastRunVdec
  else if core = VDEC_1 then s.lastVdec
  else if core = VDEC_HEVC then s.lastHevc
  else if core = VDEC_HEVCB then s.lastHevcBack
  else none

/-- The search behind the last decoder. -/
def electBehind (env : Nat → ReadyEnv) (core : Nat) : List Nat → Option (Nat × Mask)
  | [] => none
  | v :: vs =>
    let mask := offered c s core v
    if mask = 0 then electBehind env core vs
    else
      let ready := vdecReadyToRun c s v (env v) mask
      if ready ≠ 0 then some (v, ready) else electBehind env core vs

/-- The search from the beginning, to the last decoder. -/
def electFrom (env : Nat → ReadyEnv) (core : Nat) : List Nat → Option (Nat × Mask)
  | [] => none
  | v :: vs =>
    let mask := offered c s core v
    let ready := if mask = 0 then 0 else vdecReadyToRun c s v (env v) mask
    if ready ≠ 0 then some (v, ready)
    else if vdecGetLastVdec c s core = some v then none
    else electFrom env core vs

/-- A decoder that released cores gives them back. -/
def giveBack (v : Nat) : Core :=
  let x := s.vdec v
  let mask := x.schedMask &&& (x.activeMask ^^^ x.schedMask)
  { s.setVdec v { x with schedMask := x.schedMask &&& ~~~mask } with
    schedMask := s.schedMask &&& ~~~mask }

def releaseUnused : List Nat → Core → Core
  | [], s => s
  | v :: vs, s => releaseUnused vs (s.giveBack v)

/-- The decoder is to leave. -/
def leaves (v : Nat) : Bool :=
  (s.vdec v).status = .connected && (s.vdec v).nextStatus = .disconnected

/-- The decoders that are to leave are moved to `disconnecting_list`. -/
def checkDisconnected : Core :=
  let stay (last : Option Nat) : Option Nat :=
    last.filter fun v => !(v ∈ s.connectedVdecList && s.leaves v)
  { s with
    connectedVdecList := s.connectedVdecList.filter fun v => !s.leaves v
    disconnectingList := (s.connectedVdecList.filter s.leaves).reverse ++ s.disconnectingList
    lastVdec := stay s.lastVdec
    lastHevc := stay s.lastHevc
    lastHevcBack := stay s.lastHevcBack
    lastRunVdec := stay s.lastRunVdec }

/-- `vdec_set_last_vdec`. -/
def vdecSetLastVdec (v format : Nat) : Core :=
  { s with
    lastVdec := if format = VDEC_1 then some v else s.lastVdec
    lastHevc := if format = VDEC_HEVC then some v else s.lastHevc
    lastHevcBack := if format = VDEC_HEVCB then some v else s.lastHevcBack
    lastRunVdec :=
      if !c.combined v ∧ c.vdecCombineFlag ≠ 0 ∧ format = VDEC_HEVCB then s.lastRunVdec
      else some v }

/-- `vdec_set_last_vdec` for each core of a mask. -/
def setLastVdecs (v : Nat) : List Nat → Core → Core
  | [], s => s
  | format :: formats, s => setLastVdecs v formats (vdecSetLastVdec c s v format)

/-- The decoder is given the cores, and runs. -/
def grant (v : Nat) (mask : Mask) : Core :=
  let x := s.vdec v
  let t := setLastVdecs c v ((List.range 64).filter fun k => mask.getLsbD k)
    (s.setVdec v { x with
      activeMask := x.activeMask ||| mask
      schedMask := x.schedMask ||| mask
      status := .active })
  { t with schedMask := t.schedMask ||| mask, runs := t.runs ++ [(v, mask)], phase := .finish }

/-- The decoders of `disconnecting_list` are disconnected. -/
def removeDisconnected : Core :=
  { s with
    vdec := fun v =>
      if v ∈ s.disconnectingList then { s.vdec v with status := .disconnected } else s.vdec v
    disconnectingList := []
    phase := .idle }

/-- The core to look at next. -/
def nextCore : Nat → Phase
  | 0 => .finish
  | core + 1 => .elect core true

/-- A decoder was found, or the search goes on. -/
def found (next : Phase) : Option (Nat × Mask) → Core
  | some (v, mask) => { s with phase := .grant v mask }
  | none => { s with phase := next }

/-- The next section of `vdec_core_thread`; `none` when it follows a decoder that is not in the
list. -/
def threadStep (env : Nat → ReadyEnv) : Option Core :=
  match s.phase with
  | .idle =>
    let t := (releaseUnused s.connectedVdecList s).checkDisconnected
    some { t with phase := .elect (VDEC_MAX - 1) true }
  | .elect core true =>
    if !coresUsed core || s.schedMask.getLsbD core then some { s with phase := nextCore core }
    else
      match vdecGetLastVdec c s core with
      | none => some { s with phase := .elect core false }
      | some last =>
        if last ∈ s.connectedVdecList then
          some (s.found (.elect core false) (electBehind c s env core
            (s.connectedVdecList.dropWhile fun v => v ≠ last).tail))
        else none
  | .elect core false =>
    some (s.found (nextCore core) (electFrom c s env core s.connectedVdecList))
  | .grant v mask => some (s.grant c v mask)
  | .finish => some s.removeDisconnected

/-! ## The other calls -/

/-- `vdec_core_finish_run`. -/
def vdecCoreFinishRun (v : Nat) (mask : Mask) : Core :=
  let x := s.vdec v
  let active := x.activeMask &&& ~~~mask
  s.setVdec v { x with
    activeMask := active
    status := if active = 0 then .connected else x.status }

/-- A decoder joins the list; `none` when it is already in a list. -/
def join (v : Nat) : Option Core :=
  if v ∈ s.connectedVdecList ∨ v ∈ s.disconnectingList then none
  else some { s.setVdec v { s.vdec v with status := .connected, nextStatus := .connected } with
    connectedVdecList := s.connectedVdecList ++ [v] }

/-- `vdec_connect`. -/
def vdecConnect (v : Nat) : Option Core :=
  if (s.vdec v).status ≠ .disconnected then some s
  else (s.join v).bind fun t => (c.slave v).elim (some t) t.join

/-- `vdec_set_next_status` to `VDEC_STATUS_DISCONNECTED`. -/
def askDisconnect (v : Nat) : Core := s.setVdec v { s.vdec v with nextStatus := .disconnected }

/-- The request of `vdec_disconnect`. -/
def vdecDisconnect (v : Nat) : Core :=
  if (s.vdec v).status ≠ .connected ∧ (s.vdec v).status ≠ .active then s
  else
    let t := s.askDisconnect v
    match c.slave v with
    | some slave => t.askDisconnect slave
    | none => (c.master v).elim t t.askDisconnect

end Core

/-- What happens next: a section of the thread, or a call. -/
inductive Op
  | thread (env : Nat → ReadyEnv)
  | finishRun (v : Nat) (mask : Mask)
  | connect (v : Nat)
  | disconnect (v : Nat)

def step (c : Setup) (s : Core) : Op → Option Core
  | .thread env => s.threadStep c env
  | .finishRun v mask => some (s.vdecCoreFinishRun v mask)
  | .connect v => s.vdecConnect c v
  | .disconnect v => some (s.vdecDisconnect c v)

/-- A decoder is connected with a slave that is in no list, decoders finish with cores they run on,
and a combined decoder answers `run_ready` with nothing or with all it is offered. -/
def Allowed (c : Setup) (s : Core) : Op → Prop
  | .thread env => ∀ v, c.combined v = true → ∀ f, (env v).runReady = some f →
    ∀ mask, f mask = 0 ∨ f mask &&& mask = mask
  | .finishRun v mask => (s.vdec v).activeMask ≠ 0 ∧ mask &&& ~~~(s.vdec v).activeMask = 0
  | .connect v => (s.vdec v).status = .disconnected → ∀ slave, c.slave v = some slave →
    slave ≠ v ∧ slave ∉ s.connectedVdecList ∧ slave ∉ s.disconnectingList
  | .disconnect _ => True

/-! ## Who has which core -/

/-- No core is given to two decoders, the scheduler knows which cores are given, decoders run on
cores they have, combined decoders start with all their cores, and who leaves has none. -/
structure Exclusive (c : Setup) (s : Core) : Prop where
  apart : ∀ v ∈ s.connectedVdecList, ∀ w ∈ s.connectedVdecList, v ≠ w →
    (s.vdec v).schedMask &&& (s.vdec w).schedMask = 0
  union : s.schedMask = s.connectedVdecList.foldr (fun v mask => (s.vdec v).schedMask ||| mask) 0
  active : ∀ v ∈ s.connectedVdecList, (s.vdec v).activeMask &&& ~~~(s.vdec v).schedMask = 0
  whole : ∀ r ∈ s.runs, c.combined r.1 = true → r.2 = c.cores r.1
  left : ∀ v, v ∉ s.connectedVdecList → (s.vdec v).schedMask = 0

/-- While a combined decoder with more than one core is connected, `vdec_combine_flag` is set; and
one with a back core asks for it when it is ready. -/
def Together (c : Setup) (s : Core) : Op → Prop
  | .thread env => ∀ v ∈ s.connectedVdecList, c.combined v = true →
    (c.vdecCombineFlag ≠ 0 ∨ ∀ core : Nat, c.cores v &&& 1#64 <<< core = 0 ∨
      c.cores v &&& 1#64 <<< core = c.cores v) ∧
    (c.cores v &&& CORE_MASK_HEVC_BACK ≠ 0 → (env v).askRunReady (c.cores v) = 0 ∨
      (env v).askRunReady (c.cores v) &&& CORE_MASK_HEVC_BACK ≠ 0)
  | _ => True

/-! ## What a decoder is ready for -/

section Ready

open Scheduler.Core

variable {c : Setup} {s : Core} {v : Nat} {e : ReadyEnv} {mask ready r : Mask}

theorem underrun_error (h : ReadyEnv.underrun ready = .error r) : r = 0 := by
  unfold ReadyEnv.underrun at h
  split at h
  · exact absurd h nofun
  · exact (Except.error.inj h).symm

/-- Without input a decoder is not ready, but for a debug switch. -/
theorem inputCheck_error (h : e.inputCheck ready mask = .error r) : r = 0 ∨ r = mask := by
  unfold ReadyEnv.inputCheck at h
  split at h
  · exact absurd h nofun
  · obtain ⟨first, hfirst⟩ : ∃ first, (if e.frameUnderrun then ReadyEnv.underrun ready
        else .ok true) = first := ⟨_, rfl⟩
    rw [hfirst] at h
    cases first with
    | error r' =>
      apply Or.inl
      rw [← Except.error.inj h]
      split at hfirst
      · exact underrun_error hfirst
      · exact absurd hfirst nofun
    | ok check =>
      simp only [Except.bind] at h
      split at h
      · exact absurd h nofun
      · next l _ =>
        obtain ⟨second, hsecond⟩ : ∃ second, (if l.level = 0 then ReadyEnv.underrun ready
            else .ok check) = second := ⟨_, rfl⟩
        rw [hsecond] at h
        cases second with
        | error r' =>
          apply Or.inl
          rw [← Except.error.inj h]
          split at hsecond
          · exact underrun_error hsecond
          · exact absurd hsecond nofun
        | ok check' =>
          dsimp only at h
          split at h
          · split at h
            · exact Or.inr (Except.error.inj h).symm
            · exact Or.inl (underrun_error h)
          · exact absurd h nofun

theorem bits_backReady : bits (backReady c v e mask) ⊆ bits mask := by
  unfold backReady maskBackCore
  split
  · rw [bits_and]
    exact Finset.inter_subset_left
  · rw [show bits (0 : Mask) = ∅ from bits_zero]
    exact Finset.empty_subset _

theorem bits_back_subset {x : Mask} : bits (x &&& CORE_MASK_HEVC_BACK) ⊆ bits x := by
  rw [bits_and]
  exact Finset.inter_subset_left

theorem bits_zero_subset {x : Mask} : bits (0 : Mask) ⊆ bits x := by
  rw [show bits (0 : Mask) = ∅ from bits_zero]
  exact Finset.empty_subset _

theorem bits_trimDebug : bits (s.trimDebug e ready) ⊆ bits ready := by
  unfold trimDebug
  split
  · obtain ⟨kept, hkept⟩ : ∃ kept, (if s.schedMask &&& (CORE_MASK_HEVC_BACK ||| CORE_MASK_HEVC) ≠ 0
        then 0 else ready) = kept := ⟨_, rfl⟩
    have hsub : bits kept ⊆ bits ready := by
      rw [← hkept]
      split
      · exact bits_zero_subset
      · exact Finset.Subset.refl _
    dsimp only
    rw [hkept]
    split
    · next hboth =>
      rw [hboth, bits_or] at hsub
      exact Finset.subset_union_left.trans hsub
    · exact hsub
  · exact Finset.Subset.refl _

theorem bits_trim : bits (s.trim c v e ready) ⊆ bits ready := by
  unfold trim
  split
  · exact Finset.Subset.refl _
  · dsimp only
    split
    · exact bits_back_subset.trans bits_trimDebug
    · exact bits_trimDebug

theorem bits_readyCores {check : Bool} : bits (readyCores c v e mask check) ⊆ bits mask := by
  have hback : bits (backReady c v e mask) ⊆ bits mask := bits_backReady
  unfold readyCores
  dsimp only
  split
  · rw [bits_or, bits_and]
    exact Finset.union_subset hback Finset.inter_subset_right
  · exact hback

/-- The answers of `vdec_ready_to_run`. -/
theorem vdecReadyToRun_cases (c : Setup) (s : Core) (v : Nat) (e : ReadyEnv) (mask : Mask) :
    s.vdecReadyToRun c v e mask = 0 ∨ s.vdecReadyToRun c v e mask = mask ∨
    ∃ check, s.vdecReadyToRun c v e mask = s.trim c v e (readyCores c v e mask check) := by
  unfold vdecReadyToRun
  split
  · exact Or.inl rfl
  · split
    · next herror => exact (inputCheck_error herror).imp_right Or.inl
    · split
      · exact Or.inl rfl
      · exact Or.inr (Or.inr ⟨_, rfl⟩)

/-- A decoder runs on cores it was offered. -/
theorem bits_vdecReadyToRun : bits (s.vdecReadyToRun c v e mask) ⊆ bits mask := by
  rcases vdecReadyToRun_cases c s v e mask with
    h | h | ⟨check, h⟩
  · rw [h]
    exact bits_zero_subset
  · rw [h]
  · rw [h]
    exact bits_trim.trans bits_readyCores

/-- A decoder that answers with all it is offered, and with the back core when it needs it, gets
all. -/
theorem askRunReady_all
    (hagrees : ∀ f, e.runReady = some f → ∀ mask, f mask = 0 ∨ f mask &&& mask = mask)
    (hback : mask &&& CORE_MASK_HEVC_BACK ≠ 0 → e.askRunReady mask = 0 ∨
      e.askRunReady mask &&& CORE_MASK_HEVC_BACK ≠ 0) :
    e.askRunReady mask = 0 ∨ e.askRunReady mask &&& mask = mask := by
  have hsome : e.askRunReady mask = 0 ∨
      e.askRunReady mask &&& (mask &&& ~~~CORE_MASK_HEVC_BACK) =
        mask &&& ~~~CORE_MASK_HEVC_BACK := by
    unfold ReadyEnv.askRunReady
    cases hf : e.runReady with
    | none => exact Or.inl rfl
    | some f =>
      dsimp only [Option.elim]
      split
      · exact Or.inl rfl
      · split
        · exact Or.inl rfl
        · exact hagrees f hf _
  have hbit : bits CORE_MASK_HEVC_BACK = {VDEC_HEVCB} := bits_shift (by decide)
  rcases hsome with hzero | hfront
  · exact Or.inl hzero
  · rw [and_eq_right, bits_and_not, hbit] at hfront
    by_cases hmask : mask &&& CORE_MASK_HEVC_BACK = 0
    · refine Or.inr ((and_eq_right _ _).mpr ?_)
      have hout : VDEC_HEVCB ∉ bits mask := by
        rw [← Finset.disjoint_singleton_right, ← hbit, disjoint_iff]
        exact hmask
      rwa [Finset.sdiff_singleton_eq_erase, Finset.erase_eq_of_notMem hout] at hfront
    · refine (hback hmask).imp_right fun hin => (and_eq_right _ _).mpr fun k hk => ?_
      by_cases hk4 : k = VDEC_HEVCB
      · by_contra hout
        refine hin ((disjoint_iff _ _).mp ?_)
        rw [hbit, Finset.disjoint_singleton_right, ← hk4]
        exact hout
      · exact hfront (Finset.mem_sdiff.mpr ⟨hk, fun hmem => hk4 (Finset.mem_singleton.mp hmem)⟩)

/-- A combined decoder runs with all its cores or not at all. -/
theorem vdecReadyToRun_combined (hcombined : c.combined v = true)
    (hall : e.askRunReady mask = 0 ∨ e.askRunReady mask &&& mask = mask) :
    s.vdecReadyToRun c v e mask = 0 ∨ s.vdecReadyToRun c v e mask = mask := by
  have hcores (check : Bool) : readyCores c v e mask check = 0 ∨
      readyCores c v e mask check = mask := by
    have hnone : backReady c v e mask = 0 := by simp [backReady, hcombined]
    unfold readyCores
    rw [hnone]
    dsimp only
    split
    · rw [show (0 : Mask) ||| (e.askRunReady mask &&& mask) = e.askRunReady mask &&& mask from
        BitVec.zero_or]
      apply hall.imp_left
      intro hzero
      rw [hzero]
      exact BitVec.zero_and
    · exact Or.inl rfl
  rcases vdecReadyToRun_cases c s v e mask with h | h | ⟨check, h⟩
  · exact Or.inl h
  · exact Or.inr h
  · rw [h, trim, if_pos hcombined]
    exact hcores check

end Ready

/-! ## The shares of the decoders -/

/-- The decoders a later search may start from. -/
def Core.lasts (s : Core) : List (Option Nat) :=
  [s.lastVdec, s.lastHevc, s.lastHevcBack, s.lastRunVdec]

/-- What holds between two steps. -/
structure Sound (s : Core) : Prop where
  split : Split s.connectedVdecList (fun v => bits (s.vdec v).schedMask) (bits s.schedMask)
  once : s.connectedVdecList.Nodup
  active : ∀ v, bits (s.vdec v).activeMask ⊆ bits (s.vdec v).schedMask
  listed : ∀ v ∈ s.connectedVdecList, (s.vdec v).status = .active ∨
    (s.vdec v).status = .connected ∧ (s.vdec v).activeMask = 0
  left : ∀ v, v ∉ s.connectedVdecList → (s.vdec v).schedMask = 0
  gone : ∀ v ∈ s.disconnectingList, v ∉ s.connectedVdecList ∧ (s.vdec v).status = .connected
  last : ∀ v, some v ∈ s.lasts → v ∈ s.connectedVdecList
  granted : ∀ v mask, s.phase = .grant v mask →
    v ∈ s.connectedVdecList ∧ Disjoint (bits mask) (bits s.schedMask)

section Steps

open Scheduler.Core

variable {c : Setup} {s t : Core} {v : Nat} {mask : Mask}

theorem sound_start : Sound {} :=
  ⟨⟨nofun, fun _ => iff_of_false (by simp) nofun⟩, List.nodup_nil, fun _ => Finset.Subset.refl _,
    nofun, fun _ _ => rfl, nofun, by simp [lasts], nofun⟩

/-- A decoder changes, but not its cores. -/
theorem Sound.setVdec (h : Sound s) (x : Vdec) (hsched : x.schedMask = (s.vdec v).schedMask)
    (hactive : bits x.activeMask ⊆ bits x.schedMask)
    (hlisted : v ∈ s.connectedVdecList → x.status = .active ∨
      x.status = .connected ∧ x.activeMask = 0)
    (hgone : v ∈ s.disconnectingList → x.status = .connected) : Sound (s.setVdec v x) := by
  have hall {P : Nat → Vdec → Prop} (hother : ∀ w, w ≠ v → P w (s.vdec w)) (hself : P v x)
      (w : Nat) : P w ((s.setVdec v x).vdec w) := by
    by_cases hw : w = v
    · rw [hw, setVdec_self]
      exact hself
    · rw [setVdec_of_ne s hw]
      exact hother w hw
  have hshare (w : Nat) : ((s.setVdec v x).vdec w).schedMask = (s.vdec w).schedMask :=
    hall (P := fun w y => y.schedMask = (s.vdec w).schedMask) (fun _ _ => rfl) hsched w
  refine ⟨h.split.congr fun w _ => by rw [hshare], h.once,
    hall (P := fun _ y => bits y.activeMask ⊆ bits y.schedMask) (fun w _ => h.active w) hactive,
    fun w hw => ?_, fun w hw => (hshare w).trans (h.left w hw), fun w hw => ⟨(h.gone w hw).1, ?_⟩,
    h.last, h.granted⟩
  · exact hall (P := fun w y => w ∈ s.connectedVdecList → y.status = .active ∨
      y.status = .connected ∧ y.activeMask = 0) (fun w _ => h.listed w) hlisted w hw
  · exact hall (P := fun w y => w ∈ s.disconnectingList → y.status = .connected)
      (fun w _ hw => (h.gone w hw).2) hgone w hw

/-- A decoder that has cores is connected. -/
theorem Sound.mem_of_active (h : Sound s) (hactive : (s.vdec v).activeMask ≠ 0) :
    v ∈ s.connectedVdecList := by
  by_contra hout
  have hsub := h.active v
  rw [h.left v hout, show bits (0 : Mask) = ∅ from bits_zero, Finset.subset_empty,
    bits_eq_empty] at hsub
  exact hactive hsub

theorem Sound.finishRun (h : Sound s) (hactive : (s.vdec v).activeMask ≠ 0) (mask : Mask) :
    Sound (s.vdecCoreFinishRun v mask) := by
  have hmem := h.mem_of_active hactive
  refine h.setVdec _ rfl ?_ (fun _ => ?_) fun hgone => absurd hmem (h.gone v hgone).1
  · show bits ((s.vdec v).activeMask &&& ~~~mask) ⊆ bits (s.vdec v).schedMask
    rw [bits_and_not]
    exact Finset.sdiff_subset.trans (h.active v)
  · show (if (s.vdec v).activeMask &&& ~~~mask = 0 then _ else _) = _ ∨ _
    split
    · next hzero => exact Or.inr ⟨rfl, hzero⟩
    · rcases h.listed v hmem with hstatus | ⟨-, hnone⟩
      · exact Or.inl hstatus
      · exact absurd hnone hactive

theorem Sound.askDisconnect (h : Sound s) (v : Nat) : Sound (s.askDisconnect v) :=
  h.setVdec _ rfl (h.active v) (h.listed v) fun hgone => (h.gone v hgone).2

theorem Sound.disconnect (h : Sound s) (v : Nat) : Sound (s.vdecDisconnect c v) := by
  unfold vdecDisconnect
  split
  · exact h
  · have hself := h.askDisconnect v
    dsimp only
    split
    · exact hself.askDisconnect _
    · cases c.master v with
      | none => exact hself
      | some master => exact hself.askDisconnect master

/-- A decoder that is not connected has nothing. -/
theorem Sound.active_of_not_mem (h : Sound s) (hout : v ∉ s.connectedVdecList) :
    (s.vdec v).activeMask = 0 := by
  by_contra hactive
  exact hout (h.mem_of_active hactive)

theorem Sound.join (h : Sound s) (hconnected : v ∉ s.connectedVdecList)
    (hdisconnecting : v ∉ s.disconnectingList) : ∃ t, s.join v = some t ∧ Sound t ∧
      t.connectedVdecList = s.connectedVdecList ++ [v] ∧
      t.disconnectingList = s.disconnectingList := by
  have hset := h.setVdec { s.vdec v with status := .connected, nextStatus := .connected } rfl
    (h.active v) (fun hmem => absurd hmem hconnected) fun hmem => absurd hmem hdisconnecting
  have hin {w : Nat} (hw : w ∈ s.connectedVdecList) : w ∈ s.connectedVdecList ++ [v] :=
    List.mem_append_left [v] hw
  refine ⟨_, if_neg (not_or.mpr ⟨hconnected, hdisconnecting⟩), ?_, rfl, rfl⟩
  refine ⟨hset.split.exchange fun w hw => ⟨hin, fun hmem => ?_⟩, ?_, hset.active, fun w hw => ?_,
    fun w hw => hset.left w fun hmem => hw (hin hmem), fun w hw => ?_,
    fun w hw => hin (hset.last w hw), fun w mask hgrant => ?_⟩
  · rcases List.mem_append.mp hmem with hmem | hmem
    · exact hmem
    · refine absurd ?_ hw
      rw [List.mem_singleton.mp hmem]
      exact (bits_eq_empty _).mpr (hset.left v hconnected)
  · exact List.nodup_append.mpr ⟨h.once, List.nodup_singleton v, fun a ha b hb heq =>
      hconnected (List.mem_singleton.mp hb ▸ heq ▸ ha)⟩
  · rcases List.mem_append.mp hw with hw | hw
    · exact hset.listed w hw
    · rw [List.mem_singleton.mp hw]
      refine Or.inr ⟨?_, hset.active_of_not_mem hconnected⟩
      exact congrArg Vdec.status (setVdec_self s v _)
  · obtain ⟨hout, hstatus⟩ := hset.gone w hw
    refine ⟨fun hmem => ?_, hstatus⟩
    rcases List.mem_append.mp hmem with hmem | hmem
    · exact hout hmem
    · exact hdisconnecting (List.mem_singleton.mp hmem ▸ hw)
  · obtain ⟨hmem, hdisjoint⟩ := hset.granted w mask hgrant
    exact ⟨hin hmem, hdisjoint⟩

theorem Sound.connect (h : Sound s) (hslave : (s.vdec v).status = .disconnected → ∀ slave,
    c.slave v = some slave →
      slave ≠ v ∧ slave ∉ s.connectedVdecList ∧ slave ∉ s.disconnectingList) :
    ∃ t, s.vdecConnect c v = some t ∧ Sound t := by
  unfold vdecConnect
  by_cases hstatus : (s.vdec v).status = .disconnected
  · rw [if_neg (not_not_intro hstatus)]
    have hconnected : v ∉ s.connectedVdecList := fun hmem => by
      rcases h.listed v hmem with hs | ⟨hs, -⟩
      all_goals
        rw [hstatus] at hs
        exact absurd hs nofun
    have hdisconnecting : v ∉ s.disconnectingList := fun hmem => by
      have hs := (h.gone v hmem).2
      rw [hstatus] at hs
      exact absurd hs nofun
    obtain ⟨t, ht, hsound, hlist, hgone⟩ := h.join hconnected hdisconnecting
    rw [ht]
    cases hs : c.slave v with
    | none => exact ⟨t, rfl, hsound⟩
    | some slave =>
      obtain ⟨hne, hout, hout'⟩ := hslave hstatus slave hs
      obtain ⟨u, hu, hsound', -⟩ := hsound.join (v := slave)
        (by simpa [hlist] using ⟨hout, hne⟩) (hgone ▸ hout')
      exact ⟨u, hu, hsound'⟩
  · rw [if_pos hstatus]
    exact ⟨s, rfl, h⟩

/-! ## The sections of the thread -/

/-- Nothing changes but the cores the decoders have. -/
structure SameButShares (s t : Core) : Prop where
  connected : t.connectedVdecList = s.connectedVdecList
  disconnecting : t.disconnectingList = s.disconnectingList
  lasts : t.lasts = s.lasts
  runs : t.runs = s.runs
  phase : t.phase = s.phase
  status : ∀ v, (t.vdec v).status = (s.vdec v).status
  next : ∀ v, (t.vdec v).nextStatus = (s.vdec v).nextStatus
  active : ∀ v, (t.vdec v).activeMask = (s.vdec v).activeMask

theorem SameButShares.refl (s : Core) : SameButShares s s :=
  ⟨rfl, rfl, rfl, rfl, rfl, fun _ => rfl, fun _ => rfl, fun _ => rfl⟩

theorem SameButShares.trans {u : Core} (h : SameButShares s t) (h' : SameButShares t u) :
    SameButShares s u :=
  ⟨h'.connected.trans h.connected, h'.disconnecting.trans h.disconnecting, h'.lasts.trans h.lasts,
    h'.runs.trans h.runs, h'.phase.trans h.phase, fun v => (h'.status v).trans (h.status v),
    fun v => (h'.next v).trans (h.next v), fun v => (h'.active v).trans (h.active v)⟩

/-- The cores left are those the decoder runs on. -/
theorem kept_eq (sched active : Mask) :
    sched &&& ~~~(sched &&& (active ^^^ sched)) = sched &&& active := by
  apply BitVec.eq_of_getLsbD_eq
  intro k hk
  simp only [BitVec.getLsbD_and, BitVec.getLsbD_not, BitVec.getLsbD_xor, hk, decide_true,
    Bool.true_and]
  cases sched.getLsbD k <;> cases active.getLsbD k <;> rfl

theorem giveBack_same (s : Core) (v : Nat) : SameButShares s (s.giveBack v) := by
  have hall {α : Type} (f : Vdec → α) (hf : ∀ x mask, f { x with schedMask := mask } = f x)
      (w : Nat) : f ((s.giveBack v).vdec w) = f (s.vdec w) := by
    by_cases hw : w = v
    · rw [hw]
      exact (congrArg f (setVdec_self s v _)).trans (hf _ _)
    · exact congrArg f (setVdec_of_ne s hw _)
  exact ⟨rfl, rfl, rfl, rfl, rfl, hall Vdec.status fun _ _ => rfl,
    hall Vdec.nextStatus fun _ _ => rfl, hall Vdec.activeMask fun _ _ => rfl⟩

theorem giveBack_schedMask (s : Core) (v : Nat) :
    ((s.giveBack v).vdec v).schedMask = (s.vdec v).schedMask &&& (s.vdec v).activeMask :=
  (congrArg Vdec.schedMask (setVdec_self s v _)).trans (kept_eq _ _)

theorem giveBack_schedMask_of_ne (s : Core) {v w : Nat} (hw : w ≠ v) :
    ((s.giveBack v).vdec w).schedMask = (s.vdec w).schedMask :=
  congrArg Vdec.schedMask (setVdec_of_ne s hw _)

theorem Sound.giveBack (h : Sound s) (hv : v ∈ s.connectedVdecList) : Sound (s.giveBack v) := by
  have hsame := giveBack_same s v
  have hpart : bits ((s.vdec v).schedMask &&& ((s.vdec v).activeMask ^^^ (s.vdec v).schedMask)) ⊆
      bits (s.vdec v).schedMask := by
    rw [bits_and]
    exact Finset.inter_subset_left
  refine ⟨?_, h.once, fun w => ?_, fun w hw => ?_, fun w hw => ?_, fun w hw => ?_, h.last,
    fun w mask hgrant => ?_⟩
  · have hsplit := h.split.giveUp hv hpart
    rw [← bits_and_not, ← bits_and_not] at hsplit
    apply hsplit.congr
    intro w _
    by_cases hw : w = v
    · rw [hw, Function.update_self]
      apply congrArg bits
      exact congrArg Vdec.schedMask (setVdec_self s v _)
    · rw [Function.update_of_ne hw, giveBack_schedMask_of_ne s hw]
  · rw [hsame.active w]
    by_cases hw : w = v
    · rw [hw, giveBack_schedMask, bits_and]
      exact Finset.subset_inter (h.active v) (Finset.Subset.refl _)
    · rw [giveBack_schedMask_of_ne s hw]
      exact h.active w
  · rw [hsame.status w, hsame.active w]
    exact h.listed w hw
  · have hne : w ≠ v := fun heq => hw (heq ▸ hv)
    rw [giveBack_schedMask_of_ne s hne]
    exact h.left w hw
  · rw [hsame.status w]
    exact h.gone w hw
  · obtain ⟨hmem, hdisjoint⟩ := h.granted w mask hgrant
    refine ⟨hmem, Finset.disjoint_of_subset_right ?_ hdisjoint⟩
    show bits (s.schedMask &&& ~~~_) ⊆ bits s.schedMask
    rw [bits_and_not]
    exact Finset.sdiff_subset

theorem Sound.releaseUnused {vs : List Nat} (h : Sound s)
    (hvs : ∀ v ∈ vs, v ∈ s.connectedVdecList) :
    Sound (releaseUnused vs s) ∧ SameButShares s (releaseUnused vs s) := by
  induction vs generalizing s with
  | nil => exact ⟨h, SameButShares.refl s⟩
  | cons v vs ih =>
    obtain ⟨hsound, hsame⟩ := ih (h.giveBack (hvs v List.mem_cons_self)) fun w hw =>
      hvs w (List.mem_cons_of_mem v hw)
    exact ⟨hsound, (giveBack_same s v).trans hsame⟩

/-- A decoder that runs on no core has none left. -/
theorem releaseUnused_idle {vs : List Nat} (hactive : (s.vdec v).activeMask = 0)
    (hv : v ∈ vs ∨ (s.vdec v).schedMask = 0) : ((releaseUnused vs s).vdec v).schedMask = 0 := by
  induction vs generalizing s with
  | nil => exact hv.resolve_left List.not_mem_nil
  | cons w vs ih =>
    apply ih ((giveBack_same s w).active v ▸ hactive)
    by_cases heq : v = w
    · rw [← heq, giveBack_schedMask, hactive]
      exact Or.inr BitVec.and_zero
    · rw [giveBack_schedMask_of_ne s heq]
      exact hv.imp_left fun hmem => List.mem_of_ne_of_mem heq hmem

/-- Decoders that are idle and asked to leave do so without a core. -/
theorem Sound.checkDisconnected (h : Sound s)
    (hidle : ∀ v ∈ s.connectedVdecList, (s.vdec v).activeMask = 0 → (s.vdec v).schedMask = 0)
    (hphase : ∀ v mask, s.phase ≠ .grant v mask) : Sound s.checkDisconnected := by
  have hleft {v : Nat} (hv : v ∈ s.connectedVdecList) (hleaves : s.leaves v = true) :
      (s.vdec v).status = .connected ∧ (s.vdec v).schedMask = 0 := by
    have hstatus : (s.vdec v).status = .connected := by
      simp only [leaves, Bool.and_eq_true, decide_eq_true_eq] at hleaves
      exact hleaves.1
    rcases h.listed v hv with hs | ⟨hs, hactive⟩
    · rw [hs] at hstatus
      exact absurd hstatus nofun
    · exact ⟨hs, hidle v hv hactive⟩
  have hstay {v : Nat} : v ∈ s.checkDisconnected.connectedVdecList ↔
      v ∈ s.connectedVdecList ∧ ¬ s.leaves v = true := by
    show v ∈ s.connectedVdecList.filter _ ↔ _
    rw [List.mem_filter, Bool.not_eq_true', Bool.not_eq_true]
  refine ⟨h.split.exchange fun v hv => ?_, h.once.filter _, h.active, fun v hv => ?_,
    fun v hv => ?_, fun v hv => ?_, fun v hv => ?_, fun v mask hgrant => absurd hgrant (hphase v mask)⟩
  · refine ⟨fun hmem => hstay.mpr ⟨hmem, fun hleaves => hv ?_⟩, fun hmem => (hstay.mp hmem).1⟩
    exact (bits_eq_empty _).mpr (hleft hmem hleaves).2
  · exact h.listed v (hstay.mp hv).1
  · by_cases hmem : v ∈ s.connectedVdecList
    · have hleaves : s.leaves v = true := by
        by_contra hno
        exact hv (hstay.mpr ⟨hmem, hno⟩)
      exact (hleft hmem hleaves).2
    · exact h.left v hmem
  · have hv : v ∈ (s.connectedVdecList.filter s.leaves).reverse ++ s.disconnectingList := hv
    rw [List.mem_append, List.mem_reverse, List.mem_filter] at hv
    rcases hv with ⟨hmem, hleaves⟩ | hv
    · exact ⟨fun hin => (hstay.mp hin).2 hleaves, (hleft hmem hleaves).1⟩
    · exact ⟨fun hin => (h.gone v hv).1 (hstay.mp hin).1, (h.gone v hv).2⟩
  · have hv : some v ∈ s.lasts.map (Option.filter fun v =>
        !(v ∈ s.connectedVdecList && s.leaves v)) := hv
    obtain ⟨last, hlast, hfilter⟩ := List.mem_map.mp hv
    obtain ⟨rfl, hno⟩ := Option.filter_eq_some_iff.mp hfilter
    have hmem := h.last v hlast
    refine hstay.mpr ⟨hmem, fun hleaves => ?_⟩
    simp [hmem, hleaves] at hno

/-- The thread goes on. -/
theorem Sound.phase (h : Sound s) {phase : Phase} (hphase : ∀ v mask, phase = .grant v mask →
    v ∈ s.connectedVdecList ∧ Disjoint (bits mask) (bits s.schedMask)) :
    Sound { s with phase := phase } :=
  ⟨h.split, h.once, h.active, h.listed, h.left, h.gone, h.last, hphase⟩

theorem nextCore_ne (core : Nat) : nextCore core ≠ .grant v mask := by
  cases core <;> exact nofun

/-- The cores a decoder is asked about are not given to another. -/
theorem disjoint_offered (core : Nat) :
    Disjoint (bits (s.offered c core v)) (bits s.schedMask) := by
  have hfree {x : Mask} : Disjoint (bits (x &&& ~~~s.schedMask)) (bits s.schedMask) := by
    rw [bits_and_not]
    exact Finset.sdiff_disjoint
  have hmask : Disjoint (bits (s.vdecScheduleMask c v)) (bits s.schedMask) := by
    have hzero : Disjoint (bits (0 : Mask)) (bits s.schedMask) := by
      rw [show bits (0 : Mask) = ∅ from bits_zero]
      exact Finset.disjoint_empty_left _
    unfold vdecScheduleMask
    dsimp only
    split
    · split
      · next hall =>
        rw [← hall]
        exact hfree
      · exact hzero
    · split
      · exact hzero
      · exact hfree
  unfold offered
  split
  · refine Finset.disjoint_of_subset_left ?_ hmask
    rw [bits_and]
    exact Finset.inter_subset_left
  · exact hmask

/-- A decoder is found: one of the list that is ready for cores it is offered. -/
structure Elected (c : Setup) (s : Core) (env : Nat → ReadyEnv) (core : Nat) (r : Nat × Mask) :
    Prop where
  some : r.2 ≠ 0
  offered : s.offered c core r.1 ≠ 0
  ready : r.2 = s.vdecReadyToRun c r.1 (env r.1) (s.offered c core r.1)

theorem electBehind_elected {env : Nat → ReadyEnv} {core : Nat} {vs : List Nat} {r : Nat × Mask}
    (h : s.electBehind c env core vs = some r) : r.1 ∈ vs ∧ Elected c s env core r := by
  induction vs with
  | nil => exact absurd h nofun
  | cons v vs ih =>
    have hrest (hr : s.electBehind c env core vs = some r) :
        r.1 ∈ v :: vs ∧ Elected c s env core r :=
      (ih hr).imp_left (List.mem_cons_of_mem v)
    simp only [electBehind] at h
    split at h
    · exact hrest h
    · next hoffered =>
      split at h
      · next hready =>
        rw [← Option.some.inj h]
        exact ⟨List.mem_cons_self, hready, hoffered, rfl⟩
      · exact hrest h

theorem electFrom_elected {env : Nat → ReadyEnv} {core : Nat} {vs : List Nat} {r : Nat × Mask}
    (h : s.electFrom c env core vs = some r) : r.1 ∈ vs ∧ Elected c s env core r := by
  induction vs with
  | nil => exact absurd h nofun
  | cons v vs ih =>
    simp only [electFrom] at h
    by_cases hoffered : s.offered c core v = 0
    · simp only [hoffered, if_true, ne_eq, not_true_eq_false, if_false] at h
      split at h
      · exact absurd h nofun
      · exact (ih h).imp_left (List.mem_cons_of_mem v)
    · simp only [hoffered, if_false] at h
      split at h
      · next hready =>
        rw [← Option.some.inj h]
        exact ⟨List.mem_cons_self, hready, hoffered, rfl⟩
      · split at h
        · exact absurd h nofun
        · exact (ih h).imp_left (List.mem_cons_of_mem v)

theorem Elected.free {env : Nat → ReadyEnv} {core : Nat} {r : Nat × Mask}
    (h : Elected c s env core r) : Disjoint (bits r.2) (bits s.schedMask) := by
  rw [h.ready]
  exact Finset.disjoint_of_subset_left bits_vdecReadyToRun (disjoint_offered core)

theorem Sound.found (h : Sound s) {next : Phase} {r : Option (Nat × Mask)}
    (hnext : ∀ v mask, next ≠ .grant v mask)
    (hr : ∀ x, r = some x → x.1 ∈ s.connectedVdecList ∧ Disjoint (bits x.2) (bits s.schedMask)) :
    Sound (s.found next r) := by
  cases r with
  | none => exact h.phase fun v mask hgrant => absurd hgrant (hnext v mask)
  | some x =>
    apply h.phase
    intro v mask hgrant
    injection hgrant with hv hmask
    rw [← hv, ← hmask]
    exact hr x rfl

/-- Only the last decoders change, and only to this one. -/
theorem setLastVdecs_spec (c : Setup) (v : Nat) (formats : List Nat) (s : Core) :
    ∃ vdec hevc hevcBack run, setLastVdecs c v formats s =
        { s with
          lastVdec := vdec, lastHevc := hevc, lastHevcBack := hevcBack, lastRunVdec := run } ∧
      ∀ w, some w ∈ [vdec, hevc, hevcBack, run] → w = v ∨ some w ∈ s.lasts := by
  induction formats generalizing s with
  | nil => exact ⟨_, _, _, _, rfl, fun w hw => Or.inr hw⟩
  | cons format formats ih =>
    obtain ⟨vdec, hevc, hevcBack, run, heq, hlasts⟩ := ih (vdecSetLastVdec c s v format)
    refine ⟨vdec, hevc, hevcBack, run, heq, fun w hw => ?_⟩
    apply (hlasts w hw).elim Or.inl
    intro hold
    have hset {p : Prop} [Decidable p] {old new : Option Nat}
        (hw : some w = if p then new else old) (hnew : new = some v ∨ new ∈ s.lasts)
        (hold : old = some v ∨ old ∈ s.lasts) : w = v ∨ some w ∈ s.lasts := by
      split at hw
      · exact hnew.imp (fun hv => Option.some.inj (hw.trans hv)) fun hmem => hw ▸ hmem
      · exact hold.imp (fun hv => Option.some.inj (hw.trans hv)) fun hmem => hw ▸ hmem
    simp only [lasts, vdecSetLastVdec, List.mem_cons, List.not_mem_nil, or_false] at hold
    rcases hold with hw | hw | hw | hw
    · exact hset hw (Or.inl rfl) (Or.inr (by simp [lasts]))
    · exact hset hw (Or.inl rfl) (Or.inr (by simp [lasts]))
    · exact hset hw (Or.inl rfl) (Or.inr (by simp [lasts]))
    · exact hset hw (Or.inr (by simp [lasts])) (Or.inl rfl)

/-- A decoder is given cores nobody has. -/
theorem Sound.grant (h : Sound s) (hv : v ∈ s.connectedVdecList)
    (hfree : Disjoint (bits mask) (bits s.schedMask)) : Sound (s.grant c v mask) := by
  unfold Core.grant
  dsimp only
  obtain ⟨vdec, hevc, hevcBack, run, heq, hlasts⟩ := setLastVdecs_spec c v
    ((List.range 64).filter fun k => mask.getLsbD k) (s.setVdec v { s.vdec v with
      activeMask := (s.vdec v).activeMask ||| mask
      schedMask := (s.vdec v).schedMask ||| mask
      status := .active })
  rw [heq]
  refine ⟨?_, h.once, fun w => ?_, fun w hw => ?_, fun w hw => ?_, fun w hw => ?_, fun w hw => ?_,
    nofun⟩
  · have hsplit := h.split.give hv hfree
    rw [← bits_or, ← bits_or] at hsplit
    apply hsplit.congr
    intro w _
    by_cases hw : w = v
    · rw [hw, Function.update_self]
      apply congrArg bits
      exact congrArg Vdec.schedMask (setVdec_self s v _)
    · rw [Function.update_of_ne hw]
      exact congrArg (fun x => bits (Vdec.schedMask x)) (setVdec_of_ne s hw _)
  · by_cases hw : w = v
    · rw [hw]
      simp only [setVdec_self, bits_or]
      exact Finset.union_subset_union_left (h.active v)
    · simp only [setVdec_of_ne s hw]
      exact h.active w
  · by_cases hwv : w = v
    · rw [hwv]
      simp only [setVdec_self]
      exact Or.inl trivial
    · simp only [setVdec_of_ne s hwv]
      exact h.listed w hw
  · have hwv : w ≠ v := fun heq => hw (heq ▸ hv)
    simp only [setVdec_of_ne s hwv]
    exact h.left w hw
  · have hwv : w ≠ v := fun heq => (h.gone w hw).1 (heq ▸ hv)
    simp only [setVdec_of_ne s hwv]
    exact h.gone w hw
  · rcases hlasts w hw with hwv | hold
    · exact hwv ▸ hv
    · exact h.last w hold

theorem Sound.removeDisconnected (h : Sound s) : Sound s.removeDisconnected := by
  have hout {v : Nat} (hv : v ∈ s.connectedVdecList) : v ∉ s.disconnectingList :=
    fun hgone => (h.gone v hgone).1 hv
  have hall {α : Type} (f : Vdec → α) (hf : ∀ x status, f { x with status := status } = f x)
      (v : Nat) : f (s.removeDisconnected.vdec v) = f (s.vdec v) := by
    show f (if v ∈ s.disconnectingList then _ else _) = _
    split
    · exact hf _ _
    · rfl
  have hsched := hall Vdec.schedMask fun _ _ => rfl
  have hactive := hall Vdec.activeMask fun _ _ => rfl
  refine ⟨h.split.congr fun v _ => by rw [hsched], h.once, fun v => ?_, fun v hv => ?_,
    fun v hv => (hsched v).trans (h.left v hv), nofun, h.last, nofun⟩
  · rw [hsched, hactive]
    exact h.active v
  · have hsame : s.removeDisconnected.vdec v = s.vdec v := if_neg (hout hv)
    rw [hsame]
    exact h.listed v hv

theorem vdecGetLastVdec_mem {core last : Nat} (h : vdecGetLastVdec c s core = some last) :
    some last ∈ s.lasts := by
  unfold vdecGetLastVdec at h
  repeat' split at h
  · simp [lasts, h]
  · simp [lasts, h]
  · simp [lasts, h]
  · simp [lasts, h]
  · exact absurd h nofun

/-- A search of the thread finds a connected decoder that is ready, or none. -/
theorem Sound.threadStep_elect (h : Sound s) (c : Setup) (env : Nat → ReadyEnv) {core : Nat}
    {fromLast : Bool} (hphase : s.phase = .elect core fromLast) :
    ∃ next r, s.threadStep c env = some (s.found next r) ∧ (∀ v mask, next ≠ .grant v mask) ∧
      ∀ x, r = some x → x.1 ∈ s.connectedVdecList ∧ Elected c s env core x := by
  unfold Core.threadStep
  rw [hphase]
  cases fromLast with
  | true =>
    dsimp only
    split
    · exact ⟨nextCore core, none, rfl, fun _ _ => nextCore_ne core, nofun⟩
    · split
      · exact ⟨.elect core false, none, rfl, nofun, nofun⟩
      · next last hlast =>
        rw [if_pos (h.last last (vdecGetLastVdec_mem hlast))]
        refine ⟨_, _, rfl, nofun, fun x hx => ?_⟩
        exact (electBehind_elected hx).imp_left fun hmem =>
          (List.dropWhile_suffix _).mem (List.mem_of_mem_tail hmem)
  | false => exact ⟨_, _, rfl, fun _ _ => nextCore_ne core, fun x hx => electFrom_elected hx⟩

theorem Sound.threadStep (h : Sound s) (env : Nat → ReadyEnv) :
    ∃ t, s.threadStep c env = some t ∧ Sound t := by
  cases hphase : s.phase with
  | elect core fromLast =>
    obtain ⟨next, r, ht, hnext, hr⟩ := h.threadStep_elect c env hphase
    exact ⟨_, ht, h.found hnext fun x hx => ⟨(hr x hx).1, (hr x hx).2.free⟩⟩
  | idle =>
    obtain ⟨hsound, hsame⟩ := h.releaseUnused fun _ hv => hv
    simp only [Core.threadStep, hphase]
    refine ⟨_, rfl, (hsound.checkDisconnected (fun v hv hactive => ?_)
      fun v mask hgrant => ?_).phase nofun⟩
    · rw [hsame.connected] at hv
      exact releaseUnused_idle (hsame.active v ▸ hactive) (Or.inl hv)
    · rw [hsame.phase, hphase] at hgrant
      exact absurd hgrant nofun
  | grant v mask =>
    obtain ⟨hv, hfree⟩ := h.granted v mask hphase
    simp only [Core.threadStep, hphase]
    exact ⟨_, rfl, h.grant hv hfree⟩
  | finish =>
    simp only [Core.threadStep, hphase]
    exact ⟨_, rfl, h.removeDisconnected⟩

/-! ## Runs -/

theorem Sound.step (h : Sound s) (op : Op) (hallowed : Allowed c s op) :
    ∃ t, step c s op = some t ∧ Sound t := by
  cases op with
  | thread env => exact h.threadStep env
  | finishRun v mask => exact ⟨_, rfl, h.finishRun hallowed.1 mask⟩
  | connect v => exact h.connect hallowed
  | disconnect v => exact ⟨_, rfl, h.disconnect v⟩

/-- Combined decoders have started with all their cores, and the next one will. -/
structure Whole (c : Setup) (s : Core) : Prop where
  runs : ∀ r ∈ s.runs, c.combined r.1 = true → r.2 = c.cores r.1
  granted : ∀ v mask, s.phase = .grant v mask → c.combined v = true → mask = c.cores v

theorem Whole.congr (h : Whole c s) (hruns : t.runs = s.runs) (hphase : t.phase = s.phase) :
    Whole c t := ⟨hruns ▸ h.runs, hphase ▸ h.granted⟩

/-- A combined decoder is given all its cores. -/
theorem Elected.whole {env : Nat → ReadyEnv} {core : Nat} {r : Nat × Mask}
    (h : Elected c s env core r) (hallowed : Allowed c s (.thread env))
    (htogether : Together c s (.thread env)) (hmem : r.1 ∈ s.connectedVdecList)
    (hcombined : c.combined r.1 = true) : r.2 = c.cores r.1 := by
  obtain ⟨hflag, hback⟩ := htogether r.1 hmem hcombined
  have hschedule : s.vdecScheduleMask c r.1 = 0 ∨ s.vdecScheduleMask c r.1 = c.cores r.1 := by
    simp only [vdecScheduleMask, hcombined, if_true]
    split
    · exact Or.inr rfl
    · exact Or.inl rfl
  have hoffered : s.offered c core r.1 = c.cores r.1 := by
    have hsome := h.offered
    unfold Core.offered at hsome ⊢
    split at hsome
    · next hzero =>
      rw [if_pos hzero]
      rcases hschedule with hs | hs
      · rw [hs] at hsome
        exact absurd BitVec.zero_and hsome
      · rw [hs] at hsome ⊢
        exact ((hflag.resolve_left (not_not_intro hzero)) core).resolve_left hsome
    · next hset =>
      rw [if_neg hset]
      exact hschedule.resolve_left hsome
  have hready := h.ready
  rw [hoffered] at hready
  have hall := askRunReady_all (hallowed r.1 hcombined) hback
  rcases vdecReadyToRun_combined (s := s) hcombined hall with hr | hr
  · exact absurd (hready.trans hr) h.some
  · exact hready.trans hr

theorem Whole.found (h : Whole c s) {next : Phase} {r : Option (Nat × Mask)}
    (hnext : ∀ v mask, next ≠ .grant v mask)
    (hr : ∀ x, r = some x → c.combined x.1 = true → x.2 = c.cores x.1) :
    Whole c (s.found next r) := by
  cases r with
  | none => exact ⟨h.runs, fun v mask hgrant => absurd hgrant (hnext v mask)⟩
  | some x =>
    refine ⟨h.runs, fun v mask hgrant => ?_⟩
    injection hgrant with hv hmask
    rw [← hv, ← hmask]
    exact hr x rfl

theorem Whole.threadStep (h : Whole c s) (hsound : Sound s) {env : Nat → ReadyEnv}
    (hallowed : Allowed c s (.thread env)) (htogether : Together c s (.thread env))
    (ht : s.threadStep c env = some t) : Whole c t := by
  cases hphase : s.phase with
  | elect core fromLast =>
    obtain ⟨next, r, ht', hnext, hr⟩ := hsound.threadStep_elect c env hphase
    rw [← Option.some.inj (ht'.symm.trans ht)]
    exact h.found hnext fun x hx => (hr x hx).2.whole hallowed htogether (hr x hx).1
  | idle =>
    obtain ⟨-, hsame⟩ := hsound.releaseUnused fun _ hv => hv
    simp only [Core.threadStep, hphase] at ht
    rw [← Option.some.inj ht]
    refine ⟨?_, nofun⟩
    show ∀ r ∈ (releaseUnused s.connectedVdecList s).runs, _
    rw [hsame.runs]
    exact h.runs
  | grant v mask =>
    simp only [Core.threadStep, hphase] at ht
    rw [← Option.some.inj ht]
    refine ⟨fun r hr hcombined => ?_, nofun⟩
    unfold Core.grant at hr
    dsimp only at hr
    obtain ⟨vdec, hevc, hevcBack, run, heq, -⟩ := setLastVdecs_spec c v
      ((List.range 64).filter fun k => mask.getLsbD k) (s.setVdec v { s.vdec v with
        activeMask := (s.vdec v).activeMask ||| mask
        schedMask := (s.vdec v).schedMask ||| mask
        status := .active })
    rw [heq] at hr
    rcases List.mem_append.mp hr with hr | hr
    · exact h.runs r hr hcombined
    · rw [List.mem_singleton.mp hr] at hcombined ⊢
      exact h.granted v mask hphase hcombined
  | finish =>
    simp only [Core.threadStep, hphase] at ht
    rw [← Option.some.inj ht]
    exact ⟨h.runs, nofun⟩

theorem join_same (ht : s.join v = some t) : t.runs = s.runs ∧ t.phase = s.phase := by
  unfold Core.join at ht
  split at ht
  · exact absurd ht nofun
  · rw [← Option.some.inj ht]
    exact ⟨rfl, rfl⟩

theorem connect_same (ht : s.vdecConnect c v = some t) : t.runs = s.runs ∧ t.phase = s.phase := by
  unfold vdecConnect at ht
  split at ht
  · rw [← Option.some.inj ht]
    exact ⟨rfl, rfl⟩
  · obtain ⟨u, hu, ht⟩ := Option.bind_eq_some_iff.mp ht
    obtain ⟨hruns, hphase⟩ := join_same hu
    cases hs : c.slave v with
    | none =>
      rw [hs] at ht
      rw [← Option.some.inj ht]
      exact ⟨hruns, hphase⟩
    | some slave =>
      rw [hs] at ht
      obtain ⟨hruns', hphase'⟩ := join_same ht
      exact ⟨hruns'.trans hruns, hphase'.trans hphase⟩

theorem disconnect_same (c : Setup) (s : Core) (v : Nat) :
    (s.vdecDisconnect c v).runs = s.runs ∧ (s.vdecDisconnect c v).phase = s.phase := by
  unfold vdecDisconnect
  split
  · exact ⟨rfl, rfl⟩
  · dsimp only
    split
    · exact ⟨rfl, rfl⟩
    · cases c.master v <;> exact ⟨rfl, rfl⟩

theorem Whole.step (h : Whole c s) (hsound : Sound s) (op : Op) (hallowed : Allowed c s op)
    (htogether : Together c s op) (ht : Scheduler.step c s op = some t) : Whole c t := by
  cases op with
  | thread env => exact h.threadStep hsound hallowed htogether ht
  | finishRun v mask =>
    rw [← Option.some.inj ht]
    exact h.congr rfl rfl
  | connect v =>
    obtain ⟨hruns, hphase⟩ := connect_same ht
    exact h.congr hruns hphase
  | disconnect v =>
    obtain ⟨hruns, hphase⟩ := disconnect_same c s v
    rw [← Option.some.inj ht]
    exact h.congr hruns hphase

/-- The shares seen from the masks. -/
theorem Sound.exclusive (h : Sound s) (hwhole : Whole c s) : Exclusive c s := by
  refine ⟨fun v hv w hw hne => (disjoint_iff _ _).mp (h.split.apart v hv w hw hne), ?_,
    fun v _ => ?_, hwhole.runs, h.left⟩
  · refine bits_injective (Finset.ext fun k => ?_)
    exact (h.split.whole k).trans
      (mem_bits_foldr (fun v => (s.vdec v).schedMask) s.connectedVdecList).symm
  · apply (bits_eq_empty _).mp
    rw [bits_and_not]
    exact Finset.sdiff_eq_empty_iff_subset.mpr (h.active v)

/-- Whatever the decoders answer, the thread follows connected decoders only, and the cores are
split among them. -/
theorem cores_split (c : Setup) (ops : List Op)
    (hallowed : Guarded (Scheduler.step c) (Allowed c) {} ops) :
    (∃ t, run (Scheduler.step c) {} ops = some t) ∧ Always (Scheduler.step c) Sound {} ops :=
  defined_of_guarded (fun _ op h hok => h.step op hok) sound_start hallowed

/-- No core is given to two decoders and no decoder is followed that is not in the list; and
combined decoders start with all their cores, while they are combined in `vdec_combine_flag` too and
ask for the back core themselves. -/
theorem cores_exclusive (c : Setup) (ops : List Op)
    (hallowed : Guarded (Scheduler.step c) (Allowed c) {} ops)
    (htogether : Guarded (Scheduler.step c) (Together c) {} ops) :
    (∃ t, run (Scheduler.step c) {} ops = some t) ∧
      Always (Scheduler.step c) (Exclusive c) {} ops := by
  have hkeep (s : Core) (op : Op) (h : Sound s ∧ Whole c s)
      (hok : Allowed c s op ∧ Together c s op) :
      ∃ t, Scheduler.step c s op = some t ∧ Sound t ∧ Whole c t := by
    obtain ⟨t, ht, hsound⟩ := h.1.step op hok.1
    exact ⟨t, ht, hsound, h.2.step h.1 op hok.1 hok.2 ht⟩
  obtain ⟨hdefined, halways⟩ := defined_of_guarded hkeep ⟨sound_start, nofun, nofun⟩
    (guarded_and.mpr ⟨hallowed, htogether⟩)
  exact ⟨hdefined, halways.imp fun s h => h.1.exclusive h.2⟩

end Steps

/-- Every decoder needs both `VDEC_1` and `HEVC`. -/
def bothCores (vdecCombineFlag : Int) : Setup :=
  { coreMask := fun _ => 1#64 ||| CORE_MASK_HEVC ||| CORE_MASK_COMBINE, vdecCombineFlag }

/-- Every decoder is ready for what it is offered. -/
def allReady : Nat → ReadyEnv := fun _ => { runReady := some fun mask => mask }

/-- A decoder is connected, and the thread goes on for some sections. -/
def connectOne (sections : Nat) : List Op :=
  .connect 0 :: List.replicate sections (.thread allReady)

theorem allowed_connectOne (flag : Int) (sections : Nat) :
    Guarded (step (bothCores flag)) (Allowed (bothCores flag)) {} (connectOne sections) := by
  apply guarded_of_all
  intro s op hop
  rcases List.mem_cons.mp hop with rfl | hop
  · exact fun _ _ => nofun
  · rw [(List.mem_replicate.mp hop).2]
    intro v _ f hf mask
    rw [← Option.some.inj hf]
    exact Or.inr BitVec.and_self

/-- With the flag set the decoder runs with both cores. -/
theorem cores_exclusive_combined :
    (∃ t, run (step (bothCores 1)) {} (connectOne 6) = some t) ∧
      Always (step (bothCores 1)) (Exclusive (bothCores 1)) {} (connectOne 6) := by
  refine cores_exclusive (bothCores 1) (connectOne 6) (allowed_connectOne 1 6)
    (guarded_of_all fun s op hop => ?_)
  rcases List.mem_cons.mp hop with rfl | hop
  · trivial
  · rw [(List.mem_replicate.mp hop).2]
    intro v _ _
    exact ⟨Or.inl (show (1 : Int) ≠ 0 by decide), fun hback => absurd hback (by
      show ¬ (1#64 ||| CORE_MASK_HEVC ||| CORE_MASK_COMBINE) &&& ~~~CORE_MASK_COMBINE &&&
        CORE_MASK_HEVC_BACK ≠ 0
      decide)⟩

/-- Without it, as when decoders do not run in parallel, it is given one core. -/
theorem combined_starts_in_part : ¬ ∀ c ops, Guarded (step c) (Allowed c) {} ops →
    (∃ t, run (step c) {} ops = some t) ∧ Always (step c) (Exclusive c) {} ops := by
  intro h
  obtain ⟨⟨t, ht⟩, halways⟩ := h (bothCores 0) (connectOne 8) (allowed_connectOne 0 8)
  have hruns := read_of_run (a := [(0, CORE_MASK_HEVC)]) Core.runs (by decide +kernel) ht
  have hwhole := (always_last halways ht).whole (0, CORE_MASK_HEVC)
    (hruns ▸ List.mem_singleton_self _) rfl
  exact absurd hwhole (by decide +kernel)

end MediaModules.Scheduler
